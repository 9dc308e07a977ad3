import SqlBuilder.Value

/-!
# JSON projections

What a JSON constructor is to build, before it is compiled for an engine.
-/
namespace SqlBuilder

/-- Which JSON constructor a description is for. -/
inductive JsonShape where
  | object
  | array
  deriving DecidableEq, Repr

/-- Text is resolved by its separators; a literal is taken as it is. -/
inductive JsonSpec where
  | text (s : String)
  | list (items : List JsonSpec)
  | map (pairs : List (String × JsonSpec))
  | literal (v : Value)

namespace JsonSpec

mutual

def shown : JsonSpec → String
  | .text s => Value.applied "Text" (Text.quoted s)
  | .list items => Value.applied "List" (Value.shownItems (shownAll items))
  | .map pairs => Value.applied "Map" (Value.shownItems (shownPairs pairs))
  | .literal v => Value.applied "Literal" v.shown

def shownAll : List JsonSpec → List String
  | [] => []
  | s :: ss => shown s :: shownAll ss

def shownPairs : List (String × JsonSpec) → List String
  | [] => []
  | (key, s) :: ps => ("(" ++ Text.quoted key ++ ", " ++ shown s ++ ")") :: shownPairs ps

end

end JsonSpec

end SqlBuilder
