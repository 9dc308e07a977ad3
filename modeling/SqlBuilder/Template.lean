import SqlBuilder.Literal

/-!
# Templates

Text with placeholders, filled from left to right: `??` takes an identifier, `(?)` a
list in parentheses, `?` a literal. What is filled in is never read again, and
parameters left over are ignored.
-/
namespace SqlBuilder

namespace Engine

mutual

/-- An identifier, or a list of them to any depth. -/
def fillIdent (e : Engine) : Value → Outcome String
  | .text name => e.quoteIdent name
  | .ident name => e.quoteIdent name
  | .list names => (fillIdents e names).map commaJoined
  | v => .error (.shape (.notIdentifier v))

def fillIdents (e : Engine) : List Value → Outcome (List String)
  | [] => .ok []
  | v :: vs => do
    let name ← fillIdent e v
    let names ← fillIdents e vs
    return name :: names

end

/-- An empty list stands for `NULL`, which no value equals. -/
def fillList (e : Engine) : Value → Outcome String
  | .list [] => .ok "NULL"
  | v => e.escape v

def fillOne (e : Engine) (form : PlaceholderForm) (v : Value) : Outcome String :=
  match form with
  | .list => (e.fillList v).map fun text => "(" ++ text ++ ")"
  | .ident => e.fillIdent v
  | .literal => e.escape v

end Engine

/-- A template with its parameters, for messages. -/
structure Template where
  text : String
  params : List Value

namespace Template

def take (t : Template) (e : Engine) (form : PlaceholderForm) :
    List Value → Outcome (List Char × List Value)
  | [] => .error (.placeholder (.missing t.text form t.params.length))
  | v :: rest => (e.fillOne form v).map fun text => (text.toList, rest)

def fill (t : Template) (e : Engine) : List Char → List Value → Outcome (List Char)
  | '(' :: '?' :: ')' :: cs, params => do
    let (text, params) ← t.take e .list params
    return text ++ (← fill t e cs params)
  | '?' :: '?' :: cs, params => do
    let (text, params) ← t.take e .ident params
    return text ++ (← fill t e cs params)
  | '?' :: cs, params => do
    let (text, params) ← t.take e .literal params
    return text ++ (← fill t e cs params)
  | c :: cs, params => do return c :: (← fill t e cs params)
  | [], _ => .ok []

end Template

def Engine.prepare (e : Engine) (template : String) (params : List Value) : Outcome String :=
  (Template.fill ⟨template, params⟩ e template.toList params).map String.ofList

end SqlBuilder
