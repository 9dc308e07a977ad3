import SqlBuilder.Statement
import SqlBuilder.Literal
import SqlBuilder.Text.TopLevel

/-!
# Fields

What stands in a select list, a FROM clause or an ordering. Text is split at its
top-level commas; a text or a listed name may carry an alias after `AS`.
-/
namespace SqlBuilder

inductive Field where
  | text (s : String)
  | list (names : List String)
  | ident (name : String)
  | raw (sql : String)
  | statement (s : Statement)

namespace Field

/-- The text cut at the last ` AS ` in any letter case, with something on both sides. -/
def splitAlias (cs : List Char) : Option (List Char × List Char) :=
  match lastMark cs with
  | none => none
  | some (name, aliasName) =>
    let name := Text.trim name
    let aliasName := Text.trim aliasName
    if name = [] || aliasName = [] then none else some (name, aliasName)
where
  /-- What stands before and after the last mark. -/
  lastMark : List Char → Option (List Char × List Char)
    | [] => none
    | c :: cs =>
      match lastMark cs with
      | some (name, aliasName) => some (c :: name, aliasName)
      | none =>
        if ((c :: cs).take 4).map Char.toLower = [' ', 'a', 's', ' '] then
          some ([], (c :: cs).drop 4)
        else none

/-- A name with its alias, quoted; `whole` is the text it comes from. -/
def quoteAliased (e : Engine) (whole : String) (segment : List Char) : Outcome String := do
  let segment := Text.trim segment
  if segment = [] then .error (.shape (.blankField whole))
  else match splitAlias segment with
    | none => e.quoteIdent (String.ofList segment)
    | some (name, aliasName) =>
      let name ← e.quoteIdent (String.ofList name)
      let aliasName ← e.quoteIdent (String.ofList aliasName)
      return name ++ " AS " ++ aliasName

def isUnnamed : Field → Bool
  | .statement s => s.aliasName.isNone
  | _ => false

def statementFragment (e : Engine) (s : Statement) : Outcome Fragment := do
  let view ← s.nested e
  match s.aliasName with
  | none => return ⟨[.sub view], none⟩
  | some aliasName =>
    let aliasName ← e.quoteIdent aliasName
    return ⟨[.sub view, .sql (" AS " ++ aliasName)], none⟩

def fragments (e : Engine) : Field → Outcome (List Fragment)
  | .text s => (Text.splitTop ',' s.toList).mapM fun segment =>
      (quoteAliased e s segment).map Fragment.ofText
  | .list [] => .error (.shape .emptyFieldList)
  | .list names => names.mapM fun name =>
      (quoteAliased e name name.toList).map Fragment.ofText
  | .ident name => (e.quoteIdent name).map fun text => [.ofText text]
  | .raw sql => .ok [.ofText ("(" ++ sql ++ ")")]
  | .statement s => (statementFragment e s).map fun f => [f]

def joined (e : Engine) (field : Field) : Outcome Fragment := do
  match ← field.fragments e with
  | [] => .error (.shape .emptyField)
  | f :: fs => return fs.foldl (Fragment.join ", ") f

/-- A sub-statement has to have a name in some places. -/
def requireName (field : Field) (place : NamedPlace) : Outcome Unit :=
  if field.isUnnamed then .error (.missingAlias (.unnamed place)) else .ok ()

end Field

end SqlBuilder
