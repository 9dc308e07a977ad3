import SqlBuilder.Decimal.Layout

/-!
# JSON documents

Documents whose objects keep the order of their members, and their compact text.
-/
namespace SqlBuilder

inductive Json where
  | null
  | bool (b : Bool)
  | int (n : Int)
  | float (x : Float)
  | str (s : String)
  | arr (items : List Json)
  | obj (members : List (String × Json))
  deriving Inhabited

namespace Json

/-- A later member takes the place of an earlier one with its key. -/
def putMember (key : String) (j : Json) : List (String × Json) → List (String × Json)
  | [] => [(key, j)]
  | m :: ms => if m.1 = key then (key, j) :: ms else m :: putMember key j ms

def ofMembers (members : List (String × Json)) : Json :=
  .obj (members.foldl (fun ms m => putMember m.1 m.2 ms) [])

def ofFloat (x : Float) : Json := if Decimal.isFinite x then .float x else .null

def hexDigits (width n : Nat) : List Char :=
  let ds := Nat.toDigits 16 n
  List.replicate (width - ds.length) '0' ++ ds

/-- The characters that stand for `c` inside a string. -/
def escapedChar (c : Char) : List Char :=
  if c = '"' then ['\\', '"']
  else if c = '\\' then ['\\', '\\']
  else if c = '\x08' then ['\\', 'b']
  else if c = '\t' then ['\\', 't']
  else if c = '\n' then ['\\', 'n']
  else if c = '\x0c' then ['\\', 'f']
  else if c = '\r' then ['\\', 'r']
  else if c.toNat < 32 then '\\' :: 'u' :: hexDigits 4 c.toNat
  else [c]

def quotedString (s : String) : String :=
  String.ofList ('"' :: s.toList.flatMap escapedChar ++ ['"'])

mutual

/-- The document on one line without blanks. -/
def compact : Json → String
  | .null => "null"
  | .bool b => if b then "true" else "false"
  | .int n => toString n
  | .float x => Decimal.Layout.document.text x
  | .str s => quotedString s
  | .arr items => "[" ++ ",".intercalate (compactAll items) ++ "]"
  | .obj members => "\x7b" ++ ",".intercalate (compactMembers members) ++ "\x7d"

def compactAll : List Json → List String
  | [] => []
  | j :: js => compact j :: compactAll js

def compactMembers : List (String × Json) → List String
  | [] => []
  | (key, j) :: ms => (quotedString key ++ ":" ++ compact j) :: compactMembers ms

end

/-- The name of a choice without an argument: a string, or a member without a value. -/
def tag? : Json → Option String
  | .str s => some s
  | .obj [(key, .null)] => some key
  | _ => none

/-- The members of a record under their names. A record may also be given as the list of
its members from the first on. -/
def record? (names : List String) : Json → Option (List (Option Json))
  | .obj members => some (names.map fun name => members.lookup name)
  | .arr items =>
    if items.length ≤ names.length then
      some (items.map some ++ List.replicate (names.length - items.length) none)
    else none
  | _ => none

end Json

end SqlBuilder
