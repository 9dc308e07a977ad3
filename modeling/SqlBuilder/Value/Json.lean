import SqlBuilder.Error
import SqlBuilder.Json
import SqlBuilder.Decimal.Reader

/-!
# Values and JSON documents

A document can be bound as a value, object members apart. The tagged form of a value
names its constructor and keeps every distinction between values.
-/
namespace SqlBuilder

/-- The integers that a value holds exactly. -/
def isStoredInt (n : Int) : Bool := -0x8000000000000000 ≤ n && n < 0x8000000000000000

def floatOfInt (n : Int) : Float :=
  let x := Decimal.Scaled.toFloat ⟨n.natAbs, 0⟩
  if n < 0 then -x else x

namespace Value

mutual

/-- The value of a document; an integer that is too large becomes a double. -/
def ofJson : Json → Outcome Value
  | .null => .ok .null
  | .bool b => .ok (.bool b)
  | .int n => .ok (if isStoredInt n then .int n else .float (floatOfInt n))
  | .float x => .ok (.float x)
  | .str s => .ok (.text s)
  | .arr items => (ofJsons items).map .list
  | .obj _ => .error (.shape .objectValue)

def ofJsons : List Json → Outcome (List Value)
  | [] => .ok []
  | j :: js => do
    let v ← ofJson j
    return v :: (← ofJsons js)

end

mutual

def toTagged : Value → Json
  | .null => .str "Null"
  | .bool b => .obj [("Bool", .bool b)]
  | .int n => .obj [("Int", .int n)]
  | .float x => .obj [("Float", .ofFloat x)]
  | .text s => .obj [("Text", .str s)]
  | .list items => .obj [("List", .arr (toTaggeds items))]
  | .ident name => .obj [("Ident", .str name)]
  | .raw sql => .obj [("Raw", .str sql)]

def toTaggeds : List Value → List Json
  | [] => []
  | v :: vs => toTagged v :: toTaggeds vs

end

mutual

def ofTagged? : Json → Option Value
  | .str name => if name = "Null" then some .null else none
  | .obj [(name, .null)] => if name = "Null" then some .null else none
  | .obj [(name, .bool b)] => if name = "Bool" then some (.bool b) else none
  | .obj [(name, .int n)] =>
    if name = "Int" then if isStoredInt n then some (.int n) else none
    else if name = "Float" then some (.float (floatOfInt n))
    else none
  | .obj [(name, .float x)] => if name = "Float" then some (.float x) else none
  | .obj [(name, .str s)] =>
    if name = "Text" then some (.text s)
    else if name = "Ident" then some (.ident s)
    else if name = "Raw" then some (.raw s)
    else none
  | .obj [(name, .arr items)] =>
    if name = "List" then (ofTaggeds? items).map .list else none
  | _ => none

def ofTaggeds? : List Json → Option (List Value)
  | [] => some []
  | j :: js => do
    let v ← ofTagged? j
    return v :: (← ofTaggeds? js)

end

end Value

namespace JsonSpec

mutual

/-- Strings are texts and other scalars literals. -/
def ofJson : Json → Outcome JsonSpec
  | .str s => .ok (.text s)
  | .arr items => (ofJsons items).map .list
  | .obj members => (ofMembers members).map .map
  | j => (Value.ofJson j).map .literal

def ofJsons : List Json → Outcome (List JsonSpec)
  | [] => .ok []
  | j :: js => do
    let spec ← ofJson j
    return spec :: (← ofJsons js)

def ofMembers : List (String × Json) → Outcome (List (String × JsonSpec))
  | [] => .ok []
  | (key, j) :: ms => do
    let spec ← ofJson j
    return (key, spec) :: (← ofMembers ms)

end

end JsonSpec

end SqlBuilder
