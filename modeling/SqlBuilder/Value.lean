import SqlBuilder.Decimal.Layout
import SqlBuilder.Text.Quoted

/-!
# Values

What can be bound to a placeholder or assigned to a column.
-/
namespace SqlBuilder

inductive Value where
  | null
  | bool (b : Bool)
  | int (n : Int)
  | float (x : Float)
  | text (s : String)
  | list (items : List Value)
  | ident (name : String)
  | raw (sql : String)

namespace Value

def isScalar : Value → Bool
  | .list _ | .ident _ | .raw _ => false
  | _ => true

/-- What a value is called when another shape was expected. -/
def shape : Value → String
  | .null => "null"
  | .bool _ => "bool"
  | .int _ => "int"
  | .float _ => "float"
  | .text _ => "text"
  | .list _ => "list"
  | .ident _ => "identifier"
  | .raw _ => "raw sql"

def applied (name argument : String) : String := name ++ "(" ++ argument ++ ")"

def shownBool (b : Bool) : String := if b then "true" else "false"

def shownItems (items : List String) : String := "[" ++ ", ".intercalate items ++ "]"

mutual

def shown : Value → String
  | .null => "Null"
  | .bool b => applied "Bool" (shownBool b)
  | .int n => applied "Int" (toString n)
  | .float x => applied "Float" (Decimal.Layout.shown.text x)
  | .text s => applied "Text" (Text.quoted s)
  | .list items => applied "List" (shownItems (shownAll items))
  | .ident name => applied "Ident" (Text.quoted name)
  | .raw sql => applied "Raw" (Text.quoted sql)

def shownAll : List Value → List String
  | [] => []
  | v :: vs => shown v :: shownAll vs

end

end Value

end SqlBuilder
