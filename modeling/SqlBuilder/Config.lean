import SqlBuilder.Error
import SqlBuilder.Layout

/-!
# Configuration

How statements are laid out and logged, and which dialect they are for.
-/
namespace SqlBuilder

structure Config where
  pretty : Bool := false
  logSql : Bool := true
  /-- How many bytes of a statement are logged; all of them when absent. -/
  maxLogLength : Option Nat := some 200
  engine : Option Engine := none
  serverVersion : Option String := none
  deriving DecidableEq, Repr

/-- The longest run of whole characters at the start of a text that fits in `max` bytes. -/
def fittingChars (max : Nat) : List Char → List Char
  | [] => []
  | c :: cs => if c.utf8Size ≤ max then c :: fittingChars (max - c.utf8Size) cs else []

namespace Config

def layout (c : Config) : Layout := if c.pretty then .pretty else .compact

def loggedSql (c : Config) (sql : String) : String :=
  match c.maxLogLength with
  | none => sql
  | some max =>
    if sql.utf8ByteSize ≤ max then sql
    else String.ofList (fittingChars max sql.toList ++ ['.', '.', '.'])

def dialect (c : Config) : Outcome (Option Dialect) :=
  match c.engine, c.serverVersion with
  | none, none => .ok none
  | none, some _ => .error (.config .versionWithoutDialect)
  | some engine, none => .ok (some ⟨engine, none⟩)
  | some engine, some text =>
    match ServerVersion.parse? text with
    | some version => .ok (some ⟨engine, some version⟩)
    | none => .error (.config (.version (.version text)))

end Config

end SqlBuilder
