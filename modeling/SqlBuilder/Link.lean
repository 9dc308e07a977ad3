import SqlBuilder.Statement

/-!
# Links

A link runs finished text for one dialect. Executing a statement hands it at most one
text, and only after the statement has been rendered.
-/
namespace SqlBuilder

/-- Something that runs text in a state of its own. -/
structure Link (σ ρ : Type) where
  dialect : Dialect
  run : String → σ → Outcome ρ × σ

inductive LogEvent where
  | rejected (error : SqlError)
  | executing (kind : StatementKind) (engine : Engine) (sql : String)
  | detectedVersion (version : ServerVersion)

structure Execution (σ ρ : Type) where
  result : Outcome ρ
  log : List LogEvent
  state : σ

namespace Statement

/-- The text to hand to a link of some engine, and what is logged before. -/
def dispatch (s : Statement) (engine : Engine) : Outcome String × List LogEvent :=
  match s.sql with
  | .error e => (.error e, [.rejected e])
  | .ok sql =>
    if engine ≠ s.engine then (.error (.config (.foreignLink s.engine engine)), [])
    else if s.config.logSql then
      (.ok sql, [.executing (s.kind.getD .select) s.engine (s.config.loggedSql sql)])
    else (.ok sql, [])

def execute (s : Statement) (link : Link σ ρ) (state : σ) : Execution σ ρ :=
  match s.dispatch link.dialect.engine with
  | (.error e, log) => ⟨.error e, log, state⟩
  | (.ok sql, log) =>
    let (result, state) := link.run sql state
    ⟨result, log, state⟩

end Statement

/-- A link that keeps every text it is handed and answers with their number, or fails
with the given text. -/
def Link.recording (dialect : Dialect) (failure : Option String) : Link (List String) Nat where
  dialect := dialect
  run sql seen := match failure with
    | none => (.ok (seen.length + 1), seen ++ [sql])
    | some text => (.error (.execution text), seen ++ [sql])

end SqlBuilder
