import SqlBuilder.Config
import SqlBuilder.Render

/-!
# Statements

A statement under construction. The first error stays with it and is what every final
use of it returns.
-/
namespace SqlBuilder

structure Statement where
  dialect : Dialect
  config : Config
  state : Snapshot
  aliasName : Option String
  /-- The quoted columns of the rows inserted so far. -/
  insertColumns : List String
  /-- The clause of the newest predicate. -/
  lastPredicate : Option ClauseKind
  error : Option SqlError

namespace Statement

def new (dialect : Dialect) : Statement := ⟨dialect, {}, .empty, none, [], none, none⟩

def engine (s : Statement) : Engine := s.dialect.engine

def kind (s : Statement) : Option StatementKind := s.state.kind

def checked (s : Statement) : Outcome Snapshot :=
  match s.error with
  | none => .ok s.state
  | some e => .error e

def toStructured (s : Statement) : Outcome Snapshot := s.checked

def toSql (s : Statement) (layout : Layout) : Outcome String := do
  (← s.checked).render layout

def sql (s : Statement) : Outcome String := s.toSql s.config.layout

/-- The view of a statement that is to stand inside one for `parent`. -/
def nested (s : Statement) (parent : Engine) : Outcome Snapshot :=
  if s.engine ≠ parent then .error (.config (.foreignSub s.engine parent))
  else s.toStructured.map fun view => { view with isSub := true }

end Statement

end SqlBuilder
