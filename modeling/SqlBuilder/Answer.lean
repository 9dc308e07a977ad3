import SqlBuilder.Error

/-!
# Answers to queries

The rows and counts that a server sends for one query text, which may hold several
statements.
-/
namespace SqlBuilder

abbrev Cell := Option String

/-- What a client makes of one message of the server. -/
inductive RowMessage where
  | row (columns : List String) (cells : List Cell)
  | complete (affected : UInt64)
  | other

structure Answer where
  columns : List String
  rows : List (List Cell)
  affected : UInt64

namespace Answer

def empty : Answer := ⟨[], [], 0⟩

/-- The columns are those of the first row that has any. -/
def add (a : Answer) : RowMessage → Answer
  | .row columns cells =>
    { a with
      columns := if a.columns = [] then columns else a.columns
      rows := a.rows ++ [cells] }
  | .complete n => { a with affected := a.affected + n }
  | .other => a

def ofMessages (messages : List RowMessage) : Answer := messages.foldl add empty

/-- The cell of a row under the first column of that name. -/
def get (a : Answer) (index : Nat) (column : String) : Cell := do
  let position ← a.columns.findIdx? (· = column)
  let row ← a.rows[index]?
  (← row[position]?)

end Answer

end SqlBuilder
