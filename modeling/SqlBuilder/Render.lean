import SqlBuilder.Snapshot
import SqlBuilder.Layout
import SqlBuilder.Error

/-!
# Rendering

A snapshot becomes text. Its fragments are finished already, so no dialect is needed; each kind of
statement decides which clauses it renders and in which order. The layout and the depth of nesting
go down to every fragment, because the statements nested in it break lines of their own.
-/
namespace SqlBuilder

/-- A fragment as its clause sees it; `op` joins it to the one after it. -/
structure Rendering where
  text : Layout → Nat → Outcome String
  op : BoolOp

namespace PerClause

/-- The first clause besides its rows that an INSERT would hold. -/
def foreign? (c : PerClause (List α)) : Option ClauseKind :=
  ClauseKind.all.find? fun k => k ≠ .insert && !(c.get k).isEmpty

end PerClause

def requireTable (table : Option String) : Outcome String :=
  match table with
  | none => .error .missingTable
  | some name => .ok name

namespace Rendering

variable (layout : Layout) (depth : Nat)

def texts (fs : List Rendering) : Outcome (List String) := fs.mapM fun f => f.text layout depth

def list (sep : String) : List Rendering → Outcome String
  | [] => .ok ""
  | [f] => f.text layout depth
  | f :: fs => do
    let first ← f.text layout depth
    return first ++ sep ++ (← list sep fs)

def closing (pending : Nat) : String := String.ofList (List.replicate pending ')')

/-- The entries of a predicate list from some place on, where `pending` groups are open. A group
opens where the operator changes and at least two entries remain; all of them close at the end. -/
def entries (pending : Nat) : List Rendering → Outcome String
  | [] => .ok (closing pending)
  | [f] => do return (← f.text layout depth) ++ closing pending
  | f :: g :: fs => do
    let first ← f.text layout depth
    let joined := first ++ (" " ++ f.op.keyword ++ " ")
    if f.op ≠ g.op && !fs.isEmpty then
      return joined ++ "(" ++ (← entries (pending + 1) (g :: fs))
    else return joined ++ (← entries pending (g :: fs))

def predicates (fs : List Rendering) : Outcome (Option String) :=
  if fs.isEmpty then .ok none
  else do return some ("(" ++ (← entries layout depth 0 fs) ++ ")")

def listed (fs : List Rendering) : Outcome (List String) :=
  if fs.isEmpty then .ok [] else do return [← list layout depth ", " fs]

def keywordList (keyword : String) (fs : List Rendering) : Outcome (List String) := do
  return (← listed layout depth fs).map fun text => keyword ++ " " ++ text

def keywordPredicates (keyword : String) (fs : List Rendering) : Outcome (List String) := do
  match ← predicates layout depth fs with
  | none => return []
  | some text => return [keyword ++ " " ++ text]

variable (table : Option String) (c : PerClause (List Rendering))

/-- ORDER BY and LIMIT, which every kind but INSERT ends with. -/
def tail : Outcome (List String) := do
  let ordering ← keywordList layout depth "ORDER BY" c.ordering
  return ordering ++ (← texts layout depth c.limit)

/-- The select list; `*` when there is none. -/
def columns : Outcome String := do
  let fields ← listed layout depth c.select
  let aggregates ← listed layout depth c.aggregate
  let columns := fields ++ aggregates
  return ", ".intercalate (if columns.isEmpty then ["*"] else columns)

/-- What stands behind FROM; the target of the statement when nothing else does. -/
def source : Outcome String :=
  if c.source.isEmpty then requireTable table else list layout depth ", " c.source

def select : Outcome (List String) := do
  let columns ← columns layout depth c
  let source ← source layout depth table c
  let joins ← texts layout depth c.join
  let filter ← keywordPredicates layout depth "WHERE" c.filter
  let grouping ← keywordList layout depth "GROUP BY" c.grouping
  let having ← keywordPredicates layout depth "HAVING" c.having
  return ["SELECT " ++ columns, "FROM " ++ source] ++ joins ++ filter ++ grouping ++ having
    ++ (← tail layout depth c)

/-- The lines of an INSERT that is not refused: the columns first, then a tuple for each row. -/
def inserted (name : String) (columns : Rendering) (rows : List Rendering) :
    Outcome (List String) := do
  let rows ← texts layout depth rows
  let columns ← columns.text layout depth
  let tuples := rows.map fun row => "(" ++ row ++ ")"
  return ["INSERT INTO " ++ name ++ " (" ++ columns ++ ")", "VALUES " ++ ", ".intercalate tuples]

def insert : Outcome (List String) := do
  let name ← requireTable table
  match c.foreign? with
  | some k => .error (.shape (.clauseOnInsert k))
  | none => match c.insert with
    | columns :: row :: rows => inserted layout depth name columns (row :: rows)
    | _ => .error (.shape .insertWithoutRow)

def update : Outcome (List String) := do
  let name ← requireTable table
  if c.update.isEmpty then .error (.shape .updateWithoutAssignment)
  else
    let assignments ← list layout depth ", " c.update
    let filter ← keywordPredicates layout depth "WHERE" c.filter
    return ["UPDATE " ++ name, "SET " ++ assignments] ++ filter ++ (← tail layout depth c)

def delete : Outcome (List String) := do
  let name ← requireTable table
  let filter ← keywordPredicates layout depth "WHERE" c.filter
  return ["DELETE FROM " ++ name] ++ filter ++ (← tail layout depth c)

/-- A statement of no kind is a SELECT. -/
def lines (kind : Option StatementKind) : Outcome (List String) :=
  match kind.getD .select with
  | .select => select layout depth table c
  | .insert => insert layout depth table c
  | .update => update layout depth table c
  | .delete => delete layout depth table c

/-- On many lines a statement marked as nested starts on a line of its own and ends with the
indentation of the statement around it, which puts it in parentheses. -/
def joined (isSub : Bool) (lines : List String) : String :=
  match layout with
  | .compact => " ".intercalate lines
  | .pretty =>
    let body := (Piece.lineBreak depth).intercalate lines
    if isSub && 0 < depth then Piece.lineBreak depth ++ body ++ Piece.lineBreak (depth - 1)
    else body

end Rendering

mutual

def Part.render : Part → Layout → Nat → Outcome String
  | .sql text, _, _ => .ok text
  | .sub s, layout, depth => do return "(" ++ (← s.renderNested layout (depth + 1)) ++ ")"

def renderParts : List Part → Layout → Nat → Outcome String
  | [], _, _ => .ok ""
  | p :: ps, layout, depth => do
    let first ← p.render layout depth
    return first ++ (← renderParts ps layout depth)

def Fragment.rendering : Fragment → Rendering
  | ⟨parts, op⟩ => ⟨renderParts parts, op.getD .and⟩

def fragmentRenderings : List Fragment → List Rendering
  | [] => []
  | f :: fs => f.rendering :: fragmentRenderings fs

def clauseRenderings : Option (List Fragment) → List Rendering
  | none => []
  | some fs => fragmentRenderings fs

def tableRenderings : PerClause (Option (List Fragment)) → PerClause (List Rendering)
  | ⟨select, aggregate, source, join, filter, grouping, having, ordering, limit, insert,
      update⟩ =>
    ⟨clauseRenderings select, clauseRenderings aggregate, clauseRenderings source,
     clauseRenderings join, clauseRenderings filter, clauseRenderings grouping,
     clauseRenderings having, clauseRenderings ordering, clauseRenderings limit,
     clauseRenderings insert, clauseRenderings update⟩

def Snapshot.renderNested : Snapshot → Layout → Nat → Outcome String
  | ⟨kind, table, isSub, clauses⟩, layout, depth =>
    (Rendering.lines layout depth table (tableRenderings clauses) kind).map
      (Rendering.joined layout depth isSub)

end

def Snapshot.render (s : Snapshot) (layout : Layout) : Outcome String := s.renderNested layout 0

def Fragment.render (f : Fragment) (layout : Layout) (depth : Nat) : Outcome String :=
  f.rendering.text layout depth

/-- The text of a predicate list; nothing when there are no entries. -/
def renderPredicates (entries : List Fragment) (layout : Layout) (depth : Nat) :
    Outcome (Option String) :=
  Rendering.predicates layout depth (fragmentRenderings entries)

theorem fragmentRenderings_eq_map (fs : List Fragment) :
    fragmentRenderings fs = fs.map Fragment.rendering := by
  induction fs with
  | nil => simp [fragmentRenderings]
  | cons f fs ih => simp [fragmentRenderings, ih]

theorem clauseRenderings_eq_map (c : Option (List Fragment)) :
    clauseRenderings c = (c.getD []).map Fragment.rendering := by
  cases c <;> simp [clauseRenderings, fragmentRenderings_eq_map]

theorem tableRenderings_eq_map (c : PerClause (Option (List Fragment))) :
    tableRenderings c = c.map fun fs => (fs.getD []).map Fragment.rendering := by
  cases c
  simp [tableRenderings, PerClause.map, clauseRenderings_eq_map]

end SqlBuilder
