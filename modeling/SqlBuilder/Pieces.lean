import SqlBuilder.Render

/-!
# Pieces of a rendered statement

A statement rendered before its line breaks are chosen: the same clauses in the same order, with
marks where a layout decides what stands between two clauses or inside a parenthesis.
-/
namespace SqlBuilder

abbrev Pieces := List Piece

/-- A fragment with its nested statements rendered. -/
structure Entry where
  body : Outcome Pieces
  op : BoolOp

namespace Entry

def commaList : List Entry → Outcome Pieces
  | [] => .ok []
  | [x] => x.body
  | x :: xs => do
    let first ← x.body
    return first ++ .text ", " :: (← commaList xs)

/-- The entries of a predicate list. Where the operator changes, the rest goes into
parentheses of its own, unless it is only one entry. -/
def predicateTail : List Entry → Outcome Pieces
  | [] => .ok []
  | [x] => x.body
  | x :: y :: rest => do
    let first ← x.body
    let tail ← predicateTail (y :: rest)
    let op := Piece.text (" " ++ x.op.keyword ++ " ")
    if x.op ≠ y.op && !rest.isEmpty then
      return first ++ op :: .text "(" :: tail ++ [.text ")"]
    else return first ++ op :: tail

def predicates (entries : List Entry) : Outcome (Option Pieces) :=
  if entries.isEmpty then .ok none
  else (predicateTail entries).map fun tail => some (.text "(" :: tail ++ [.text ")"])

def bodies (entries : List Entry) : Outcome (List Pieces) := entries.mapM Entry.body

end Entry

/-- The rendered lines of a statement, with its clauses still apart. -/
abbrev Lines := List Pieces

namespace Lines

def keywordList (keyword : String) (entries : List Entry) : Outcome Lines :=
  if entries.isEmpty then .ok []
  else (Entry.commaList entries).map fun list => [.text (keyword ++ " ") :: list]

def keywordPredicates (keyword : String) (entries : List Entry) : Outcome Lines :=
  (Entry.predicates entries).map fun
    | none => []
    | some list => [.text (keyword ++ " ") :: list]

def tail (c : PerClause (List Entry)) : Outcome Lines := do
  let ordering ← keywordList "ORDER BY" c.ordering
  return ordering ++ (← Entry.bodies c.limit)

def select (table : Option String) (c : PerClause (List Entry)) : Outcome Lines := do
  let columns ← Entry.commaList (c.select ++ c.aggregate)
  let columns := if c.select.isEmpty && c.aggregate.isEmpty then [.text "*"] else columns
  let source ← if c.source.isEmpty then (requireTable table).map fun name => [.text name]
    else Entry.commaList c.source
  let joins ← Entry.bodies c.join
  let filter ← keywordPredicates "WHERE" c.filter
  let grouping ← keywordList "GROUP BY" c.grouping
  let having ← keywordPredicates "HAVING" c.having
  return [.text "SELECT " :: columns, .text "FROM " :: source] ++ joins ++ filter ++ grouping
    ++ having ++ (← tail c)

def insert (table : Option String) (c : PerClause (List Entry)) : Outcome Lines := do
  let name ← requireTable table
  match c.foreign? with
  | some k => .error (.shape (.clauseOnInsert k))
  | none => match c.insert with
    | columns :: row :: rows => do
      let rows ← Entry.bodies (row :: rows)
      let columns ← columns.body
      let tuples := rows.map fun r => .text "(" :: r ++ [.text ")"]
      return [.text ("INSERT INTO " ++ name ++ " (") :: columns ++ [.text ")"],
        .text "VALUES " :: [Piece.text ", "].intercalate tuples]
    | _ => .error (.shape .insertWithoutRow)

def update (table : Option String) (c : PerClause (List Entry)) : Outcome Lines := do
  let name ← requireTable table
  if c.update.isEmpty then .error (.shape .updateWithoutAssignment)
  else
    let assignments ← Entry.commaList c.update
    let filter ← keywordPredicates "WHERE" c.filter
    return [[.text ("UPDATE " ++ name)], .text "SET " :: assignments] ++ filter ++ (← tail c)

def delete (table : Option String) (c : PerClause (List Entry)) : Outcome Lines := do
  let name ← requireTable table
  let filter ← keywordPredicates "WHERE" c.filter
  return [.text ("DELETE FROM " ++ name)] :: filter ++ (← tail c)

/-- A statement of no kind is a SELECT. -/
def ofKind (kind : Option StatementKind) (table : Option String)
    (c : PerClause (List Entry)) : Outcome Lines :=
  match kind.getD .select with
  | .select => select table c
  | .insert => insert table c
  | .update => update table c
  | .delete => delete table c

/-- The lines at one depth. A statement marked as nested stands on lines of its own. -/
def join (depth : Nat) (isSub : Bool) (lines : Lines) : Pieces :=
  let body := [Piece.clause depth].intercalate lines
  if isSub && 0 < depth then .edge depth :: body ++ [.edge (depth - 1)] else body

end Lines

mutual

def Part.pieces (depth : Nat) : Part → Outcome Pieces
  | .sql text => .ok [.text text]
  | .sub s => do return .text "(" :: (← s.pieces (depth + 1)) ++ [.text ")"]

def partsPieces (depth : Nat) : List Part → Outcome Pieces
  | [] => .ok []
  | p :: ps => do
    let first ← p.pieces depth
    return first ++ (← partsPieces depth ps)

def Fragment.entry (depth : Nat) : Fragment → Entry
  | ⟨parts, op⟩ => ⟨partsPieces depth parts, op.getD .and⟩

def fragmentEntries (depth : Nat) : List Fragment → List Entry
  | [] => []
  | f :: fs => f.entry depth :: fragmentEntries depth fs

def clauseEntries (depth : Nat) : Option (List Fragment) → List Entry
  | none => []
  | some fs => fragmentEntries depth fs

def tableEntries (depth : Nat) :
    PerClause (Option (List Fragment)) → PerClause (List Entry)
  | ⟨select, aggregate, source, join, filter, grouping, having, ordering, limit, insert,
      update⟩ =>
    ⟨clauseEntries depth select, clauseEntries depth aggregate, clauseEntries depth source,
     clauseEntries depth join, clauseEntries depth filter, clauseEntries depth grouping,
     clauseEntries depth having, clauseEntries depth ordering, clauseEntries depth limit,
     clauseEntries depth insert, clauseEntries depth update⟩

def Snapshot.pieces (depth : Nat) : Snapshot → Outcome Pieces
  | ⟨kind, table, isSub, clauses⟩ =>
    (Lines.ofKind kind table (tableEntries depth clauses)).map (Lines.join depth isSub)

end

namespace Fragment

def pieces (f : Fragment) (depth : Nat) : Outcome Pieces := (f.entry depth).body

end Fragment

theorem fragmentEntries_eq_map (depth : Nat) (fs : List Fragment) :
    fragmentEntries depth fs = fs.map (Fragment.entry depth) := by
  induction fs with
  | nil => simp [fragmentEntries]
  | cons f fs ih => simp [fragmentEntries, ih]

theorem clauseEntries_eq_map (depth : Nat) (c : Option (List Fragment)) :
    clauseEntries depth c = (c.getD []).map (Fragment.entry depth) := by
  cases c <;> simp [clauseEntries, fragmentEntries_eq_map]

theorem tableEntries_eq_map (depth : Nat) (c : PerClause (Option (List Fragment))) :
    tableEntries depth c = c.map fun fs => (fs.getD []).map (Fragment.entry depth) := by
  cases c
  simp [tableEntries, PerClause.map, clauseEntries_eq_map]

end SqlBuilder
