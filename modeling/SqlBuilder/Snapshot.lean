import SqlBuilder.PerClause

/-!
# Snapshots

The structured view of a statement: fragments of finished text per clause, with the
nested statements kept as snapshots of their own.
-/
namespace SqlBuilder

mutual

inductive Part where
  | sql (text : String)
  | sub (statement : Snapshot)

/-- A piece of a clause; `op` joins it to the fragment after it. -/
structure Fragment where
  parts : List Part
  op : Option BoolOp

/-- A clause that was never written is absent, which differs from an empty one. -/
structure Snapshot where
  kind : Option StatementKind
  table : Option String
  isSub : Bool
  clauses : PerClause (Option (List Fragment))

end

namespace Fragment

def ofText (text : String) : Fragment := ⟨[.sql text], none⟩

def withOp (f : Fragment) (op : BoolOp) : Fragment := { f with op := some op }

/-- An operator that was never set counts as AND. -/
def opOrAnd (f : Fragment) : BoolOp := f.op.getD .and

def after (f : Fragment) (text : String) : Fragment := { f with parts := .sql text :: f.parts }

def before (f : Fragment) (text : String) : Fragment :=
  { f with parts := f.parts ++ [.sql text] }

def join (sep : String) (f g : Fragment) : Fragment :=
  { f with parts := f.parts ++ .sql sep :: g.parts }

def hasSub (f : Fragment) : Bool :=
  f.parts.any fun
    | .sub _ => true
    | .sql _ => false

end Fragment

namespace Snapshot

def empty : Snapshot := ⟨none, none, false, .ofFn fun _ => none⟩

def clause (s : Snapshot) (c : ClauseKind) : List Fragment := (s.clauses.get c).getD []

def setClause (s : Snapshot) (c : ClauseKind) (fragments : List Fragment) : Snapshot :=
  { s with clauses := s.clauses.set c (some fragments) }

def push (s : Snapshot) (c : ClauseKind) (f : Fragment) : Snapshot :=
  s.setClause c (s.clause c ++ [f])

def pushAll (s : Snapshot) (c : ClauseKind) (fragments : List Fragment) : Snapshot :=
  fragments.foldl (fun s f => s.push c f) s

/-- Sets the operator of the newest fragment of a clause, if there is one. -/
def setLastOp (s : Snapshot) (c : ClauseKind) (op : BoolOp) : Snapshot :=
  match (s.clause c).getLast? with
  | none => s
  | some f => s.setClause c ((s.clause c).dropLast ++ [f.withOp op])

def clear (s : Snapshot) : Snapshot := { s with clauses := .ofFn fun _ => none }

@[simp] theorem clause_setClause_self (s : Snapshot) (c : ClauseKind) (fs : List Fragment) :
    (s.setClause c fs).clause c = fs := by
  simp [clause, setClause]

theorem clause_setClause_of_ne (s : Snapshot) {c c' : ClauseKind} (fs : List Fragment)
    (h : c' ≠ c) : (s.setClause c fs).clause c' = s.clause c' := by
  simp [clause, setClause, PerClause.get_set_of_ne _ _ h]

theorem clause_setLastOp_of_ne (s : Snapshot) {c c' : ClauseKind} (op : BoolOp) (h : c' ≠ c) :
    (s.setLastOp c op).clause c' = s.clause c' := by
  rw [setLastOp]
  split
  · rfl
  · exact clause_setClause_of_ne _ _ h

theorem clause_pushAll_of_ne (s : Snapshot) {c c' : ClauseKind} (fs : List Fragment)
    (h : c' ≠ c) : (s.pushAll c fs).clause c' = s.clause c' := by
  rw [pushAll]
  induction fs generalizing s with
  | nil => rfl
  | cons f fs ih => exact (ih _).trans (clause_setClause_of_ne _ _ h)

@[simp] theorem clause_push_self (s : Snapshot) (c : ClauseKind) (f : Fragment) :
    (s.push c f).clause c = s.clause c ++ [f] := by
  simp [push]

theorem clause_pushAll_self (s : Snapshot) (c : ClauseKind) (fs : List Fragment) :
    (s.pushAll c fs).clause c = s.clause c ++ fs := by
  rw [pushAll]
  induction fs generalizing s with
  | nil => exact (List.append_nil _).symm
  | cons f fs ih =>
    rw [List.foldl_cons, ih, clause_push_self, List.append_assoc, List.singleton_append]

theorem kind_pushAll (s : Snapshot) (c : ClauseKind) (fs : List Fragment) :
    (s.pushAll c fs).kind = s.kind := by
  rw [pushAll]
  induction fs generalizing s with
  | nil => rfl
  | cons f fs ih => exact ih (s.push c f)

end Snapshot

end SqlBuilder
