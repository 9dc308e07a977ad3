import SqlBuilder.Statement.Call
import SqlBuilder.Proofs.Payload.Row

/-!
# Calls with other payloads

Every builder call keeps statements alike: the steps it takes depend on the shape of its
arguments, and what it adds to a clause is alike.
-/
namespace SqlBuilder.Payload

open Lexer
open List (Forall₂)

variable {R : List Char → List Char → Prop} {e : Engine}

namespace SnapshotAlike

variable {a b : Snapshot}

theorem empty : SnapshotAlike R e .empty .empty where
  kind := rfl
  table := rfl
  isSub := rfl
  closed := by intro name h; cases h
  clause c := by cases c <;> exact .nil

theorem setClause (h : SnapshotAlike R e a b) (c : ClauseKind) {fs gs : List Fragment}
    (hfg : Forall₂ (FragmentAlike R e) fs gs) :
    SnapshotAlike R e (a.setClause c fs) (b.setClause c gs) where
  kind := h.kind
  table := h.table
  isSub := h.isSub
  closed := h.closed
  clause c' := by
    by_cases hc : c' = c
    · subst hc
      rw [Snapshot.clause_setClause_self, Snapshot.clause_setClause_self]
      exact hfg
    · rw [Snapshot.clause_setClause_of_ne _ _ hc, Snapshot.clause_setClause_of_ne _ _ hc]
      exact h.clause c'

theorem push (h : SnapshotAlike R e a b) (c : ClauseKind) {f g : Fragment}
    (hfg : FragmentAlike R e f g) : SnapshotAlike R e (a.push c f) (b.push c g) :=
  h.setClause c (List.rel_append (h.clause c) (.cons hfg .nil))

theorem pushAll (h : SnapshotAlike R e a b) (c : ClauseKind) {fs gs : List Fragment}
    (hfg : Forall₂ (FragmentAlike R e) fs gs) :
    SnapshotAlike R e (a.pushAll c fs) (b.pushAll c gs) :=
  List.rel_foldl (fun _ _ h _ _ hfg => h.push c hfg) h hfg

theorem clear (h : SnapshotAlike R e a b) : SnapshotAlike R e a.clear b.clear where
  kind := h.kind
  table := h.table
  isSub := h.isSub
  closed := h.closed
  clause c := by
    rw [Snapshot.clause_clear, Snapshot.clause_clear]
    exact .nil

theorem withKind (h : SnapshotAlike R e a b) (kind : Option StatementKind) :
    SnapshotAlike R e { a with kind := kind } { b with kind := kind } :=
  ⟨rfl, h.table, h.isSub, h.closed, h.clause⟩

end SnapshotAlike

theorem SnapshotAlike.setLastOp {a b : Snapshot} (h : SnapshotAlike R e a b) (c : ClauseKind)
    (op : BoolOp) : SnapshotAlike R e (a.setLastOp c op) (b.setLastOp c op) := by
  simp only [Snapshot.setLastOp]
  rcases Outcome.concat_of_forall₂ (h.clause c) with ⟨ha, hb⟩ | ⟨fs, f, gs, g, ha, hb, hs, hfg⟩
  · rw [ha, hb]
    exact h
  · rw [ha, hb, List.getLast?_concat, List.getLast?_concat, List.dropLast_concat,
      List.dropLast_concat]
    exact h.setClause c (List.rel_append hs (.cons (hfg.withOp op) .nil))

namespace StatementAlike

variable {s t : Statement}

theorem new (d : Dialect) : StatementAlike R (.new d) (.new d) :=
  ⟨rfl, rfl, rfl, rfl, rfl, rfl, .empty⟩

theorem push (h : StatementAlike R s t) (c : ClauseKind) {f g : Fragment}
    (hfg : FragmentAlike R s.engine f g) : StatementAlike R (s.push c f) (t.push c g) :=
  { h with state := h.state.push c hfg }

theorem pushAll (h : StatementAlike R s t) (c : ClauseKind) {fs gs : List Fragment}
    (hfg : Forall₂ (FragmentAlike R s.engine) fs gs) :
    StatementAlike R (s.pushAll c fs) (t.pushAll c gs) :=
  { h with state := h.state.pushAll c hfg }

theorem setLastOp (h : StatementAlike R s t) (c : ClauseKind) (op : BoolOp) :
    StatementAlike R (s.setLastOp c op) (t.setLastOp c op) :=
  { h with state := h.state.setLastOp c op }

theorem pushPredicate (h : StatementAlike R s t) (c : ClauseKind) {f g : Fragment}
    (hfg : FragmentAlike R s.engine f g) (op : BoolOp) :
    StatementAlike R (s.pushPredicate c f op) (t.pushPredicate c g op) :=
  { h with
    lastPredicate := rfl
    state := h.state.push c (hfg.withOp op) }

theorem switchKind (h : StatementAlike R s t) (kind : StatementKind) :
    StatementAlike R (s.switchKind kind) (t.switchKind kind) := by
  have hkind : s.kind = t.kind := h.state.kind
  simp only [Statement.switchKind]
  rw [← hkind]
  cases s.kind with
  | none => exact { h with state := h.state.withKind _ }
  | some k =>
    by_cases hk : k = kind
    · simp only [hk, if_true]
      exact h
    · simp only [hk, if_false]
      exact { h with
        insertColumns := rfl
        lastPredicate := rfl
        state := h.state.clear.withKind _ }

theorem simulation (R : List Char → List Char → Prop) :
    Statement.Simulation (StatementAlike R) where
  error h := h.error
  fail h hk := { h with error := congrArg some hk }
  switch kind _ _ h := h.switchKind kind

theorem attempt (h : StatementAlike R s t) {f g : Statement → Outcome Statement}
    (hstep : Outcome.Alike (StatementAlike R) (f s) (g t)) :
    StatementAlike R (s.attempt f) (t.attempt g) :=
  (simulation R).attempt h hstep

theorem attemptAs (h : StatementAlike R s t) (kind : StatementKind)
    {f g : Statement → Outcome Statement}
    (hstep : ∀ s t, StatementAlike R s t → Outcome.Alike (StatementAlike R) (f s) (g t)) :
    StatementAlike R (s.attemptAs kind f) (t.attemptAs kind g) :=
  (simulation R).attemptAs h kind hstep

end StatementAlike

end SqlBuilder.Payload
