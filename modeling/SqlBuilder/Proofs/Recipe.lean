import SqlBuilder.Proofs.Additions

/-!
# Statements made by calls

A statement is made by calls on a new one, and the statements that these calls are given are made
in the same way. What is nested in it, at any depth, are views of the statements that were given.
-/
namespace SqlBuilder

open Relation (ReflTransGen)

namespace Snapshot

variable {s : Snapshot} {k : ClauseKind} {fs : List Fragment} {v : Snapshot}

theorem holds_congr {t : Snapshot} (h : t.clauses = s.clauses) : t.Holds v ↔ s.Holds v := by
  simp only [holds_iff, clause, h]

theorem not_holds_of_empty (h : ∀ c, s.clause c = []) : ¬s.Holds v := by
  intro hv
  obtain ⟨c, f, hf, -⟩ := holds_iff.mp hv
  rw [h c] at hf
  exact List.not_mem_nil hf

theorem holds_of_setClause (h : (s.setClause k fs).Holds v) :
    s.Holds v ∨ ∃ f ∈ fs, v ∈ f.subs := by
  obtain ⟨c, f, hf, hv⟩ := holds_iff.mp h
  by_cases hc : c = k
  · subst hc
    rw [clause_setClause_self] at hf
    exact .inr ⟨f, hf, Fragment.mem_subs.mpr hv⟩
  · rw [clause_setClause_of_ne _ _ hc] at hf
    exact .inl (holds_iff.mpr ⟨c, f, hf, hv⟩)

theorem holds_of_mem {f : Fragment} (hf : f ∈ s.clause k) (hv : v ∈ f.subs) : s.Holds v :=
  holds_iff.mpr ⟨k, f, hf, Fragment.mem_subs.mp hv⟩

theorem holds_of_pushAll (h : (s.pushAll k fs).Holds v) : s.Holds v ∨ ∃ f ∈ fs, v ∈ f.subs := by
  induction fs generalizing s with
  | nil => exact .inl h
  | cons f fs ih =>
    rcases ih h with h | ⟨g, hg, hv⟩
    · rcases holds_of_setClause h with h | ⟨g, hg, hv⟩
      · exact .inl h
      rcases List.mem_append.mp hg with hg | hg
      · exact .inl (holds_of_mem hg hv)
      · obtain rfl := List.mem_singleton.mp hg
        exact .inr ⟨g, List.mem_cons_self, hv⟩
    · exact .inr ⟨g, List.mem_cons_of_mem f hg, hv⟩

theorem holds_of_setLastOp {op : BoolOp} (h : (s.setLastOp k op).Holds v) : s.Holds v := by
  rw [setLastOp] at h
  split at h
  · exact h
  rename_i f hlast
  rcases holds_of_setClause h with h | ⟨g, hg, hv⟩
  · exact h
  rcases List.mem_append.mp hg with hg | hg
  · exact holds_of_mem (List.dropLast_subset _ hg) hv
  · obtain rfl := List.mem_singleton.mp hg
    exact holds_of_mem (List.mem_of_getLast? hlast) hv

end Snapshot

namespace Statement

variable {s t : Statement} {c : Call} {v : Snapshot}

theorem holds_of_switchKind {kind : StatementKind} (h : (s.switchKind kind).state.Holds v) :
    s.state.Holds v := by
  rw [switchKind] at h
  cases hs : s.kind with
  | none =>
    rw [hs] at h
    exact (Snapshot.holds_congr rfl).mp h
  | some k =>
    rw [hs] at h
    dsimp only at h
    split at h
    · exact h
    · exact absurd h (Snapshot.not_holds_of_empty fun c => Snapshot.clause_clear s.state c)

theorem holds_of_begun (h : (s.begun c).state.Holds v) : s.state.Holds v := by
  cases hc : c.chosen? with
  | none => rwa [begun_of_none hc] at h
  | some kind =>
    rw [begun_of_some hc] at h
    exact holds_of_switchKind h

theorem holds_of_rejoined (h : (s.rejoined c).state.Holds v) : s.state.Holds v := by
  rw [rejoined] at h
  split at h
  · exact Snapshot.holds_of_setLastOp h
  · exact h

theorem engine_begun (s : Statement) (c : Call) : (s.begun c).engine = s.engine := by
  cases hc : c.chosen? with
  | none => rw [begun_of_none hc]
  | some kind => rw [begun_of_some hc, engine_switchKind]

theorem engine_rejoined (s : Statement) (c : Call) : (s.rejoined c).engine = s.engine := by
  rw [rejoined]
  split <;> rfl

/-- What a statement holds after a call, it held before or the call was given. -/
theorem Effect.holds (h : Effect s c t) (hv : t.state.Holds v) :
    s.state.Holds v ∨ ∃ u ∈ c.statements, u.nested s.engine = .ok v := by
  cases h with
  | adds _ _ hadds =>
    obtain ⟨fs, hfs, hfrom⟩ := hadds.state
    rw [hfs] at hv
    rcases Snapshot.holds_of_pushAll hv with hv | ⟨f, hf, hsub⟩
    · exact .inl (holds_of_begun (holds_of_rejoined hv))
    · rw [engine_rejoined, engine_begun] at hfrom
      exact .inr (hfrom f hf v hsub)
  | limits offset count =>
    rcases Snapshot.holds_of_setClause hv with hv | ⟨f, hf, hsub⟩
    · exact .inl hv
    · obtain rfl := List.mem_singleton.mp hf
      exact absurd hsub List.not_mem_nil
  | connects op => exact .inl (Snapshot.holds_of_setLastOp hv)
  | spares _ _ hclauses _ => exact .inl (holds_of_begun ((Snapshot.holds_congr hclauses).mp hv))

theorem holds_run {d : Dialect} {calls : List Call} (hbuilt : ∀ c ∈ calls, c.Built)
    (hok : ((new d).run calls).error = none) (hv : ((new d).run calls).state.Holds v) :
    ∃ c ∈ calls, ∃ t ∈ c.statements, t.nested d.engine = .ok v := by
  refine run_induction (P := fun calls s => s.state.Holds v → ∃ c ∈ calls,
    ∃ t ∈ c.statements, t.nested d.engine = .ok v) ?_ ?_ ?_ hbuilt hok hv
  · intro h
    exact absurd h (Snapshot.not_holds_of_empty fun c => by cases c <;> rfl)
  · intro calls s _ h
    exact absurd h (Snapshot.not_holds_of_empty fun c => Snapshot.clause_clear s.state c)
  · intro calls s c ih hdialect hbuilt hreset herror hok h
    rcases (effect_apply hbuilt hreset herror hok).holds h with h | hgiven
    · obtain ⟨c', hc', hgiven⟩ := ih h
      exact ⟨c', List.mem_append_left _ hc', hgiven⟩
    · rw [engine, hdialect] at hgiven
      exact ⟨c, List.mem_append_right _ List.mem_cons_self, hgiven⟩

theorem nested_eq_ok_iff {parent : Engine} :
    s.nested parent = .ok v ↔
      s.engine = parent ∧ s.error = none ∧ v = { s.state with isSub := true } := by
  rw [nested, toStructured, checked]
  by_cases hengine : s.engine = parent
  · rw [if_neg (not_not_intro hengine)]
    cases s.error with
    | none =>
      constructor
      · intro h
        exact ⟨hengine, rfl, (Except.ok.inj h).symm⟩
      · rintro ⟨-, -, rfl⟩
        rfl
    | some e =>
      constructor
      · intro h
        cases h
      · rintro ⟨-, hnone, -⟩
        cases hnone
  · rw [if_pos hengine]
    constructor
    · intro h
      cases h
    · intro h
      exact absurd h.1 hengine

end Statement

/-- A dialect and the calls on a new statement of it. -/
structure Recipe where
  dialect : Dialect
  calls : List Call

namespace Recipe

def statement (r : Recipe) : Statement := (Statement.new r.dialect).run r.calls

/-- One of the calls is given the statement that the other recipe makes. -/
def Uses (r r' : Recipe) : Prop := ∃ c ∈ r.calls, r'.statement ∈ c.statements

/-- The statement is made by calls that are given no finished fragment, and so are all statements
that these calls are given. -/
inductive Made : Statement → Prop where
  | run (r : Recipe) : (∀ c ∈ r.calls, c.Built) →
      (∀ c ∈ r.calls, ∀ t ∈ c.statements, Made t) → Made r.statement

/-- No call is given a finished fragment, and the statements that the calls are given are made. -/
structure Proper (r : Recipe) : Prop where
  built : ∀ c ∈ r.calls, c.Built
  made : ∀ c ∈ r.calls, ∀ t ∈ c.statements, Made t

theorem Made.exists_proper {t : Statement} (h : Made t) :
    ∃ r : Recipe, r.Proper ∧ r.statement = t := by
  obtain ⟨r, hbuilt, hmade⟩ := h
  exact ⟨r, ⟨hbuilt, hmade⟩, rfl⟩

/-- The view is that of a statement made without an error, whether nested or not. -/
structure Gives (r : Recipe) (v : Snapshot) : Prop where
  proper : r.Proper
  error : r.statement.error = none
  view : ∃ isSub, v = { r.statement.state with isSub := isSub }

variable {r : Recipe} {v w : Snapshot}

theorem engine_statement (r : Recipe) : r.statement.engine = r.dialect.engine :=
  congrArg Dialect.engine (Statement.run_outside (Statement.new r.dialect) r.calls).dialect

theorem Gives.self (h : r.Proper) (herror : r.statement.error = none) :
    r.Gives r.statement.state :=
  ⟨h, herror, r.statement.state.isSub, (Snapshot.mk_eta _).symm⟩

theorem Gives.held (h : r.Gives v) (hw : v.Holds w) :
    ∃ r' : Recipe, r.Uses r' ∧ r'.Gives w ∧ w.isSub = true ∧
      r'.dialect.engine = r.dialect.engine := by
  obtain ⟨isSub, rfl⟩ := h.view
  obtain ⟨c, hc, t, ht, hnested⟩ := Statement.holds_run h.proper.built h.error hw
  obtain ⟨hengine, herror, rfl⟩ := Statement.nested_eq_ok_iff.mp hnested
  obtain ⟨r', hproper, rfl⟩ := (h.proper.made c hc t ht).exists_proper
  exact ⟨r', ⟨c, hc, ht⟩, ⟨hproper, herror, true, rfl⟩, rfl, r'.engine_statement.symm.trans hengine⟩

/-- So every view in a statement, at any depth, comes from a recipe for the same engine. -/
theorem Gives.within (h : r.Gives v) (hw : v.Within w) :
    ∃ r' : Recipe, ReflTransGen Uses r r' ∧ r'.Gives w ∧
      r'.dialect.engine = r.dialect.engine := by
  induction hw with
  | refl => exact ⟨r, .refl, h, rfl⟩
  | tail _ hholds ih =>
    obtain ⟨r₁, hused, hgives, hengine⟩ := ih
    obtain ⟨r₂, huses, hgives₂, -, hengine₂⟩ := hgives.held hholds
    exact ⟨r₂, hused.tail huses, hgives₂, hengine₂.trans hengine⟩

end Recipe

end SqlBuilder
