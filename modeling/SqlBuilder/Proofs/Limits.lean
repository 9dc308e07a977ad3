import SqlBuilder.Proofs.Recipe

/-!
# Limits

A statement has the limit that it was given last, unless a reset or a change of kind has taken it
away since. For PostgreSQL a statement that changes rows has none: each of the calls that could
bring the two together refuses to.
-/
namespace SqlBuilder

open Relation (ReflTransGen)

def Call.limit? : Call → Option (Nat × Nat)
  | .limit offset count => some (offset, count)
  | _ => none

/-- The kind that calls come to, and those of them since the last reset or the last change of one
kind to another. -/
structure Stage where
  kind : Option StatementKind
  calls : List Call

namespace Stage

def next (g : Stage) : Call → Stage
  | .reset => ⟨none, []⟩
  | c => match c.chosen? with
    | none => ⟨g.kind, g.calls ++ [c]⟩
    | some kind =>
      ⟨some kind, if g.kind = none ∨ g.kind = some kind then g.calls ++ [c] else [c]⟩

def of (calls : List Call) : Stage := calls.foldl next ⟨none, []⟩

def limit? (g : Stage) : Option (Nat × Nat) := (g.calls.filterMap Call.limit?).getLast?

variable {g : Stage} {c : Call}

theorem next_of_none (hreset : c ≠ .reset) (hc : c.chosen? = none) :
    g.next c = ⟨g.kind, g.calls ++ [c]⟩ := by
  cases c with
  | reset => exact absurd rfl hreset
  | source | select | selectJson | aggregate | insert | update | delete => cases hc
  | _ => rfl

theorem next_of_some {kind : StatementKind} (hc : c.chosen? = some kind) :
    g.next c =
      ⟨some kind, if g.kind = none ∨ g.kind = some kind then g.calls ++ [c] else [c]⟩ := by
  cases c <;> cases hc <;> rfl

theorem limit?_append_of_none (kind : Option StatementKind) (calls : List Call)
    (hc : c.limit? = none) : limit? ⟨kind, calls ++ [c]⟩ = limit? ⟨kind, calls⟩ := by
  rw [limit?, List.filterMap_append, List.filterMap_cons_none hc, List.filterMap_nil,
    List.append_nil, limit?]

theorem limit?_append_limit (kind : Option StatementKind) (calls : List Call)
    (offset count : Nat) :
    limit? ⟨kind, calls ++ [.limit offset count]⟩ = some (offset, count) := by
  rw [limit?, List.filterMap_append]
  exact List.getLast?_concat

end Stage

def Engine.limitClause (e : Engine) (limit : Option (Nat × Nat)) : List Fragment :=
  (limit.map fun (offset, count) => Fragment.ofText (e.limit offset count)).toList

namespace Statement

variable {s t : Statement} {c : Call} {g : Stage} {kind : StatementKind}

/-- The statement has the kind and the limit of its stage. -/
structure Staged (g : Stage) (s : Statement) : Prop where
  kind : s.kind = g.kind
  limit : s.state.clause .limit = s.engine.limitClause g.limit?
  predicate : s.lastPredicate ≠ some .limit
  allowed : s.LimitAllowed

theorem limitAllowed_of_chosen (hc : c.chosen? = some kind) (herror : s.error = none)
    (hok : (s.apply c).error = none) (hkind : (s.apply c).kind = some kind) :
    (s.apply c).LimitAllowed := by
  cases c with
  | update row =>
    obtain ⟨t, ht, h⟩ := exists_of_attemptAs herror hok
    split at ht
    · cases ht
    obtain ⟨pairs, -, ht⟩ := Outcome.exists_of_bind_eq_ok ht
    obtain ⟨rfl, hallowed⟩ := checkLimit_eq_ok_iff.mp ht
    rw [apply, update, h]
    exact hallowed
  | delete =>
    obtain ⟨t, ht, h⟩ := exists_of_attemptAs herror hok
    obtain ⟨rfl, hallowed⟩ := checkLimit_eq_ok_iff.mp ht
    rw [apply, delete, h]
    exact hallowed
  | source | select | selectJson | aggregate | insert =>
    cases hc
    intro _ hchanges
    rw [hkind] at hchanges
    simp at hchanges
  | _ => cases hc

namespace Staged

theorem begun (h : Staged g s) (hreset : c ≠ .reset) (hlimit : c.limit? = none) :
    (s.begun c).kind = (g.next c).kind ∧
      (s.begun c).state.clause .limit = s.engine.limitClause (g.next c).limit? ∧
      (s.begun c).lastPredicate ≠ some .limit := by
  have hkept : s.state.clause .limit =
      s.engine.limitClause (Stage.limit? ⟨g.kind, g.calls ++ [c]⟩) := by
    rw [Stage.limit?_append_of_none _ _ hlimit]
    exact h.limit
  cases hc : c.chosen? with
  | none =>
    rw [begun_of_none hc, Stage.next_of_none hreset hc]
    exact ⟨h.kind, hkept, h.predicate⟩
  | some kind =>
    rw [begun_of_some hc, Stage.next_of_some hc, ← h.kind]
    refine ⟨kind_switchKind s kind, ?_⟩
    cases hs : s.kind with
    | none =>
      rw [switchKind, hs, if_pos (.inl rfl)]
      exact ⟨hkept, h.predicate⟩
    | some k =>
      by_cases hk : k = kind
      · rw [switchKind_of_kind (hk ▸ hs), if_pos (.inr (congrArg some hk))]
        exact ⟨hkept, h.predicate⟩
      · have hother : ¬(some k = none ∨ some k = some kind) := by simp [hk]
        have hnone : Stage.limit? ⟨some kind, [c]⟩ = none := by
          rw [Stage.limit?, List.filterMap_cons_none hlimit]
          rfl
        rw [switchKind, hs, if_neg hother, hnone]
        simp only [hk, if_false]
        exact ⟨Snapshot.clause_clear s.state .limit, (Option.some_ne_none _).symm⟩

theorem apply (h : Staged g s) (hbuilt : c.Built) (hreset : c ≠ .reset) (herror : s.error = none)
    (hok : (s.apply c).error = none) : Staged (g.next c) (s.apply c) := by
  cases hlimit : c.limit? with
  | some window =>
    cases c with
    | limit offset count =>
      obtain ⟨t, ht, happly⟩ := exists_of_attempt herror hok
      obtain ⟨rfl, hallowed⟩ := checkLimit_eq_ok_iff.mp ht
      rw [Statement.apply, Statement.limit, happly]
      refine ⟨h.kind, ?_, h.predicate, hallowed⟩
      rw [Stage.next_of_none hreset rfl, Stage.limit?_append_limit]
      exact Snapshot.clause_setClause_self s.state .limit _
    | _ => cases hlimit
  | none =>
    have hclause : c.clause? ≠ some .limit := by
      intro hc
      cases c with
      | limit => cases hlimit
      | pushClause => exact hbuilt.elim
      | _ => cases hc
    have hleaves := (effect_apply hbuilt hreset herror hok).leaves hclause (by decide) h.predicate
    have hengine : (s.apply c).engine = s.engine :=
      congrArg Dialect.engine (dialect_edits (edits_apply s hbuilt))
    obtain ⟨hkind, hbegun, hpredicate⟩ := h.begun hreset hlimit
    refine ⟨hleaves.kind.trans hkind, ?_, hleaves.predicate hpredicate, ?_⟩
    · rw [hleaves.clause, hbegun, hengine]
    · cases hc : c.chosen? with
      | none =>
        rw [begun_of_none hc] at hleaves
        rw [LimitAllowed, hengine, hleaves.kind, hleaves.clause]
        exact h.allowed
      | some kind =>
        rw [begun_of_some hc] at hleaves
        exact limitAllowed_of_chosen hc herror hok (hleaves.kind.trans (kind_switchKind s kind))

theorem of_empty (hkind : s.kind = none) (hclause : s.state.clause .limit = [])
    (hpredicate : s.lastPredicate = none) : Staged ⟨none, []⟩ s :=
  ⟨hkind, hclause, hpredicate ▸ (Option.some_ne_none _).symm, fun _ _ => hclause⟩

/-- A run without an error goes through the stages that its calls come to. -/
theorem run (d : Dialect) {calls : List Call} (hbuilt : ∀ c ∈ calls, c.Built)
    (hok : ((new d).run calls).error = none) : Staged (Stage.of calls) ((new d).run calls) := by
  refine run_induction (P := fun calls s => Staged (Stage.of calls) s) ?_ ?_ ?_ hbuilt hok
  · exact of_empty rfl rfl rfl
  · intro calls s _
    rw [Stage.of, List.foldl_append]
    exact of_empty rfl (Snapshot.clause_clear s.state .limit) rfl
  · intro calls s c h _ hbuilt hreset herror hok
    rw [Stage.of, List.foldl_append]
    exact h.apply hbuilt hreset herror hok

end Staged

end Statement

namespace Recipe

variable {r : Recipe} {v : Snapshot}

/-- The view has the latest limit of its stage, and for PostgreSQL none that changes rows. -/
structure Limited (r : Recipe) (v : Snapshot) : Prop where
  latest : v.clause .limit = r.dialect.engine.limitClause (Stage.of r.calls).limit?
  unlimited : r.dialect.engine = .postgres → v.kind = some .update ∨ v.kind = some .delete →
    v.clause .limit = []

theorem Gives.limited (h : r.Gives v) : r.Limited v := by
  have hstaged := Statement.Staged.run r.dialect h.proper.built h.error
  obtain ⟨isSub, rfl⟩ := h.view
  exact ⟨r.engine_statement ▸ hstaged.limit,
    fun hpostgres => hstaged.allowed (r.engine_statement.trans hpostgres)⟩

/-- A statement made without an error has the limit that its calls gave it last, since the last
reset or change of kind; for PostgreSQL it has none where it updates or deletes. The same holds of
all that is nested in it at any depth, with the calls that made it there. -/
theorem limits_within (h : r.Proper) (herror : r.statement.error = none) :
    r.Limited r.statement.state ∧
    ∀ v, r.statement.state.Within v → ∃ r' : Recipe, ReflTransGen Uses r r' ∧ r'.Gives v ∧
      r'.dialect.engine = r.dialect.engine ∧ r'.Limited v := by
  have hself := Gives.self h herror
  refine ⟨hself.limited, fun v hv => ?_⟩
  obtain ⟨r', hused, hgives, hengine⟩ := hself.within hv
  exact ⟨r', hused, hgives, hengine, hgives.limited⟩

def authors : Recipe :=
  ⟨.postgres, [.table "post", .limit 0 1, .select (.text "author"), .limit 0 10]⟩

def removal : Recipe :=
  ⟨.postgres, [.table "author", .limit 0 5, .select (.text "name"), .delete,
    .filterInSub "id" authors.statement]⟩

theorem removal_limited :
    authors.statement.state.clause .limit = [.ofText "LIMIT 10 OFFSET 0"] ∧
    removal.statement.kind = some .delete ∧ removal.statement.state.clause .limit = [] ∧
    ∃ v, removal.statement.state.Holds v ∧
      ∃ r' : Recipe, ReflTransGen Uses removal r' ∧ r'.Gives v ∧ r'.Limited v := by
  have hauthors : authors.Proper :=
    ⟨by simp [authors, Call.Built], by simp [authors, Call.statements, Field.statements]⟩
  have hremoval : removal.Proper := by
    refine ⟨by simp [removal, Call.Built], ?_⟩
    have hmade : Made authors.statement := .run authors hauthors.built hauthors.made
    simpa [removal, Call.statements, Field.statements] using hmade
  have hnone : authors.statement.error = none := Option.isNone_iff_eq_none.mp (by decide +kernel)
  have hnone' : removal.statement.error = none := Option.isNone_iff_eq_none.mp (by decide +kernel)
  have hnested : removal.statement.state.subsIn [.filter] ≠ [] := by decide +kernel
  obtain ⟨v, hv⟩ := List.exists_mem_of_ne_nil _ hnested
  have hholds : removal.statement.state.Holds v := ⟨.filter, hv⟩
  obtain ⟨hlimited, -⟩ := limits_within hauthors hnone
  obtain ⟨hlimited', hwithin⟩ := limits_within hremoval hnone'
  obtain ⟨r', hused, hgives, -, hv⟩ := hwithin v (.single hholds)
  have htext : Engine.postgres.limit 0 10 = "LIMIT 10 OFFSET 0" := by decide +kernel
  refine ⟨hlimited.latest.trans ?_, by decide +kernel, hlimited'.latest, v, hholds, r', hused,
    hgives, hv⟩
  rw [← htext]
  rfl

end Recipe

end SqlBuilder
