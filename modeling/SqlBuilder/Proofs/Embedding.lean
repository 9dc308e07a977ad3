import SqlBuilder.Proofs.Recipe

/-!
# Statements inside statements

A call takes in a statement only if that is for the same engine and holds no error. Any other one
leaves an error behind and nothing else. So what stands in a statement without an error, at any
depth, was built without an error for the same engine.
-/
namespace SqlBuilder

open Relation (TransGen)

namespace Statement

variable {t : Statement}

/-- The statement can stand inside one for the engine. -/
structure Fit (e : Engine) (t : Statement) : Prop where
  engine : t.engine = e
  error : t.error = none

theorem fit_of_nested {e : Engine} {v : Snapshot} (h : t.nested e = .ok v) : t.Fit e := by
  obtain ⟨hengine, herror, -⟩ := nested_eq_ok_iff.mp h
  exact ⟨hengine, herror⟩

end Statement

namespace Field

variable {e : Engine} {field : Field} {t : Statement}

theorem fit_of_fragments {fs : List Fragment} (h : field.fragments e = .ok fs)
    (ht : t ∈ field.statements) : t.Fit e := by
  cases field with
  | statement s =>
    obtain rfl := List.mem_singleton.mp ht
    obtain ⟨f, hf, -⟩ := Outcome.exists_of_map_eq_ok h
    obtain ⟨view, hview, -⟩ := Outcome.exists_of_bind_eq_ok hf
    exact Statement.fit_of_nested hview
  | _ => cases ht

theorem fit_of_bind {α : Type} {g : List Fragment → Outcome α} {x : α}
    (h : (field.fragments e >>= g) = .ok x) (ht : t ∈ field.statements) : t.Fit e := by
  obtain ⟨fs, hfs, -⟩ := Outcome.exists_of_bind_eq_ok h
  exact fit_of_fragments hfs ht

end Field

namespace Statement

variable {s t : Statement} {c : Call} {f : Statement → Outcome Statement}

/-- The call comes to one step, which succeeds only if the given statement is fit. -/
structure Takes (c : Call) (t : Statement) (f : Statement → Outcome Statement) : Prop where
  clean : ∀ s : Statement, s.error = none → s.apply c = (s.begun c).attempt f
  failed : ∀ (s : Statement) (e : SqlError), s.error = some e → s.apply c = s
  fit : ∀ s u : Statement, f s = .ok u → t.Fit s.engine

theorem Takes.of_attempt (hc : c.chosen? = none) (h : ∀ s : Statement, s.apply c = s.attempt f)
    (hfit : ∀ s u : Statement, f s = .ok u → t.Fit s.engine) : Takes c t f := by
  refine ⟨fun s _ => ?_, fun s e he => ?_, hfit⟩
  · rw [begun_of_none hc, h]
  · rw [h, attempt_of_error he]

theorem Takes.of_attemptAs {kind : StatementKind} (hc : c.chosen? = some kind)
    (h : ∀ s : Statement, s.apply c = s.attemptAs kind f)
    (hfit : ∀ s u : Statement, f s = .ok u → t.Fit s.engine) : Takes c t f := by
  refine ⟨fun s hs => ?_, fun s e he => ?_, hfit⟩
  · rw [begun_of_some hc, h, attemptAs_of_none hs]
  · rw [h, attemptAs, he]

theorem exists_takes (ht : t ∈ c.statements) : ∃ f, Takes c t f := by
  cases c with
  | source field | select field =>
    refine ⟨_, .of_attemptAs rfl (fun _ => rfl) fun s u hu => ?_⟩
    obtain ⟨-, -, hu⟩ := Outcome.exists_of_bind_eq_ok hu
    exact Field.fit_of_bind hu ht
  | aggregate function field aliasName =>
    refine ⟨_, .of_attemptAs rfl (fun _ => rfl) fun s u hu => ?_⟩
    split at hu
    · cases hu
    exact Field.fit_of_bind hu ht
  | join kind field on params =>
    refine ⟨_, .of_attempt rfl (fun _ => rfl) fun s u hu => ?_⟩
    obtain ⟨-, -, hu⟩ := Outcome.exists_of_bind_eq_ok hu
    obtain ⟨f, hf, -⟩ := Outcome.exists_of_bind_eq_ok hu
    exact Field.fit_of_bind hf ht
  | filterInSub field sub =>
    refine ⟨_, .of_attempt rfl (fun _ => rfl) fun s u hu => ?_⟩
    obtain ⟨name, -, hu⟩ := Outcome.exists_of_bind_eq_ok hu
    obtain ⟨view, hview, -⟩ := Outcome.exists_of_bind_eq_ok hu
    obtain rfl := List.mem_singleton.mp ht
    exact fit_of_nested hview
  | search field term =>
    refine ⟨_, .of_attempt rfl (fun _ => rfl) fun s u hu => ?_⟩
    split at hu
    · cases hu
    exact Field.fit_of_bind hu ht
  | groupBy field =>
    refine ⟨_, .of_attempt rfl (fun _ => rfl) fun s u hu => ?_⟩
    exact Field.fit_of_bind hu ht
  | orderBy field direction =>
    refine ⟨_, .of_attempt rfl (fun _ => rfl) fun s u hu => ?_⟩
    split at hu
    · cases hu
    exact Field.fit_of_bind hu ht
  | _ => cases ht

theorem error_begun (s : Statement) (c : Call) : (s.begun c).error = s.error := by
  cases hc : c.chosen? with
  | none => rw [begun_of_none hc]
  | some kind => rw [begun_of_some hc, error_switchKind]

/-- A call that is given an unfit statement leaves an error and takes nothing in. -/
theorem refused_of_not_fit (ht : t ∈ c.statements) (hunfit : ¬t.Fit s.engine) :
    (s.apply c).error ≠ none ∧ ∀ v, (s.apply c).state.Holds v → s.state.Holds v := by
  obtain ⟨f, htakes⟩ := exists_takes ht
  cases herror : s.error with
  | some e =>
    rw [htakes.failed s e herror, herror]
    exact ⟨Option.some_ne_none e, fun v hv => hv⟩
  | none =>
    rw [htakes.clean s herror]
    rcases attempt_cases (s.begun c) f with ⟨⟨e, he⟩, -⟩ | ⟨-, u, hstep, -⟩ | ⟨-, e, -, h⟩
    · rw [error_begun, herror] at he
      cases he
    · have hfit := htakes.fit _ _ hstep
      rw [engine_begun] at hfit
      exact absurd hfit hunfit
    · rw [h]
      exact ⟨Option.some_ne_none e, fun v hv => holds_of_begun hv⟩

/-- Without an error, all that the calls were given since a reset was fit. -/
theorem fit_of_run {before after : List Call} (hok : (s.run (before ++ c :: after)).error = none)
    (hafter : .reset ∉ after) (ht : t ∈ c.statements) : t.Fit s.engine := by
  have hengine : (s.run before).engine = s.engine :=
    congrArg Dialect.engine (run_outside s before).dialect
  rw [run_append, run_cons] at hok
  rw [← hengine]
  exact not_not.mp fun hunfit => (refused_of_not_fit ht hunfit).1 (error_of_run hafter hok)

end Statement

namespace Recipe

variable {r : Recipe} {v : Snapshot}

theorem Gives.eq_nested (h : r.Gives v) (hsub : v.isSub = true) :
    v = { r.statement.state with isSub := true } := by
  obtain ⟨isSub, rfl⟩ := h.view
  rw [← hsub]

/-- What stands in a statement that holds no error, at any depth, is marked as nested and comes
from a statement for the same engine that was made without an error. All that its calls were given
since the last reset was such a statement. A call that is given any other leaves an error and takes
nothing in. -/
theorem embedded_for_same_engine (h : r.Proper) :
    (r.statement.error = none →
      (∀ v, TransGen Snapshot.Holds r.statement.state v → v.isSub = true ∧
        ∃ r' : Recipe, TransGen Uses r r' ∧ r'.Proper ∧ r'.statement.Fit r.dialect.engine ∧
          v = { r'.statement.state with isSub := true }) ∧
      ∀ before c after, r.calls = before ++ c :: after → .reset ∉ after →
        ∀ t ∈ c.statements, t.Fit r.dialect.engine) ∧
    ∀ c : Call, ∀ t ∈ c.statements, ¬t.Fit r.dialect.engine →
      (r.statement.apply c).error ≠ none ∧
        ∀ v, (r.statement.apply c).state.Holds v → r.statement.state.Holds v := by
  refine ⟨fun herror => ⟨fun v hv => ?_, fun before c after hcalls hafter t ht => ?_⟩,
    fun c t ht hunfit => ?_⟩
  · obtain ⟨w, hwithin, hholds⟩ := TransGen.tail'_iff.mp hv
    obtain ⟨r₁, hused, hgives, hengine⟩ := (Gives.self h herror).within hwithin
    obtain ⟨r₂, huses, hgives₂, hsub, hengine₂⟩ := hgives.held hholds
    have hfit : r₂.statement.Fit r.dialect.engine :=
      ⟨r₂.engine_statement.trans (hengine₂.trans hengine), hgives₂.error⟩
    exact ⟨hsub, r₂, .tail' hused huses, hgives₂.proper, hfit, hgives₂.eq_nested hsub⟩
  · rw [statement, hcalls] at herror
    exact Statement.fit_of_run herror hafter ht
  · rw [← r.engine_statement] at hunfit
    exact Statement.refused_of_not_fit ht hunfit

def flags : Recipe := ⟨.postgres, [.table "flag", .select (.text "post_id")]⟩

def flaggedPosts : Recipe :=
  ⟨.postgres, [.table "post", .select (.text "author_id"), .filterInSub "id" flags.statement]⟩

def flaggedAuthors : Recipe :=
  ⟨.postgres, [.table "author", .filterInSub "id" (.new .mysql), .reset, .select (.text "name"),
    .filterInSub "id" flaggedPosts.statement]⟩

theorem flaggedAuthors_embed : flaggedAuthors.statement.error = none ∧
    (∃ v w, flaggedAuthors.statement.state.Holds v ∧ v.Holds w ∧ w.isSub = true ∧
      ∃ r' : Recipe, TransGen Uses flaggedAuthors r' ∧ r'.statement.Fit .postgres ∧
        w = { r'.statement.state with isSub := true }) ∧
    (flaggedAuthors.statement.apply (.groupBy (.statement (.new .mysql)))).error ≠ none := by
  have hflags : Made flags.statement :=
    .run flags (by simp [flags, Call.Built]) (by simp [flags, Call.statements, Field.statements])
  have hposts : Made flaggedPosts.statement := by
    refine .run flaggedPosts (by simp [flaggedPosts, Call.Built]) ?_
    simpa [flaggedPosts, Call.statements, Field.statements] using hflags
  have hmysql : Made (.new .mysql) := .run ⟨.mysql, []⟩ (by simp) (by simp)
  have hproper : flaggedAuthors.Proper := by
    refine ⟨by simp [flaggedAuthors, Call.Built], ?_⟩
    simpa [flaggedAuthors, Call.statements, Field.statements] using ⟨hmysql, hposts⟩
  have herror : flaggedAuthors.statement.error = none :=
    Option.isNone_iff_eq_none.mp (by decide +kernel)
  obtain ⟨hembedded, hrefused⟩ := embedded_for_same_engine hproper
  have hdeep : (flaggedAuthors.statement.state.subsIn [.filter]).flatMap
      (fun v => v.subsIn [.filter]) ≠ [] := by decide +kernel
  obtain ⟨w, hw⟩ := List.exists_mem_of_ne_nil _ hdeep
  obtain ⟨v, hv, hw⟩ := List.mem_flatMap.mp hw
  have hholds : flaggedAuthors.statement.state.Holds v := ⟨.filter, hv⟩
  have hholds' : v.Holds w := ⟨.filter, hw⟩
  obtain ⟨hsub, r', hused, -, hfit, hview⟩ :=
    (hembedded herror).1 w (.head hholds (.single hholds'))
  have hforeign : ¬(Statement.new .mysql).Fit flaggedAuthors.dialect.engine := fun hfit =>
    absurd hfit.engine (by decide)
  exact ⟨herror, ⟨v, w, hholds, hholds', hsub, r', hused, hfit, hview⟩,
    (hrefused (.groupBy (.statement (.new .mysql))) _ (List.mem_singleton_self _) hforeign).1⟩

end Recipe

end SqlBuilder
