import SqlBuilder.Link
import SqlBuilder.Proofs.Lockstep

/-!
# What a link is handed

An execution hands the link the finished text of a statement once, or nothing at all, and changes
nothing about the statement. What is logged has no part in it: programs that differ only in what
they have logged hand over the same texts and come to the same results.
-/
namespace SqlBuilder

open List (Forall₂)

variable {σ ρ : Type}

/-- The same link, which also keeps the texts that it is handed. -/
def Link.watched (link : Link σ ρ) : Link (σ × List String) ρ where
  dialect := link.dialect
  run sql kept :=
    let (result, state) := link.run sql kept.1
    (result, state, kept.2 ++ [sql])

namespace Statement

variable {s t : Statement} {link : Link σ ρ} {state : σ}

/-- What an execution comes to: the result, the state that it leaves the link in, and the texts
that the link is handed. What stands in the way first decides. -/
inductive Handover (s : Statement) (link : Link σ ρ) (state : σ) :
    Outcome ρ → σ → List String → Prop where
  | failed {e : SqlError} : s.error = some e → Handover s link state (.error e) state []
  | unrendered {e : SqlError} : s.error = none → s.state.render s.config.layout = .error e →
      Handover s link state (.error e) state []
  | foreign {sql : String} : s.error = none → s.state.render s.config.layout = .ok sql →
      link.dialect.engine ≠ s.engine →
      Handover s link state (.error (.config (.foreignLink s.engine link.dialect.engine))) state []
  | handed {sql : String} : s.error = none → s.toSql s.config.layout = .ok sql →
      link.dialect.engine = s.engine →
      Handover s link state (link.run sql state).1 (link.run sql state).2 [sql]

/-- The texts that a link of the engine is handed. -/
def handed (s : Statement) (engine : Engine) : List String :=
  match (s.dispatch engine).1 with
  | .ok sql => [sql]
  | .error _ => []

theorem fst_dispatch (s : Statement) (engine : Engine) :
    (s.dispatch engine).1 = s.sql >>= fun sql =>
      if engine ≠ s.engine then .error (SqlError.config (.foreignLink s.engine engine))
      else .ok sql := by
  rw [dispatch]
  cases s.sql with
  | error e => rfl
  | ok sql =>
    dsimp only [bind, Except.bind]
    split
    · rfl
    · split <;> rfl

theorem execute_of_error {e : SqlError} (h : (s.dispatch link.dialect.engine).1 = .error e) :
    s.execute link state = ⟨.error e, (s.dispatch link.dialect.engine).2, state⟩ := by
  rw [execute]
  split <;> simp_all

theorem execute_of_ok {sql : String} (h : (s.dispatch link.dialect.engine).1 = .ok sql) :
    s.execute link state = ⟨(link.run sql state).1, (s.dispatch link.dialect.engine).2,
      (link.run sql state).2⟩ := by
  rw [execute]
  split <;> simp_all

theorem sql_of_error_none (h : s.error = none) : s.sql = s.state.render s.config.layout := by
  rw [sql, toSql, checked, h]
  rfl

theorem handover_execute (s : Statement) (link : Link σ ρ) (state : σ) :
    s.Handover link state (s.execute link state).result (s.execute link state).state
      (s.handed link.dialect.engine) := by
  have hdispatch := fst_dispatch s link.dialect.engine
  cases herror : s.error with
  | some e =>
    have hsql : s.sql = .error e := by
      rw [sql, toSql, checked, herror]
      rfl
    rw [hsql] at hdispatch
    rw [execute_of_error hdispatch, handed, hdispatch]
    exact .failed herror
  | none =>
    have hsql := sql_of_error_none herror
    cases hrender : s.state.render s.config.layout with
    | error e =>
      rw [hsql, hrender] at hdispatch
      rw [execute_of_error hdispatch, handed, hdispatch]
      exact .unrendered herror hrender
    | ok sql =>
      rw [hsql, hrender] at hdispatch
      dsimp only [bind, Except.bind] at hdispatch
      by_cases hengine : link.dialect.engine = s.engine
      · rw [if_neg (not_not_intro hengine)] at hdispatch
        rw [execute_of_ok hdispatch, handed, hdispatch]
        exact .handed herror (hsql.trans hrender) hengine
      · rw [if_pos hengine] at hdispatch
        rw [execute_of_error hdispatch, handed, hdispatch]
        exact .foreign herror hrender hengine

theorem execute_watched (s : Statement) (link : Link σ ρ) (state : σ) (seen : List String) :
    (s.execute link.watched (state, seen)).result = (s.execute link state).result ∧
      (s.execute link.watched (state, seen)).state =
        ((s.execute link state).state, seen ++ s.handed link.dialect.engine) := by
  rw [handed]
  cases h : (s.dispatch link.dialect.engine).1 with
  | error e =>
    have hwatched : (s.dispatch link.watched.dialect.engine).1 = .error e := h
    rw [execute_of_error h, execute_of_error hwatched, List.append_nil]
    exact ⟨rfl, rfl⟩
  | ok sql =>
    have hwatched : (s.dispatch link.watched.dialect.engine).1 = .ok sql := h
    rw [execute_of_ok h, execute_of_ok hwatched]
    exact ⟨rfl, rfl⟩

end Statement

inductive Act where
  | call (c : Call)
  | execute

def Act.call? : Act → Option Call
  | .call c => some c
  | .execute => none

structure Transcript (σ ρ : Type) where
  statement : Statement
  state : σ
  results : List (Outcome ρ)

namespace Transcript

def next (link : Link σ ρ) (t : Transcript σ ρ) : Act → Transcript σ ρ
  | .call c => { t with statement := t.statement.apply c }
  | .execute =>
    let x := t.statement.execute link t.state
    { t with state := x.state, results := t.results ++ [x.result] }

def after (link : Link σ ρ) (t : Transcript σ ρ) (acts : List Act) : Transcript σ ρ :=
  acts.foldl (next link) t

end Transcript

namespace Statement

/-- The texts that the executions of a program hand to a link of the engine. -/
def handedBy (s : Statement) (engine : Engine) : List Act → List String
  | [] => []
  | .call c :: acts => (s.apply c).handedBy engine acts
  | .execute :: acts => s.handed engine ++ s.handedBy engine acts

end Statement

open Transcript (after)

theorem Transcript.after_watched (link : Link σ ρ) (s : Statement) (state : σ)
    (seen : List String) (results : List (Outcome ρ)) (acts : List Act) :
    after link.watched ⟨s, (state, seen), results⟩ acts =
      ⟨s.run (acts.filterMap Act.call?),
        ((after link ⟨s, state, results⟩ acts).state,
          seen ++ s.handedBy link.dialect.engine acts),
        (after link ⟨s, state, results⟩ acts).results⟩ := by
  induction acts generalizing s state seen results with
  | nil =>
    rw [Statement.handedBy, List.append_nil]
    rfl
  | cons act acts ih =>
    cases act with
    | call c => exact ih (s.apply c) state seen results
    | execute =>
      obtain ⟨hresult, hstate⟩ := s.execute_watched link state seen
      have hnext : next link.watched ⟨s, (state, seen), results⟩ .execute =
          ⟨s, ((s.execute link state).state, seen ++ s.handed link.dialect.engine),
            results ++ [(s.execute link state).result]⟩ := by
        rw [next, hresult, hstate]
      show after link.watched (next link.watched _ .execute) acts = _
      rw [hnext, ih, List.append_assoc]
      rfl

/-- The configurations differ at most in what they have logged. -/
structure Config.SameButLog (c c' : Config) : Prop where
  pretty : c.pretty = c'.pretty
  engine : c.engine = c'.engine
  serverVersion : c.serverVersion = c'.serverVersion

namespace Statement

variable {s t : Statement}

/-- The statements differ at most in what their configurations have logged. -/
inductive SameButLog (s : Statement) : Statement → Prop where
  | withConfig (config : Config) : s.config.SameButLog config →
      SameButLog s (s.withConfig config)

theorem switchKind_withConfig (s : Statement) (config : Config) (kind : StatementKind) :
    (s.withConfig config).switchKind kind = (s.switchKind kind).withConfig config ∧
      (s.switchKind kind).config = s.config := by
  have hkind : (s.withConfig config).kind = s.kind := rfl
  rw [switchKind, switchKind, hkind]
  cases s.kind with
  | none => exact ⟨rfl, rfl⟩
  | some k =>
    dsimp only
    split
    · exact ⟨rfl, rfl⟩
    · exact ⟨rfl, rfl⟩

theorem setColumns_withConfig (s : Statement) (config : Config) (columns : List String) :
    (s.withConfig config).setColumns columns = (s.setColumns columns).withConfig config ∧
      (s.setColumns columns).config = s.config := by
  have hcolumns : (s.withConfig config).insertColumns = s.insertColumns := rfl
  rw [setColumns, setColumns, hcolumns]
  split
  · exact ⟨rfl, rfl⟩
  · exact ⟨rfl, rfl⟩

theorem lockstep_sameButLog : Lockstep SameButLog where
  twin := by
    rintro s _ ⟨config, -⟩
    exact ⟨rfl, rfl, rfl, rfl⟩
  config c := by
    rintro s _ ⟨config, -⟩
    exact .withConfig (s := s.withConfig c) c ⟨rfl, rfl, rfl⟩
  name aliasName := by
    rintro s _ ⟨config, h⟩
    exact .withConfig (s := s.withAlias aliasName) config h
  target name := by
    rintro s _ ⟨config, h⟩
    exact .withConfig (s := { s with state := { s.state with table := some name } }) config h
  fail e := by
    rintro s _ ⟨config, h⟩
    exact .withConfig (s := { s with error := some e }) config h
  switch kind := by
    rintro s _ ⟨config, h⟩
    obtain ⟨hswitch, hconfig⟩ := switchKind_withConfig s config kind
    rw [hswitch]
    exact .withConfig config (hconfig ▸ h)
  push _ f := by
    rintro s _ ⟨config, h⟩
    exact .withConfig (s := s.push _ f) config h
  row f := by
    rintro s _ - ⟨config, h⟩
    obtain ⟨hset, hconfig⟩ := setColumns_withConfig s config _
    rw [hset]
    exact .withConfig (s := (s.setColumns _).push .insert f) config (hconfig ▸ h)
  predicate _ := by
    rintro s _ ⟨config, h⟩
    exact .withConfig (s := { s with lastPredicate := some _ }) config h
  limitClause f := by
    rintro s _ ⟨config, h⟩
    exact .withConfig (s := { s with state := s.state.setClause .limit [f] }) config h
  op _ op := by
    rintro s _ ⟨config, h⟩
    exact .withConfig (s := s.setLastOp _ op) config h
  reset := by
    rintro s _ ⟨config, h⟩
    exact .withConfig (s := s.reset) config h

theorem SameButLog.apply (h : SameButLog s t) (c : Call) : SameButLog (s.apply c) (t.apply c) := by
  refine lockstep_sameButLog.apply h c (fun op _ => ?_) fun f _ => ?_
  · obtain ⟨config, h⟩ := h
    exact .withConfig (s := s.connect op) config h
  · obtain ⟨config, h⟩ := h
    exact .withConfig (s := s.push .insert f) config h

theorem SameButLog.withConfig_of {c c' : Config} (h : SameButLog s t) (hc : c.SameButLog c') :
    SameButLog (s.withConfig c) (t.withConfig c') := by
  obtain ⟨config, -⟩ := h
  exact .withConfig (s := s.withConfig c) c' hc

theorem SameButLog.fst_dispatch (h : SameButLog s t) (engine : Engine) :
    (t.dispatch engine).1 = (s.dispatch engine).1 := by
  obtain ⟨config, h⟩ := h
  have hlayout : config.layout = s.config.layout := by rw [Config.layout, Config.layout, h.pretty]
  have hsql : (s.withConfig config).sql = s.sql := by
    show s.toSql config.layout = s.toSql s.config.layout
    rw [hlayout]
  rw [Statement.fst_dispatch, Statement.fst_dispatch, hsql]
  rfl

theorem SameButLog.execute (h : SameButLog s t) (link : Link σ ρ) (state : σ) :
    (t.execute link state).result = (s.execute link state).result ∧
      (t.execute link state).state = (s.execute link state).state := by
  have hsame := h.fst_dispatch link.dialect.engine
  cases hdispatch : (s.dispatch link.dialect.engine).1 with
  | error e =>
    rw [execute_of_error hdispatch, execute_of_error (hsame.trans hdispatch)]
    exact ⟨rfl, rfl⟩
  | ok sql =>
    rw [execute_of_ok hdispatch, execute_of_ok (hsame.trans hdispatch)]
    exact ⟨rfl, rfl⟩

end Statement

inductive Act.SameButLog : Act → Act → Prop where
  | same {act : Act} : SameButLog act act
  | config {c c' : Config} : c.SameButLog c' →
      SameButLog (.call (.config c)) (.call (.config c'))

theorem Transcript.after_of_sameButLog {s t : Statement} (h : s.SameButLog t) (link : Link σ ρ)
    (state : σ) (results : List (Outcome ρ)) {acts acts' : List Act}
    (hacts : Forall₂ Act.SameButLog acts acts') :
    (after link ⟨t, state, results⟩ acts').results =
        (after link ⟨s, state, results⟩ acts).results ∧
      (after link ⟨t, state, results⟩ acts').state =
        (after link ⟨s, state, results⟩ acts).state := by
  induction hacts generalizing s t state results with
  | nil => exact ⟨rfl, rfl⟩
  | @cons act _ _ _ hact _ ih =>
    cases hact with
    | config hc => exact ih (h.withConfig_of hc) state results
    | same =>
      cases act with
      | call c => exact ih (h.apply c) state results
      | execute =>
        obtain ⟨hresult, hstate⟩ := h.execute link state
        have hnext : next link ⟨t, state, results⟩ .execute =
            ⟨t, (s.execute link state).state, results ++ [(s.execute link state).result]⟩ := by
          rw [next, hresult, hstate]
        show (after link (next link ⟨t, state, results⟩ .execute) _).results = _ ∧
          (after link (next link ⟨t, state, results⟩ .execute) _).state = _
        rw [hnext]
        exact ih h _ _

/-- An execution hands a link the text of the statement in its configured layout if there is no
error, the text can be written and the link is for its engine, and returns what the link answers.
Otherwise it hands over nothing and fails with what stands first in the way. In a program any number
of executions leave the statement as its calls alone make it, and hand over the texts that they find
one after the other. Two programs that differ only in what they have logged do the same to every
link. -/
theorem link_gets_text_once (s : Statement) (link : Link σ ρ) (state : σ) :
    s.Handover link state (s.execute link state).result (s.execute link state).state
      (s.handed link.dialect.engine) ∧
    (∀ seen results acts, after link.watched ⟨s, (state, seen), results⟩ acts =
      ⟨s.run (acts.filterMap Act.call?),
        ((after link ⟨s, state, results⟩ acts).state,
          seen ++ s.handedBy link.dialect.engine acts),
        (after link ⟨s, state, results⟩ acts).results⟩) ∧
    ∀ t acts acts' results, s.SameButLog t → Forall₂ Act.SameButLog acts acts' →
      (after link ⟨t, state, results⟩ acts').results =
          (after link ⟨s, state, results⟩ acts).results ∧
        (after link ⟨t, state, results⟩ acts').state =
          (after link ⟨s, state, results⟩ acts).state :=
  ⟨s.handover_execute link state,
    fun seen results acts => Transcript.after_watched link s state seen results acts,
    fun _ _ _ results h hacts => Transcript.after_of_sameButLog h link state results hacts⟩

end SqlBuilder
