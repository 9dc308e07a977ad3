import SqlBuilder.Link
import SqlBuilder.Proofs.Edits

/-!
# Sessions

What a statement gathers until it is reset: its kind, its clauses, the columns of its rows, its
newest predicate and its first error. An error hides all of the session until then. Neither a
reset nor the choice of another kind lets anything of it reach what is built afterwards.
-/
namespace SqlBuilder

namespace Call

def config? : Call → Option Config
  | .config settings => some settings
  | _ => none

def aliasName? : Call → Option String
  | .withAlias name => some name
  | _ => none

def target? : Call → Option String
  | .table name => some name
  | _ => none

def chosen? : Call → Option StatementKind
  | .source _ | .select _ | .selectJson .. | .aggregate .. => some .select
  | .insert _ => some .insert
  | .update _ => some .update
  | .delete => some .delete
  | _ => none

end Call

namespace Statement

variable {s t : Statement} {e : SqlError} {c : Call}

/-- The statements differ at most in their sessions and errors. -/
structure SameOutside (s t : Statement) : Prop where
  dialect : s.dialect = t.dialect
  config : s.config = t.config
  aliasName : s.aliasName = t.aliasName
  table : s.state.table = t.state.table
  isSub : s.state.isSub = t.state.isSub

namespace SameOutside

theorem refl (s : Statement) : SameOutside s s := ⟨rfl, rfl, rfl, rfl, rfl⟩

theorem symm (h : SameOutside s t) : SameOutside t s :=
  ⟨h.dialect.symm, h.config.symm, h.aliasName.symm, h.table.symm, h.isSub.symm⟩

theorem trans {u : Statement} (h : SameOutside s t) (h' : SameOutside t u) : SameOutside s u :=
  ⟨h.dialect.trans h'.dialect, h.config.trans h'.config, h.aliasName.trans h'.aliasName,
    h.table.trans h'.table, h.isSub.trans h'.isSub⟩

theorem switchKind (s : Statement) (kind : StatementKind) : SameOutside s (s.switchKind kind) := by
  rw [Statement.switchKind]
  cases s.kind with
  | none => exact ⟨rfl, rfl, rfl, rfl, rfl⟩
  | some k =>
    by_cases hk : k = kind
    · simp only [hk, if_true]
      exact refl s
    · simp only [hk, if_false]
      exact ⟨rfl, rfl, rfl, rfl, rfl⟩

theorem setLastOp (s : Statement) (c : ClauseKind) (op : BoolOp) :
    SameOutside s (s.setLastOp c op) := by
  rw [Statement.setLastOp, Snapshot.setLastOp]
  split
  · exact refl s
  · exact ⟨rfl, rfl, rfl, rfl, rfl⟩

theorem of_edit (h : SessionEdit s t) : SameOutside s t := by
  cases h with
  | switch kind => exact switchKind s kind
  | op c op => exact setLastOp s c op
  | _ => exact ⟨rfl, rfl, rfl, rfl, rfl⟩

theorem of_edits (h : SessionEdits s t) : SameOutside s t := by
  induction h with
  | refl => exact refl s
  | tail _ hedit ih => exact ih.trans (of_edit hedit)

theorem pushClause (s : Statement) (c : ClauseKind) (f : Fragment) :
    SameOutside s (s.pushClause c f) := by
  cases c <;> exact ⟨rfl, rfl, rfl, rfl, rfl⟩

theorem apply (s : Statement) (hc : c.InSession) : SameOutside s (s.apply c) := by
  cases c with
  | pushClause c f => exact pushClause s c f
  | _ => exact of_edits (session_apply s trivial hc)

theorem reset (h : SameOutside s t) : s.reset = t.reset := by
  simp only [Statement.reset, Snapshot.clear, h.dialect, h.config, h.aliasName, h.table, h.isSub]

end SameOutside

theorem attempt_of_error (hs : s.error = some e) (f : Statement → Outcome Statement) :
    s.attempt f = s := by
  rw [attempt, hs]

theorem table_of_error (hs : s.error = some e) (name : String) : s.table name = s := by
  rw [table]
  exact attempt_of_error hs _

theorem error_of_edits (h : SessionEdits s t) (hs : s.error = some e) : t.error = some e := by
  induction h with
  | refl => exact hs
  | @tail u v _ hedit ih =>
    cases hedit with
    | fail e' hnone =>
      rw [ih] at hnone
      cases hnone
    | switch kind => exact (error_switchKind u kind).trans ih
    | _ => exact ih

theorem error_apply (hs : s.error = some e) (hc : c ≠ .reset) : (s.apply c).error = some e := by
  cases c with
  | config settings => exact hs
  | table name =>
    rw [apply, table_of_error hs]
    exact hs
  | withAlias name => exact hs
  | pushClause c f => cases c <;> exact hs
  | reset => exact absurd rfl hc
  | _ => exact error_of_edits (session_apply s trivial trivial) hs

/-- Outside the session, calls do the same to statements with errors, whatever the sessions. -/
theorem sameOutside_apply (hs : s.error = some e) (ht : t.error = some e) (h : SameOutside s t)
    (hc : c ≠ .reset) : SameOutside (s.apply c) (t.apply c) := by
  by_cases hsession : c.InSession
  · exact (SameOutside.apply s hsession).symm.trans (h.trans (SameOutside.apply t hsession))
  cases c with
  | config settings => exact ⟨h.dialect, rfl, h.aliasName, h.table, h.isSub⟩
  | table name =>
    rw [apply, apply, table_of_error hs, table_of_error ht]
    exact h
  | withAlias name => exact ⟨h.dialect, h.config, rfl, h.table, h.isSub⟩
  | reset => exact absurd rfl hc
  | _ => exact absurd trivial hsession

theorem run_of_error (hs : s.error = some e) (ht : t.error = some e) (h : SameOutside s t)
    {calls : List Call} (hcalls : .reset ∉ calls) :
    (s.run calls).error = some e ∧ SameOutside (s.run calls) (t.run calls) := by
  induction calls generalizing s t with
  | nil => exact ⟨hs, h⟩
  | cons c calls ih =>
    rw [List.mem_cons, not_or] at hcalls
    obtain ⟨hc, hcalls⟩ := hcalls
    have hs' := error_apply hs (Ne.symm hc)
    have ht' := error_apply ht (Ne.symm hc)
    exact ih hs' ht' (sameOutside_apply hs ht h (Ne.symm hc)) hcalls

/-- Every final use of the statement gives the error: no text and no view comes out of it, a link
is handed nothing, and a statement that is to hold it takes over the error. -/
structure Refuses (s : Statement) (e : SqlError) : Prop where
  error : s.error = some e
  toSql : ∀ layout, s.toSql layout = .error e
  sql : s.sql = .error e
  toStructured : s.toStructured = .error e
  execute : ∀ {σ ρ : Type} (link : Link σ ρ) (state : σ),
    (s.execute link state).result = .error e ∧ (s.execute link state).state = state
  embedded : ∀ (parent : Statement) (field : String), parent.error = none →
    parent.engine = s.engine → (∃ name, parent.engine.quoteIdent field = .ok name) →
    (parent.filterInSub field s).error = some e

theorem refuses_of_error (h : s.error = some e) : s.Refuses e := by
  have hchecked : s.checked = .error e := by rw [checked, h]
  have hsql (layout : Layout) : s.toSql layout = .error e := by
    rw [toSql, hchecked]
    rfl
  refine ⟨h, hsql, hsql _, hchecked, fun link state => ?_, ?_⟩
  · have hdispatch : s.dispatch link.dialect.engine = (.error e, [.rejected e]) := by
      rw [dispatch, sql, hsql]
    rw [execute, hdispatch]
    exact ⟨rfl, rfl⟩
  · rintro parent field hparent hengine ⟨name, hname⟩
    have hnested : s.nested parent.engine = .error e := by
      rw [nested, if_neg (not_not.mpr hengine.symm), toStructured, hchecked]
      rfl
    rw [filterInSub, attempt, hparent]
    simp only [hname, hnested]
    rfl

/-- The name that a call makes the target. No call succeeds on a statement with an error. -/
def targetOf (s : Statement) (c : Call) : Option String :=
  if (s.apply c).error.isNone then c.target? else none

def targets (s : Statement) : List Call → List String
  | [] => []
  | c :: calls => (s.targetOf c).toList ++ (s.apply c).targets calls

/-- The statement with some configuration, alias and target in the place of its own. -/
def withSettings (s : Statement) (config : Option Config) (aliasName target : Option String) :
    Statement :=
  { s with
    config := config.getD s.config
    aliasName := aliasName.or s.aliasName
    state := { s.state with
      table := match target with
        | none => s.state.table
        | some name => (targetText s.engine name).toOption } }

theorem settings_of_session (hc : c.InSession) :
    c.config? = none ∧ c.aliasName? = none ∧ c.target? = none := by
  cases c with
  | config settings => exact hc.elim
  | table name => exact hc.elim
  | withAlias name => exact hc.elim
  | reset => exact hc.elim
  | _ => exact ⟨rfl, rfl, rfl⟩

theorem targetOf_eq_none (s : Statement) (hc : c.target? = none) : s.targetOf c = none := by
  rw [targetOf, hc, ite_self]

theorem apply_outside (s : Statement) (c : Call) :
    SameOutside (s.apply c) (s.withSettings c.config? c.aliasName? (s.targetOf c)) := by
  by_cases hsession : c.InSession
  · obtain ⟨hconfig, halias, htarget⟩ := settings_of_session hsession
    rw [hconfig, halias, targetOf_eq_none s htarget]
    exact (SameOutside.apply s hsession).symm.trans ⟨rfl, rfl, rfl, rfl, rfl⟩
  cases c with
  | table name =>
    rw [targetOf, apply]
    rcases table_cases s name with ⟨⟨e, hs⟩, h⟩ | ⟨hs, text, htext, h⟩ | ⟨-, e, h⟩
    · rw [h, hs]
      exact ⟨rfl, rfl, rfl, rfl, rfl⟩
    · rw [h, hs]
      exact ⟨rfl, rfl, rfl, (congrArg Except.toOption htext).symm, rfl⟩
    · rw [h]
      exact ⟨rfl, rfl, rfl, rfl, rfl⟩
  | config settings =>
    rw [targetOf_eq_none s rfl]
    exact ⟨rfl, rfl, rfl, rfl, rfl⟩
  | withAlias name =>
    rw [targetOf_eq_none s rfl]
    exact ⟨rfl, rfl, rfl, rfl, rfl⟩
  | reset =>
    rw [targetOf_eq_none s rfl]
    exact ⟨rfl, rfl, rfl, rfl, rfl⟩
  | _ => exact absurd trivial hsession

theorem run_outside (s : Statement) (calls : List Call) :
    SameOutside (s.run calls) (s.withSettings (calls.filterMap Call.config?).getLast?
      (calls.filterMap Call.aliasName?).getLast? (s.targets calls).getLast?) := by
  induction calls generalizing s with
  | nil => exact ⟨rfl, rfl, rfl, rfl, rfl⟩
  | cons c calls ih =>
    have happly := apply_outside s c
    have hengine : (s.apply c).engine = s.engine := congrArg Dialect.engine happly.dialect
    refine (ih (s.apply c)).trans ⟨happly.dialect, ?_, ?_, ?_, happly.isSub⟩
    · simp only [withSettings, List.filterMap_cons, happly.config]
      cases c.config? with
      | none => rfl
      | some settings => simp [List.getLast?_cons]
    · simp only [withSettings, List.filterMap_cons, happly.aliasName]
      cases c.aliasName? with
      | none => rfl
      | some name =>
        cases h : (calls.filterMap Call.aliasName?).getLast? <;> simp [List.getLast?_cons, h]
    · simp only [withSettings, targets, hengine, happly.table]
      cases s.targetOf c with
      | none => rfl
      | some name =>
        cases h : ((s.apply c).targets calls).getLast? <;> simp [List.getLast?_cons, h]

theorem targetText_of_targetOf {name : String} (h : s.targetOf c = some name) :
    ∃ text, targetText s.engine name = .ok text := by
  rw [targetOf] at h
  split at h
  · cases c with
    | table name' =>
      cases h
      rename_i hsuccess
      rw [apply] at hsuccess
      rcases table_cases s name with ⟨⟨e, hs⟩, h⟩ | ⟨-, text, htext, -⟩ | ⟨-, e, h⟩
      · rw [h, hs] at hsuccess
        cases hsuccess
      · exact ⟨text, htext⟩
      · rw [h] at hsuccess
        cases hsuccess
    | _ => cases h
  · cases h

theorem targetText_of_targets {name : String} {calls : List Call} (h : name ∈ s.targets calls) :
    ∃ text, targetText s.engine name = .ok text := by
  induction calls generalizing s with
  | nil => cases h
  | cons c calls ih =>
    rw [targets, List.mem_append, Option.mem_toList] at h
    rcases h with h | h
    · exact targetText_of_targetOf h
    · have hengine : (s.apply c).engine = s.engine :=
        congrArg Dialect.engine (apply_outside s c).dialect
      exact hengine ▸ ih h

theorem table_of_text {name text : String} (hs : s.error = none)
    (h : targetText s.engine name = .ok text) :
    s.table name = { s with state := { s.state with table := some text } } := by
  obtain ⟨f, hf, htext⟩ := Outcome.exists_of_bind_eq_ok h
  have hrender : f.render .compact 0 = .ok text := htext
  simp only [table, attempt, hs, hf, bind, Except.bind, hrender]
  rfl

/-- The latest configuration, the latest alias and the latest name that became the target, for a
new statement. -/
def settings (d : Dialect) (calls : List Call) : List Call :=
  ((calls.filterMap Call.config?).getLast?.map Call.config).toList ++
  ((calls.filterMap Call.aliasName?).getLast?.map Call.withAlias).toList ++
  (((new d).targets calls).getLast?.map Call.table).toList

/-- A new statement with the same target, alias and configuration. -/
def renewed (s : Statement) : Statement :=
  { new s.dialect with
    config := s.config
    aliasName := s.aliasName
    state := { Snapshot.empty with table := s.state.table } }

theorem SameOutside.renewed (h : SameOutside s t) : s.renewed = t.renewed := by
  simp only [Statement.renewed, h.dialect, h.config, h.aliasName, h.table]

theorem renewed_run (d : Dialect) (calls : List Call) :
    ((new d).run calls).renewed = (new d).run (settings d calls) := by
  have htargets (name : String) (h : ((new d).targets calls).getLast? = some name) :
      ∃ text, targetText (new d).engine name = .ok text :=
    targetText_of_targets (List.mem_of_getLast? h)
  rw [(run_outside (new d) calls).renewed, settings, run_append, run_append]
  generalize (calls.filterMap Call.config?).getLast? = config
  generalize (calls.filterMap Call.aliasName?).getLast? = aliasName
  generalize ((new d).targets calls).getLast? = target at htargets
  have hconfig : (new d).run (config.map Call.config).toList =
      (new d).withSettings config none none := by cases config <;> rfl
  have halias : ((new d).withSettings config none none).run (aliasName.map Call.withAlias).toList =
      (new d).withSettings config aliasName none := by cases aliasName <;> rfl
  rw [hconfig, halias]
  cases target with
  | none => cases config <;> cases aliasName <;> rfl
  | some name =>
    obtain ⟨text, htext⟩ := htargets name rfl
    have htable : ((new d).withSettings config aliasName none).table name =
        (new d).withSettings config aliasName (some name) := by
      rw [table_of_text (s := (new d).withSettings config aliasName none) rfl htext]
      simp only [withSettings]
      rw [htext]
      rfl
    have hrun : ((new d).withSettings config aliasName none).run
        (Option.map Call.table (some name)).toList =
        ((new d).withSettings config aliasName none).table name := rfl
    rw [hrun, htable]
    rfl

theorem reset_eq_renewed (h : s.state.isSub = false) : s.reset = s.renewed := by
  simp only [reset, Snapshot.clear, h]
  rfl

theorem isSub_run (d : Dialect) (calls : List Call) :
    ((new d).run calls).state.isSub = false := (run_outside (new d) calls).isSub

/-- The first error of a run stays, and every final use gives it, until a reset. From there on
everything is as for a new statement with the latest settings. `s` is the statement as the failing
call may have left it: its session can hold anything. -/
theorem error_lasts_until_reset (d : Dialect) {calls : List Call} {e : SqlError}
    (herror : ((new d).run calls).error = some e) {s : Statement}
    (hs : SameOutside s ((new d).run calls)) (hserror : s.error = some e) {more : List Call}
    (hmore : .reset ∉ more) :
    (s.run more).Refuses e ∧
      ∀ next, s.run (more ++ .reset :: next) =
        (new d).run (settings d (calls ++ more) ++ next) := by
  obtain ⟨hrun, hsame⟩ := run_of_error hserror herror hs hmore
  refine ⟨refuses_of_error hrun, fun next => ?_⟩
  have hreset : (s.run more).reset = (new d).run (settings d (calls ++ more)) := by
    rw [hsame.reset, ← run_append, reset_eq_renewed (isSub_run d _), renewed_run]
  rw [run_append, run_cons, run_append, ← hreset]
  rfl

theorem error_insert_emptyRow (hs : s.error = none) {row : Row}
    (hrow : (s.switchKind .insert).pushRow row = .ok t) :
    (s.insert [row, []]).error = some (.shape .emptyRow) := by
  have hfold : [row, []].foldlM pushRow (s.switchKind .insert) = .error (.shape .emptyRow) := by
    rw [List.foldlM_cons, hrow]
    rfl
  rw [insert, attemptAs, hs]
  simp only [attempt, error_switchKind, hs]
  rw [if_neg (by simp), hfold]

def filtered : Statement := (new .mysql).run [.table "users AS u", .filter "id = ?" [.int 1]]

def halfInsert : List Call :=
  [.table "users AS u", .filter "id = ?" [.int 1], .insert [[("name", .text "rose")], []]]

def halfInserted : Statement :=
  { (new .mysql).run halfInsert with
    state := (((new .mysql).run halfInsert).state.push .insert (.ofText "\x60name\x60")).push
      .insert (.ofText "'rose'")
    insertColumns := ["\x60name\x60"] }

def recovery : List Call := [.table "orders", .orFilter "a" [], .withAlias "x", .connect .or]

theorem halfInserted_recovers :
    ((new .mysql).run halfInsert).error = some (.shape .emptyRow) ∧
    (halfInserted.run recovery).Refuses (.shape .emptyRow) ∧
    (halfInserted.run (recovery ++ .reset :: [.select (.text "id")])).toSql .compact =
      .ok "SELECT \x60id\x60 FROM \x60users\x60 AS \x60u\x60" := by
  have hrow : (((filtered.switchKind .insert).pushRow [("name", .text "rose")]).toOption).isSome
      = true := by decide +kernel
  obtain ⟨u, hu⟩ := Option.isSome_iff_exists.mp hrow
  have hclean : filtered.error = none := Option.isNone_iff_eq_none.mp (by decide +kernel)
  have herror : ((new .mysql).run halfInsert).error = some (.shape .emptyRow) :=
    error_insert_emptyRow hclean (Outcome.eq_ok_of_toOption hu)
  have hsame : SameOutside halfInserted ((new .mysql).run halfInsert) :=
    ⟨rfl, rfl, rfl, rfl, rfl⟩
  have hrecovery : Call.reset ∉ recovery := by simp [recovery]
  have h := error_lasts_until_reset .mysql herror hsame herror hrecovery
  refine ⟨herror, h.1, ?_⟩
  rw [h.2]
  exact Outcome.eq_ok_of_toOption (by decide +kernel)

theorem apply_of_chosen {kind : StatementKind} (hc : c.chosen? = some kind) :
    ∃ step, ∀ s : Statement, s.apply c = s.attemptAs kind step := by
  cases c with
  | source field => cases hc; exact ⟨_, fun _ => rfl⟩
  | select field => cases hc; exact ⟨_, fun _ => rfl⟩
  | selectJson spec shape aliasName => cases hc; exact ⟨_, fun _ => rfl⟩
  | aggregate function field aliasName => cases hc; exact ⟨_, fun _ => rfl⟩
  | insert rows => cases hc; exact ⟨_, fun _ => rfl⟩
  | update row => cases hc; exact ⟨_, fun _ => rfl⟩
  | delete => cases hc; exact ⟨_, fun _ => rfl⟩
  | _ => cases hc

theorem switchKind_eq_renewed {kind kind' : StatementKind} (herror : s.error = none)
    (hsub : s.state.isSub = false) (hkind : s.kind = some kind) (hne : kind' ≠ kind) :
    s.switchKind kind' = s.renewed.switchKind kind' := by
  have hnone : s.renewed.kind = none := rfl
  rw [switchKind, switchKind, hkind, hnone]
  simp only [Ne.symm hne, if_false, Snapshot.clear, hsub, herror]
  rfl

/-- Choosing another kind, whatever comes after it, is the same as choosing it for a new
statement with the same target, alias and configuration. -/
theorem other_kind_starts_anew (d : Dialect) {calls : List Call}
    (herror : ((new d).run calls).error = none) {kind kind' : StatementKind}
    (hkind : ((new d).run calls).kind = some kind) {c : Call} (hc : c.chosen? = some kind')
    (hne : kind' ≠ kind) (next : List Call) :
    ((new d).run calls).run (c :: next) = ((new d).run calls).renewed.run (c :: next) := by
  obtain ⟨step, hstep⟩ := apply_of_chosen hc
  have hswitch := switchKind_eq_renewed herror (isSub_run d calls) hkind hne
  have happly : ((new d).run calls).apply c = ((new d).run calls).renewed.apply c := by
    have hnone : ((new d).run calls).renewed.error = none := rfl
    rw [hstep, hstep, attemptAs, attemptAs, herror, hnone, hswitch]
  rw [run_cons, run_cons, happly]

def roleCount : List Call :=
  [.table "users", .groupBy (.text "role_id"), .select (.text "role_id"), .having "n > ?" [.int 1]]

theorem roleCount_then_removal :
    ((new .mysql).run roleCount).error = none ∧
    ((new .mysql).run roleCount).kind = some .select ∧
    ((new .mysql).run (roleCount ++ [.delete, .connect .or, .filter "id = ?" [.int 1]])).toSql
      .compact = .ok "DELETE FROM \x60users\x60 WHERE (id = 1)" := by
  have herror : ((new .mysql).run roleCount).error = none :=
    Option.isNone_iff_eq_none.mp (by decide +kernel)
  have hkind : ((new .mysql).run roleCount).kind = some .select := by decide +kernel
  have hne : StatementKind.delete ≠ .select := by decide
  refine ⟨herror, hkind, ?_⟩
  rw [run_append, other_kind_starts_anew .mysql herror hkind rfl hne]
  exact Outcome.eq_ok_of_toOption (by decide +kernel)

end Statement

end SqlBuilder
