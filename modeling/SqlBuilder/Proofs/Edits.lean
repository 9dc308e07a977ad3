import Mathlib.Logic.Relation
import SqlBuilder.Statement.Call
import SqlBuilder.Proofs.Outcome

/-!
# What a call can do

Every builder call is a sequence of a few kinds of edits. A clause that only one kind of
statement has is filled only while the statement is of that kind, so an invariant of the
edits is one of all runs.
-/
namespace SqlBuilder

open Relation (ReflTransGen)

/-- The only kind of statement that has a clause, where there is only one. -/
def ClauseKind.owner? : ClauseKind → Option StatementKind
  | .select | .aggregate | .source => some .select
  | .insert => some .insert
  | .update => some .update
  | _ => none

/-- A call that is given no finished fragment. -/
def Call.Built : Call → Prop
  | .pushClause _ _ => False
  | _ => True

/-- A call whose effect a reset takes back. -/
def Call.InSession : Call → Prop
  | .config _ | .table _ | .withAlias _ | .reset => False
  | _ => True

def targetText (e : Engine) (name : String) : Outcome String := do
  (← (Field.text name).joined e).render .compact 0

namespace Statement

inductive Edit : Statement → Statement → Prop where
  | config (s : Statement) (config : Config) : Edit s (s.withConfig config)
  | name (s : Statement) (aliasName : String) : Edit s (s.withAlias aliasName)
  | target (s : Statement) (name : String) :
      Edit s { s with state := { s.state with table := some name } }
  | fail (s : Statement) (e : SqlError) : s.error = none → Edit s { s with error := some e }
  | switch (s : Statement) (kind : StatementKind) : Edit s (s.switchKind kind)
  | columns (s : Statement) (columns : List String) : Edit s { s with insertColumns := columns }
  | push (s : Statement) (c : ClauseKind) (f : Fragment) :
      (∀ k, c.owner? = some k → s.kind = some k) → Edit s (s.push c f)
  | predicate (s : Statement) (c : ClauseKind) : Edit s { s with lastPredicate := some c }
  | limit (s : Statement) (f : Fragment) :
      Edit s { s with state := s.state.setClause .limit [f] }
  | op (s : Statement) (c : ClauseKind) (op : BoolOp) : Edit s (s.setLastOp c op)
  | reset (s : Statement) : Edit s s.reset

abbrev Edits : Statement → Statement → Prop := ReflTransGen Edit

/-- An edit of what a reset takes back. The target, the alias and the configuration last. -/
inductive SessionEdit : Statement → Statement → Prop where
  | fail (s : Statement) (e : SqlError) : s.error = none →
      SessionEdit s { s with error := some e }
  | switch (s : Statement) (kind : StatementKind) : SessionEdit s (s.switchKind kind)
  | columns (s : Statement) (columns : List String) :
      SessionEdit s { s with insertColumns := columns }
  | push (s : Statement) (c : ClauseKind) (f : Fragment) :
      (∀ k, c.owner? = some k → s.kind = some k) → SessionEdit s (s.push c f)
  | predicate (s : Statement) (c : ClauseKind) : SessionEdit s { s with lastPredicate := some c }
  | limit (s : Statement) (f : Fragment) :
      SessionEdit s { s with state := s.state.setClause .limit [f] }
  | op (s : Statement) (c : ClauseKind) (op : BoolOp) : SessionEdit s (s.setLastOp c op)

abbrev SessionEdits : Statement → Statement → Prop := ReflTransGen SessionEdit

variable {s t : Statement}

theorem Edit.edits (h : Edit s t) : Edits s t := .single h

theorem SessionEdit.session (h : SessionEdit s t) : SessionEdits s t := .single h

theorem SessionEdit.edit (h : SessionEdit s t) : Edit s t := by
  cases h with
  | fail e he => exact .fail s e he
  | switch kind => exact .switch s kind
  | columns columns => exact .columns s columns
  | push c f hc => exact .push s c f hc
  | predicate c => exact .predicate s c
  | limit f => exact .limit s f
  | op c op => exact .op s c op

theorem SessionEdits.edits (h : SessionEdits s t) : Edits s t :=
  ReflTransGen.mono (fun _ _ => SessionEdit.edit) s t h

theorem session_of_free (s : Statement) {c : ClauseKind} (hc : c.owner? = none) (f : Fragment) :
    SessionEdits s (s.push c f) := by
  refine (SessionEdit.push s c f fun k hk => ?_).session
  rw [hc] at hk
  cases hk

theorem session_of_owned {c : ClauseKind} {kind : StatementKind} (hc : c.owner? = some kind)
    (hs : s.kind = some kind) (f : Fragment) : SessionEdits s (s.push c f) := by
  refine (SessionEdit.push s c f fun k hk => ?_).session
  rw [hc] at hk
  exact hk ▸ hs

theorem session_pushAll {c : ClauseKind} (hc : ∀ k, c.owner? = some k → s.kind = some k)
    (fs : List Fragment) : SessionEdits s (s.pushAll c fs) := by
  induction fs generalizing s with
  | nil => exact .refl
  | cons f fs ih => exact .head (.push s c f hc) (ih hc)

theorem session_pushPredicate (s : Statement) {c : ClauseKind} (hc : c.owner? = none)
    (f : Fragment) (op : BoolOp) : SessionEdits s (s.pushPredicate c f op) :=
  (session_of_free s hc _).tail (.predicate _ c)

/-- What an attempt comes to. A statement with an error stays as it is, a step that succeeds is
taken, and one that fails leaves only its error behind. -/
theorem attempt_cases (s : Statement) (f : Statement → Outcome Statement) :
    ((∃ e, s.error = some e) ∧ s.attempt f = s) ∨
      (s.error = none ∧ ∃ t, f s = .ok t ∧ s.attempt f = t) ∨
      (s.error = none ∧ ∃ e, f s = .error e ∧ s.attempt f = { s with error := some e }) := by
  rw [attempt]
  cases s.error with
  | some e => exact .inl ⟨⟨e, rfl⟩, rfl⟩
  | none =>
    cases hstep : f s with
    | ok t => exact .inr (.inl ⟨rfl, t, rfl, rfl⟩)
    | error e => exact .inr (.inr ⟨rfl, e, rfl, rfl⟩)

theorem session_attempt {f : Statement → Outcome Statement}
    (hf : ∀ t, f s = .ok t → SessionEdits s t) : SessionEdits s (s.attempt f) := by
  rcases attempt_cases s f with ⟨-, h⟩ | ⟨-, t, hstep, h⟩ | ⟨hs, e, -, h⟩
  · rw [h]
  · rw [h]
    exact hf t hstep
  · rw [h]
    exact (SessionEdit.fail s e hs).session

theorem kind_switchKind (s : Statement) (kind : StatementKind) :
    (s.switchKind kind).kind = some kind := by
  rw [switchKind]
  cases hs : s.kind with
  | none => rfl
  | some k =>
    by_cases hk : k = kind
    · simp only [hk, if_true]
      rw [hs, hk]
    · simp only [hk, if_false]
      rfl

theorem switchKind_of_kind {kind : StatementKind} (h : s.kind = some kind) :
    s.switchKind kind = s := by
  rw [switchKind, h]
  simp

theorem error_switchKind (s : Statement) (kind : StatementKind) :
    (s.switchKind kind).error = s.error := by
  rw [switchKind]
  cases s.kind with
  | none => rfl
  | some k => by_cases hk : k = kind <;> simp [hk]

theorem session_attemptAs {kind : StatementKind} {f : Statement → Outcome Statement}
    (hf : ∀ s t, s.kind = some kind → f s = .ok t → SessionEdits s t) :
    SessionEdits s (s.attemptAs kind f) := by
  rw [attemptAs]
  cases s.error with
  | some e => exact .refl
  | none =>
    have hattempt :=
      session_attempt fun t ht => hf (s.switchKind kind) t (kind_switchKind s kind) ht
    exact .head (.switch s kind) hattempt

theorem session_source (s : Statement) (field : Field) : SessionEdits s (s.source field) := by
  apply session_attemptAs
  intro s t hs ht
  obtain ⟨-, -, ht⟩ := Outcome.exists_of_bind_eq_ok ht
  obtain ⟨fs, -, ht⟩ := Outcome.exists_of_bind_eq_ok ht
  cases ht
  exact session_pushAll (fun k hk => by cases hk; exact hs) fs

theorem session_select (s : Statement) (field : Field) : SessionEdits s (s.select field) := by
  apply session_attemptAs
  intro s t hs ht
  obtain ⟨-, -, ht⟩ := Outcome.exists_of_bind_eq_ok ht
  obtain ⟨fs, -, ht⟩ := Outcome.exists_of_bind_eq_ok ht
  cases ht
  exact session_pushAll (fun k hk => by cases hk; exact hs) fs

theorem session_selectJson (s : Statement) (spec : JsonSpec) (shape : JsonShape)
    (aliasName : String) : SessionEdits s (s.selectJson spec shape aliasName) := by
  apply session_attemptAs
  intro s t hs ht
  obtain ⟨text, -, ht⟩ := Outcome.exists_of_bind_eq_ok ht
  split at ht
  · cases ht
    exact .refl
  split at ht
  · cases ht
    exact session_of_owned rfl hs _
  · obtain ⟨name, -, ht⟩ := Outcome.exists_of_bind_eq_ok ht
    cases ht
    exact session_of_owned rfl hs _

theorem session_aggregate (s : Statement) (function : String) (field : Field)
    (aliasName : Option String) : SessionEdits s (s.aggregate function field aliasName) := by
  apply session_attemptAs
  intro s t hs ht
  split at ht
  · cases ht
  obtain ⟨fs, -, ht⟩ := Outcome.exists_of_bind_eq_ok ht
  dsimp only at ht
  split at ht
  · split at ht
    · cases ht
      exact session_of_owned rfl hs _
    · obtain ⟨name, -, ht⟩ := Outcome.exists_of_bind_eq_ok ht
      cases ht
      exact session_of_owned rfl hs _
  · cases ht

theorem session_pushRow {row : Row} (hs : s.kind = some .insert) (h : s.pushRow row = .ok t) :
    SessionEdits s t ∧ t.kind = some .insert := by
  rw [pushRow] at h
  split at h
  · cases h
  obtain ⟨pairs, -, h⟩ := Outcome.exists_of_bind_eq_ok h
  have hset : SessionEdits s (s.setColumns (pairs.map Prod.fst)) ∧
      (s.setColumns (pairs.map Prod.fst)).kind = some .insert := by
    rw [setColumns]
    split
    · exact ⟨(session_of_owned rfl hs _).tail (.columns _ _), hs⟩
    · exact ⟨.refl, hs⟩
  obtain ⟨values, -, h⟩ := Outcome.exists_of_bind_eq_ok h
  cases h
  exact ⟨hset.1.trans (session_of_owned rfl hset.2 _), hset.2⟩

theorem session_pushRows {rows : List Row} (hs : s.kind = some .insert)
    (h : rows.foldlM pushRow s = .ok t) : SessionEdits s t := by
  refine (Outcome.foldlM_keeps (fun u => SessionEdits s u ∧ u.kind = some .insert)
    (fun ⟨hedits, hu⟩ hrow => ?_) ⟨.refl, hs⟩ h).1
  obtain ⟨hmore, hu'⟩ := session_pushRow hu hrow
  exact ⟨hedits.trans hmore, hu'⟩

theorem session_insert (s : Statement) (rows : List Row) : SessionEdits s (s.insert rows) := by
  apply session_attemptAs
  intro s t hs ht
  split at ht
  · cases ht
  · exact session_pushRows hs ht

/-- PostgreSQL limits no statement that changes rows. -/
def LimitAllowed (s : Statement) : Prop :=
  s.engine = .postgres → s.kind = some .update ∨ s.kind = some .delete →
    s.state.clause .limit = []

theorem checkLimit_eq_ok_iff : s.checkLimit = .ok t ↔ t = s ∧ s.LimitAllowed := by
  have hrefused : (!(s.state.clause .limit).isEmpty && (s.kind = some .update ||
      s.kind = some .delete : Bool) && s.engine = .postgres) = true ↔ ¬s.LimitAllowed := by
    simp only [LimitAllowed, Bool.and_eq_true, Bool.not_eq_true', List.isEmpty_eq_false_iff,
      Bool.or_eq_true, decide_eq_true_eq]
    tauto
  rw [checkLimit]
  split
  · rename_i h
    exact iff_of_false (fun hok => nomatch hok) fun hallowed => hrefused.mp h hallowed.2
  · rename_i h
    have hallowed := not_not.mp (mt hrefused.mpr h)
    constructor
    · intro hok
      exact ⟨(Except.ok.inj hok).symm, hallowed⟩
    · rintro ⟨rfl, -⟩
      rfl

theorem eq_of_checkLimit (h : s.checkLimit = .ok t) : t = s := (checkLimit_eq_ok_iff.mp h).1

theorem session_update (s : Statement) (row : Row) : SessionEdits s (s.update row) := by
  apply session_attemptAs
  intro s t hs ht
  split at ht
  · cases ht
  obtain ⟨pairs, -, ht⟩ := Outcome.exists_of_bind_eq_ok ht
  rw [eq_of_checkLimit ht]
  exact session_pushAll (fun k hk => by cases hk; exact hs) _

theorem session_delete (s : Statement) : SessionEdits s s.delete := by
  apply session_attemptAs
  intro s t _ ht
  rw [eq_of_checkLimit ht]

theorem session_join (s : Statement) (kind : JoinKind) (field : Field) (on : String)
    (params : List Value) : SessionEdits s (s.join kind field on params) := by
  apply session_attempt
  intro t ht
  obtain ⟨-, -, ht⟩ := Outcome.exists_of_bind_eq_ok ht
  obtain ⟨f, -, ht⟩ := Outcome.exists_of_bind_eq_ok ht
  dsimp only at ht
  split at ht
  · cases ht
    exact session_of_free s rfl _
  · obtain ⟨condition, -, ht⟩ := Outcome.exists_of_bind_eq_ok ht
    cases ht
    exact session_of_free s rfl _

theorem session_predicateWith (s : Statement) {c : ClauseKind} (hc : c.owner? = none)
    (template : String) (params : List Value) (op : String) :
    SessionEdits s (s.predicateWith c template params op) := by
  apply session_attempt
  intro t ht
  split at ht
  · cases ht
  rw [pushTemplate] at ht
  split at ht
  · cases ht
  obtain ⟨text, -, ht⟩ := Outcome.exists_of_bind_eq_ok ht
  cases ht
  exact session_pushPredicate s hc _ _

theorem session_filterIn (s : Statement) (field : String) (values : Value) :
    SessionEdits s (s.filterIn field values) := by
  apply session_attempt
  intro t ht
  obtain ⟨text, -, ht⟩ := Outcome.exists_of_bind_eq_ok ht
  cases ht
  exact session_pushPredicate s rfl _ _

theorem session_filterInSub (s : Statement) (field : String) (sub : Statement) :
    SessionEdits s (s.filterInSub field sub) := by
  apply session_attempt
  intro t ht
  obtain ⟨name, -, ht⟩ := Outcome.exists_of_bind_eq_ok ht
  obtain ⟨view, -, ht⟩ := Outcome.exists_of_bind_eq_ok ht
  cases ht
  exact session_pushPredicate s rfl _ _

theorem session_search (s : Statement) (field : Field) (term : String) :
    SessionEdits s (s.search field term) := by
  apply session_attempt
  intro t ht
  split at ht
  · cases ht
  obtain ⟨fs, -, ht⟩ := Outcome.exists_of_bind_eq_ok ht
  obtain ⟨columns, -, ht⟩ := Outcome.exists_of_bind_eq_ok ht
  obtain ⟨text, -, ht⟩ := Outcome.exists_of_bind_eq_ok ht
  cases ht
  exact session_pushPredicate s rfl _ _

theorem session_groupBy (s : Statement) (field : Field) : SessionEdits s (s.groupBy field) := by
  apply session_attempt
  intro t ht
  obtain ⟨fs, -, ht⟩ := Outcome.exists_of_bind_eq_ok ht
  cases ht
  exact session_pushAll (fun k hk => by cases hk) fs

theorem session_orderBy (s : Statement) (field : Field) (direction : String) :
    SessionEdits s (s.orderBy field direction) := by
  apply session_attempt
  intro t ht
  split at ht
  · cases ht
  obtain ⟨fs, -, ht⟩ := Outcome.exists_of_bind_eq_ok ht
  cases ht
  exact session_pushAll (fun k hk => by cases hk) _

theorem session_limit (s : Statement) (offset count : Nat) :
    SessionEdits s (s.limit offset count) := by
  apply session_attempt
  intro t ht
  rw [eq_of_checkLimit ht]
  exact (SessionEdit.limit s _).session

theorem session_apply (s : Statement) {c : Call} (hc : c.Built) (hsession : c.InSession) :
    SessionEdits s (s.apply c) := by
  cases c with
  | config config => exact hsession.elim
  | table name => exact hsession.elim
  | withAlias name => exact hsession.elim
  | source field => exact session_source s field
  | select field => exact session_select s field
  | selectJson spec shape aliasName => exact session_selectJson s spec shape aliasName
  | aggregate function field aliasName => exact session_aggregate s function field aliasName
  | insert rows => exact session_insert s rows
  | update row => exact session_update s row
  | delete => exact session_delete s
  | join kind field on params => exact session_join s kind field on params
  | filter template params => exact session_predicateWith s rfl template params "AND"
  | filterWith template params op => exact session_predicateWith s rfl template params op
  | orFilter template params =>
    exact .head (.op s .filter .or) (session_predicateWith _ rfl template params "AND")
  | andFilter template params =>
    exact .head (.op s .filter .and) (session_predicateWith _ rfl template params "AND")
  | filterIn field values => exact session_filterIn s field values
  | filterInSub field sub => exact session_filterInSub s field sub
  | search field term => exact session_search s field term
  | having template params => exact session_predicateWith s rfl template params "AND"
  | havingWith template params op => exact session_predicateWith s rfl template params op
  | orHaving template params =>
    exact .head (.op s .having .or) (session_predicateWith _ rfl template params "AND")
  | connect op => exact (SessionEdit.op s _ op).session
  | groupBy field => exact session_groupBy s field
  | orderBy field direction => exact session_orderBy s field direction
  | limit offset count => exact session_limit s offset count
  | pushClause c f => exact hc.elim
  | reset => exact hsession.elim

theorem table_cases (s : Statement) (name : String) :
    ((∃ e, s.error = some e) ∧ s.table name = s) ∨
      (s.error = none ∧ ∃ text, targetText s.engine name = .ok text ∧
        s.table name = { s with state := { s.state with table := some text } }) ∨
      (s.error = none ∧ ∃ e, s.table name = { s with error := some e }) := by
  rcases attempt_cases s _ with ⟨hs, h⟩ | ⟨hs, t, hstep, h⟩ | ⟨hs, e, -, h⟩
  · exact .inl ⟨hs, h⟩
  · obtain ⟨f, hf, hstep⟩ := Outcome.exists_of_bind_eq_ok hstep
    obtain ⟨text, htext, hstep⟩ := Outcome.exists_of_bind_eq_ok hstep
    refine .inr (.inl ⟨hs, text, ?_, ?_⟩)
    · rw [targetText, hf]
      exact htext
    · cases hstep
      exact h
  · exact .inr (.inr ⟨hs, e, h⟩)

theorem edits_table (s : Statement) (name : String) : Edits s (s.table name) := by
  rcases table_cases s name with ⟨-, h⟩ | ⟨-, text, -, h⟩ | ⟨hs, e, h⟩
  · rw [h]
  · rw [h]
    exact (Edit.target s text).edits
  · rw [h]
    exact (Edit.fail s e hs).edits

theorem edits_apply (s : Statement) {c : Call} (hc : c.Built) : Edits s (s.apply c) := by
  by_cases hsession : c.InSession
  · exact (session_apply s hc hsession).edits
  cases c with
  | config config => exact (Edit.config s config).edits
  | table name => exact edits_table s name
  | withAlias name => exact (Edit.name s name).edits
  | reset => exact (Edit.reset s).edits
  | _ => exact absurd trivial hsession

theorem edits_run (s : Statement) {calls : List Call} (h : ∀ c ∈ calls, c.Built) :
    Edits s (s.run calls) := by
  induction calls generalizing s with
  | nil => exact .refl
  | cons c cs ih =>
    rw [List.forall_mem_cons] at h
    rw [run_cons]
    exact (edits_apply s h.1).trans (ih (s.apply c) h.2)

theorem dialect_switchKind (s : Statement) (kind : StatementKind) :
    (s.switchKind kind).dialect = s.dialect := by
  rw [switchKind]
  cases s.kind with
  | none => rfl
  | some k => by_cases hk : k = kind <;> simp [hk]

theorem engine_switchKind (s : Statement) (kind : StatementKind) :
    (s.switchKind kind).engine = s.engine :=
  congrArg Dialect.engine (dialect_switchKind s kind)

theorem dialect_edit (h : Edit s t) : t.dialect = s.dialect := by
  cases h with
  | switch kind => exact dialect_switchKind s kind
  | _ => rfl

theorem dialect_edits (h : Edits s t) : t.dialect = s.dialect := by
  induction h with
  | refl => rfl
  | tail _ hedit ih => rw [dialect_edit hedit, ih]

end Statement

end SqlBuilder
