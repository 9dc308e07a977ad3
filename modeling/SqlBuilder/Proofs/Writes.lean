import SqlBuilder.Proofs.Restored
import SqlBuilder.Proofs.Session

/-!
# What a call writes

A call that adds to a statement writes one clause. What it writes there, or the error it comes
to, is fixed by the call and the dialect: the rest of the statement has no part in it.
-/
namespace SqlBuilder

namespace Call

def clause? : Call → Option ClauseKind
  | .source _ => some .source
  | .select _ | .selectJson .. => some .select
  | .aggregate .. => some .aggregate
  | .insert _ => some .insert
  | .update _ => some .update
  | .join .. => some .join
  | .filter .. | .filterWith .. | .orFilter .. | .andFilter .. | .filterIn .. | .filterInSub ..
  | .search .. => some .filter
  | .having .. | .havingWith .. | .orHaving .. => some .having
  | .groupBy _ => some .grouping
  | .orderBy .. => some .ordering
  | .limit .. => some .limit
  | .pushClause c _ => some c
  | _ => none

/-- The clause whose newest predicate a call joins to its own, and the operator it takes. -/
def rejoins? : Call → Option (ClauseKind × BoolOp)
  | .orFilter .. => some (.filter, .or)
  | .andFilter .. => some (.filter, .and)
  | .orHaving .. => some (.having, .or)
  | _ => none

/-- The operator that a predicate comes with. -/
def ownOp : Call → BoolOp
  | .filterWith _ _ op | .havingWith _ _ op => (BoolOp.ofText? op).getD .and
  | .pushClause _ f => f.opOrAnd
  | _ => .and

/-- A call that adds to a query and to no other kind of statement alone. -/
def Selects (c : Call) : Prop :=
  c.Built ∧ ∃ k, c.clause? = some k ∧ k ≠ .insert ∧ k ≠ .update

end Call

@[simp] theorem Snapshot.mk_eta (v : Snapshot) :
    Snapshot.mk v.kind v.table v.isSub v.clauses = v := by
  cases v
  rfl

namespace Statement

variable {s t : Statement} {c : Call} {k : ClauseKind}

theorem attempt_congr {f g : Statement → Outcome Statement} (h : f s = g s) :
    s.attempt f = s.attempt g := by
  rw [attempt, attempt, h]

theorem error_of_run {calls : List Call} (hreset : .reset ∉ calls)
    (hok : (s.run calls).error = none) : s.error = none := by
  by_contra hne
  obtain ⟨e, he⟩ := Option.ne_none_iff_exists'.mp hne
  rw [(run_of_error he he (.refl s) hreset).1] at hok
  cases hok

/-- The statement as a call finds it once it has joined the newest predicate to its own. -/
def rejoined (s : Statement) (c : Call) : Statement :=
  match c.rejoins? with
  | some (k, op) => s.setLastOp k op
  | none => s

theorem rejoined_of_none (h : c.rejoins? = none) : s.rejoined c = s := by
  rw [rejoined, h]

theorem exists_predicateWith (e : Engine) (k : ClauseKind) (template : String)
    (params : List Value) (op : String) :
    ∃ x : Outcome Fragment, ∀ s : Statement, s.engine = e →
      s.predicateWith k template params op =
        s.attempt fun t => x.map fun f => t.pushPredicate k f ((BoolOp.ofText? op).getD .and) := by
  cases hop : BoolOp.ofText? op with
  | none =>
    refine ⟨.error (.operator (.notBoolOp op)), fun s _ => attempt_congr ?_⟩
    rw [hop]
    rfl
  | some op' =>
    refine ⟨if Text.blank template then .error (.shape .blankTemplate)
      else (e.prepare template params).map .ofText, fun s he => attempt_congr ?_⟩
    rw [hop]
    dsimp only
    rw [pushTemplate, he]
    split
    · rfl
    · cases e.prepare template params <;> rfl

theorem exists_predicate (e : Engine) (hk : k = .filter ∨ k = .having)
    (hc : c.clause? = some k) :
    ∃ x : Outcome Fragment, ∀ s : Statement, s.engine = e → s.error = none →
      s.apply c = (s.rejoined c).attempt fun t => x.map fun f => t.pushPredicate k f c.ownOp := by
  cases c with
  | filter template params =>
    cases hc
    obtain ⟨x, hx⟩ := exists_predicateWith e .filter template params "AND"
    exact ⟨x, fun s he _ => hx s he⟩
  | filterWith template params op =>
    cases hc
    obtain ⟨x, hx⟩ := exists_predicateWith e .filter template params op
    exact ⟨x, fun s he _ => hx s he⟩
  | orFilter template params =>
    cases hc
    obtain ⟨x, hx⟩ := exists_predicateWith e .filter template params "AND"
    exact ⟨x, fun s he _ => hx (s.setLastOp .filter .or) he⟩
  | andFilter template params =>
    cases hc
    obtain ⟨x, hx⟩ := exists_predicateWith e .filter template params "AND"
    exact ⟨x, fun s he _ => hx (s.setLastOp .filter .and) he⟩
  | filterIn field values =>
    cases hc
    refine ⟨(e.prepare "?? IN (?)" [.text field, values]).map .ofText, fun s he _ => ?_⟩
    rw [apply, filterIn, rejoined_of_none rfl]
    apply attempt_congr
    rw [he]
    cases e.prepare "?? IN (?)" [.text field, values] <;> rfl
  | filterInSub field sub =>
    cases hc
    refine ⟨do
      let name ← e.quoteIdent field
      let view ← sub.nested e
      return ⟨[.sql (name ++ " IN "), .sub view], none⟩, fun s he _ => ?_⟩
    rw [apply, filterInSub, rejoined_of_none rfl]
    apply attempt_congr
    simp only [he, Outcome.map_bind]
    rfl
  | search field term =>
    cases hc
    refine ⟨if hasNoSearchField field then .error .emptySearch else do
      let columns ← (← field.fragments e).mapM searchColumn
      let text ← e.fulltext columns term
      return .ofText text, fun s he _ => ?_⟩
    rw [apply, search, rejoined_of_none rfl]
    apply attempt_congr
    rw [he]
    split
    · rfl
    · simp only [Outcome.map_bind]
      rfl
  | having template params =>
    cases hc
    obtain ⟨x, hx⟩ := exists_predicateWith e .having template params "AND"
    exact ⟨x, fun s he _ => hx s he⟩
  | havingWith template params op =>
    cases hc
    obtain ⟨x, hx⟩ := exists_predicateWith e .having template params op
    exact ⟨x, fun s he _ => hx s he⟩
  | orHaving template params =>
    cases hc
    obtain ⟨x, hx⟩ := exists_predicateWith e .having template params "AND"
    exact ⟨x, fun s he _ => hx (s.setLastOp .having .or) he⟩
  | pushClause c f =>
    cases hc
    refine ⟨.ok f, fun s _ hs => ?_⟩
    have hpush : s.apply (.pushClause k f) = s.pushPredicate k f f.opOrAnd := by
      rcases hk with rfl | rfl <;> rfl
    rw [hpush, rejoined_of_none rfl, attempt, hs]
    rfl
  | _ => rcases hk with rfl | rfl <;> cases hc

/-- What becomes of the fragments of a clause, which may be absent. -/
abbrev Change := Option (List Fragment) → Option (List Fragment)

def appended (fs : List Fragment) : Change := fun old =>
  fs.foldl (fun fs f => some (fs.getD [] ++ [f])) old

def rejoinedBy (op : BoolOp) : Change := fun old =>
  match (old.getD []).getLast? with
  | none => old
  | some f => some ((old.getD []).dropLast ++ [f.withOp op])

def changed (s : Statement) (k : ClauseKind) (g : Change) : Statement :=
  { s with
    state := { s.state with clauses := s.state.clauses.set k (g (s.state.clauses.get k)) } }

theorem changed_changed (s : Statement) (k : ClauseKind) (g h : Change) :
    (s.changed k g).changed k h = s.changed k (h ∘ g) := by
  simp [changed]

theorem changed_of_eq {g : Change} (h : g (s.state.clauses.get k) = s.state.clauses.get k) :
    s.changed k g = s := by
  simp [changed, h]

theorem pushAll_eq_changed (s : Statement) (k : ClauseKind) (fs : List Fragment) :
    s.pushAll k fs = s.changed k (appended fs) := by
  induction fs generalizing s with
  | nil => exact (changed_of_eq rfl).symm
  | cons f fs ih =>
    have hpush : s.pushAll k (f :: fs) = (s.changed k (appended [f])).pushAll k fs := rfl
    rw [hpush, ih, changed_changed]
    rfl

theorem setLastOp_eq_changed (s : Statement) (k : ClauseKind) (op : BoolOp) :
    s.setLastOp k op = s.changed k (rejoinedBy op) := by
  have hclause : s.state.clause k = (s.state.clauses.get k).getD [] := rfl
  rw [setLastOp, Snapshot.setLastOp, hclause]
  cases hlast : ((s.state.clauses.get k).getD []).getLast? with
  | none => exact (changed_of_eq (by rw [rejoinedBy, hlast])).symm
  | some f =>
    rw [changed, rejoinedBy, hlast]
    rfl

/-- A query, or a statement that may become one, without an error. -/
structure Selecting (s : Statement) : Prop where
  error : s.error = none
  kind : s.kind = none ∨ s.kind = some .select

def chosen (s : Statement) (c : Call) : Statement :=
  { s with state := { s.state with kind := c.chosen?.or s.kind } }

theorem switchKind_select (h : Selecting s) :
    s.switchKind .select = { s with state := { s.state with kind := some .select } } := by
  rw [switchKind]
  rcases h.kind with hk | hk
  · rw [hk]
  · simp only [hk, if_true]
    rw [← hk, kind, Snapshot.mk_eta]

/-- What a call makes of a statement: a change of one clause, or an error. -/
inductive Performs (s : Statement) (k : ClauseKind) : Outcome Change → Statement → Prop where
  | done {g : Change} {t : Statement} : Twin t (s.changed k g) → Performs s k (.ok g) t
  | failed {e : SqlError} {t : Statement} : t.error = some e → Performs s k (.error e) t

/-- What the call does to the clause of a query is fixed by the call and the dialect. -/
def Fixed (d : Dialect) (k : ClauseKind) (c : Call) : Prop :=
  ∃ x : Outcome Change, ∀ s : Statement, s.dialect = d → Selecting s →
    Performs (s.chosen c) k x (s.apply c)

theorem performs_attempt (hs : s.error = none) {x : Outcome Change}
    {f : Statement → Outcome Statement} (h : f s = x.map (s.changed k)) :
    Performs s k x (s.attempt f) := by
  rw [attempt, hs, h]
  cases x with
  | ok g => exact .done (.refl _)
  | error e => exact .failed rfl

theorem chosen_of_none (h : c.chosen? = none) : s.chosen c = s := by
  simp [chosen, h, kind]

/-- What a call makes of its clause, predicates aside. -/
def written (d : Dialect) : Call → Outcome Change
  | .source field => do
    field.requireName .source
    return appended (← field.fragments d.engine)
  | .select field => do
    field.requireName .selectList
    return appended (← field.fragments d.engine)
  | .selectJson spec shape aliasName => do
    let text ← spec.compile d shape
    if text = "" then return id
    else if Text.blank aliasName then return appended [.ofText text]
    else
      let aliasName ← d.engine.quoteIdent aliasName
      return appended [.ofText (text ++ " AS " ++ aliasName)]
  | .aggregate function field aliasName =>
    match Aggregate.ofText? function with
    | none => .error (.unsupportedAggregate function)
    | some function => do
      match ← field.fragments d.engine with
      | [f] =>
        let call := (f.after (function.keyword ++ "(")).before ")"
        match aliasName with
        | none => return appended [call]
        | some aliasName =>
          let aliasName ← d.engine.quoteIdent aliasName
          return appended [call.before (" AS " ++ aliasName)]
      | fs => .error (.shape (.fieldCount function fs.length))
  | .join kind field on params => do
    field.requireName .join
    let f := (← field.joined d.engine).after (kind.keyword ++ " ")
    if Text.blank on then return appended [f]
    else
      let condition ← d.engine.prepare on params
      return appended [f.before (" ON " ++ condition)]
  | .groupBy field => do return appended (← field.fragments d.engine)
  | .orderBy field direction =>
    match SortOrder.ofText? direction with
    | none => .error (.operator (.notSortOrder direction))
    | some order => do
      let fs ← field.fragments d.engine
      return appended (fs.map fun f => f.before (" " ++ order.keyword))
  | .limit offset count => .ok fun _ => some [.ofText (d.engine.limit offset count)]
  | _ => .ok id

theorem fixed_of_attempt {f : Statement → Outcome Statement}
    (hchosen : c.chosen? = none) (happly : ∀ s : Statement, s.apply c = s.attempt f)
    (hf : ∀ s : Statement, Selecting s → f s = (written s.dialect c).map (s.changed k))
    (d : Dialect) : Fixed d k c := by
  refine ⟨written d c, fun s hd hs => ?_⟩
  rw [chosen_of_none hchosen, happly, ← hd]
  exact performs_attempt hs.error (hf s hs)

theorem fixed_of_attemptAs {f : Statement → Outcome Statement}
    (hchosen : c.chosen? = some .select)
    (happly : ∀ s : Statement, s.apply c = s.attemptAs .select f)
    (hf : ∀ s : Statement, f s = (written s.dialect c).map (s.changed k)) (d : Dialect) :
    Fixed d k c := by
  refine ⟨written d c, fun s hd hs => ?_⟩
  have hswitch : s.switchKind .select = s.chosen c := by
    rw [switchKind_select hs, chosen, hchosen]
    rfl
  rw [happly, attemptAs, hs.error, hswitch, ← hd]
  exact performs_attempt (s := s.chosen c) hs.error (hf (s.chosen c))

theorem fixed_source (field : Field) : ∀ d, Fixed d .source (.source field) := by
  refine fixed_of_attemptAs rfl (fun _ => rfl) fun s => ?_
  simp only [written, Outcome.map_bind, pushAll_eq_changed]
  rfl

theorem fixed_select (field : Field) : ∀ d, Fixed d .select (.select field) := by
  refine fixed_of_attemptAs rfl (fun _ => rfl) fun s => ?_
  simp only [written, Outcome.map_bind, pushAll_eq_changed]
  rfl

theorem fixed_selectJson (spec : JsonSpec) (shape : JsonShape) (aliasName : String) :
    ∀ d, Fixed d .select (.selectJson spec shape aliasName) := by
  refine fixed_of_attemptAs rfl (fun _ => rfl) fun s => ?_
  rw [written, Outcome.map_bind]
  congr 1
  funext text
  split
  · exact congrArg Except.ok (changed_of_eq rfl).symm
  split
  · rfl
  · rw [Outcome.map_bind]
    rfl

theorem fixed_aggregate (function : String) (field : Field) (aliasName : Option String) :
    ∀ d, Fixed d .aggregate (.aggregate function field aliasName) := by
  refine fixed_of_attemptAs rfl (fun _ => rfl) fun s => ?_
  rw [written]
  cases Aggregate.ofText? function with
  | none => rfl
  | some function =>
    dsimp only
    rw [Outcome.map_bind]
    congr 1
    funext fs
    rcases fs with _ | ⟨f, _ | ⟨g, fs⟩⟩
    · rfl
    · cases aliasName with
      | none => rfl
      | some aliasName =>
        dsimp only
        rw [Outcome.map_bind]
        rfl
    · rfl

theorem fixed_join (kind : JoinKind) (field : Field) (on : String) (params : List Value) :
    ∀ d, Fixed d .join (.join kind field on params) := by
  refine fixed_of_attempt rfl (fun _ => rfl) fun s _ => ?_
  simp only [written, Outcome.map_bind]
  congr 1
  funext _
  congr 1
  funext f
  split
  · rfl
  · rw [Outcome.map_bind]
    rfl

theorem fixed_groupBy (field : Field) : ∀ d, Fixed d .grouping (.groupBy field) := by
  refine fixed_of_attempt rfl (fun _ => rfl) fun s _ => ?_
  simp only [written, Outcome.map_bind, pushAll_eq_changed]
  rfl

theorem fixed_orderBy (field : Field) (direction : String) :
    ∀ d, Fixed d .ordering (.orderBy field direction) := by
  refine fixed_of_attempt rfl (fun _ => rfl) fun s _ => ?_
  rw [written]
  cases SortOrder.ofText? direction with
  | none => rfl
  | some order =>
    simp only [Outcome.map_bind, pushAll_eq_changed]
    rfl

theorem checkLimit_of_selecting (hs : Selecting s) : s.checkLimit = .ok s := by
  have hchanges : (s.kind = some .update || s.kind = some .delete) = false := by
    rcases hs.kind with hk | hk <;> rw [hk] <;> decide
  rw [checkLimit]
  simp [hchanges]

theorem fixed_limit (offset count : Nat) : ∀ d, Fixed d .limit (.limit offset count) := by
  refine fixed_of_attempt rfl (fun _ => rfl) fun s hs => ?_
  exact checkLimit_of_selecting ⟨hs.error, hs.kind⟩

theorem clause_of_rejoins {op : BoolOp} (h : c.rejoins? = some (k, op)) :
    c.clause? = some k := by
  cases c <;> cases h <;> rfl

theorem exists_rejoined (hc : c.clause? = some k) :
    ∃ g, ∀ s : Statement, s.rejoined c = s.changed k g := by
  cases hrejoins : c.rejoins? with
  | none =>
    refine ⟨id, fun s => ?_⟩
    rw [rejoined_of_none hrejoins]
    exact (changed_of_eq rfl).symm
  | some p =>
    obtain ⟨k', op⟩ := p
    rw [clause_of_rejoins hrejoins] at hc
    cases hc
    refine ⟨rejoinedBy op, fun s => ?_⟩
    rw [rejoined, hrejoins]
    exact setLastOp_eq_changed s k op

theorem fixed_predicate (d : Dialect) (hk : k = .filter ∨ k = .having)
    (hc : c.clause? = some k) : Fixed d k c := by
  obtain ⟨x, hx⟩ := exists_predicate d.engine hk hc
  obtain ⟨g, hg⟩ := exists_rejoined hc
  have hchosen : c.chosen? = none := by
    rcases hk with rfl | rfl <;> cases c <;> first | rfl | cases hc
  refine ⟨x.map fun f => appended [f.withOp c.ownOp] ∘ g, fun s hd hs => ?_⟩
  have herror : (s.changed k g).error = none := hs.error
  rw [chosen_of_none hchosen, hx s (congrArg Dialect.engine hd) hs.error, hg, attempt, herror]
  cases x with
  | error err => exact .failed rfl
  | ok f =>
    refine .done ?_
    rw [← changed_changed]
    exact ⟨rfl, rfl, rfl, rfl⟩

theorem fixed_of_selects (d : Dialect) (hselects : c.Selects) (hc : c.clause? = some k) :
    Fixed d k c := by
  obtain ⟨hbuilt, k', hk', hinsert, hupdate⟩ := hselects
  rw [hc] at hk'
  cases hk'
  cases c with
  | source field => cases hc; exact fixed_source field d
  | select field => cases hc; exact fixed_select field d
  | selectJson spec shape aliasName => cases hc; exact fixed_selectJson spec shape aliasName d
  | aggregate function field aliasName =>
    cases hc
    exact fixed_aggregate function field aliasName d
  | insert rows => cases hc; exact absurd rfl hinsert
  | update row => cases hc; exact absurd rfl hupdate
  | join kind field on params => cases hc; exact fixed_join kind field on params d
  | groupBy field => cases hc; exact fixed_groupBy field d
  | orderBy field direction => cases hc; exact fixed_orderBy field direction d
  | limit offset count => cases hc; exact fixed_limit offset count d
  | pushClause c f => exact hbuilt.elim
  | filter | filterWith | orFilter | andFilter | filterIn | filterInSub | search =>
    cases hc
    exact fixed_predicate d (.inl rfl) rfl
  | having | havingWith | orHaving =>
    cases hc
    exact fixed_predicate d (.inr rfl) rfl
  | _ => cases hc

end Statement

end SqlBuilder
