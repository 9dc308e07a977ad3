import SqlBuilder.Proofs.Kept
import SqlBuilder.Proofs.Nesting
import SqlBuilder.Proofs.Rows
import SqlBuilder.Proofs.Writes

/-!
# What a call adds

A call that adds to a clause puts fragments behind those that stand there, and makes them of texts
and of the statements that it is given. So whatever is nested in a statement was given to one of
the calls that built it.
-/
namespace SqlBuilder

def Field.statements : Field → List Statement
  | .statement s => [s]
  | _ => []

namespace Call

def statements : Call → List Statement
  | .source field | .select field | .aggregate _ field _ | .join _ field _ _ | .search field _
  | .groupBy field | .orderBy field _ => field.statements
  | .filterInSub _ sub => [sub]
  | _ => []

end Call

namespace Fragment

variable {e : Engine} {given : List Statement} {f g : Fragment}

/-- What is nested in the fragment are views of these statements. -/
def From (e : Engine) (given : List Statement) (f : Fragment) : Prop :=
  ∀ v ∈ f.subs, ∃ t ∈ given, t.nested e = .ok v

theorem from_ofText (text : String) : (ofText text).From e given := by
  rw [From, subs_ofText]
  intro v hv
  exact absurd hv List.not_mem_nil

theorem From.withOp (h : f.From e given) (op : BoolOp) : (f.withOp op).From e given := by
  rw [From, subs_withOp]
  exact h

theorem From.after (h : f.From e given) (text : String) : (f.after text).From e given := by
  rw [From, subs_after]
  exact h

theorem From.before (h : f.From e given) (text : String) : (f.before text).From e given := by
  rw [From, subs_before]
  exact h

theorem From.join (h : f.From e given) (h' : g.From e given) (sep : String) :
    (Fragment.join sep f g).From e given := by
  rw [From, subs_join]
  intro v hv
  exact (List.mem_append.mp hv).elim (h v) (h' v)

theorem From.foldl_join {fs : List Fragment} (h : f.From e given)
    (hfs : ∀ g ∈ fs, g.From e given) (sep : String) :
    (fs.foldl (Fragment.join sep) f).From e given := by
  induction fs generalizing f with
  | nil => exact h
  | cons g fs ih =>
    rw [List.forall_mem_cons] at hfs
    exact ih (h.join hfs.1 sep) hfs.2

end Fragment

namespace Field

variable {e : Engine} {field : Field} {f : Fragment} {fs : List Fragment}

theorem from_of_texts {α : Type} {xs : List α} {text : α → Outcome String}
    {given : List Statement} (h : (xs.mapM fun x => (text x).map Fragment.ofText) = .ok fs) :
    ∀ f ∈ fs, f.From e given := by
  intro f hf
  obtain ⟨x, -, hx⟩ := Outcome.mem_of_mapM_eq_ok h hf
  obtain ⟨t, -, rfl⟩ := Outcome.exists_of_map_eq_ok hx
  exact Fragment.from_ofText t

theorem from_statementFragment {s : Statement} (h : statementFragment e s = .ok f) :
    f.From e [s] := by
  obtain ⟨view, hview, h⟩ := Outcome.exists_of_bind_eq_ok h
  -- the alias is a text behind the statement
  have hsubs : f.subs = [view] := by
    cases halias : s.aliasName with
    | none =>
      rw [halias] at h
      cases h
      rfl
    | some name =>
      rw [halias] at h
      obtain ⟨text, -, h⟩ := Outcome.exists_of_bind_eq_ok h
      cases h
      rfl
  intro v hv
  rw [hsubs, List.mem_singleton] at hv
  exact ⟨s, List.mem_singleton_self s, hv ▸ hview⟩

theorem from_fragments (h : field.fragments e = .ok fs) :
    ∀ f ∈ fs, f.From e field.statements := by
  cases field with
  | text s => exact from_of_texts h
  | list names =>
    cases names with
    | nil => cases h
    | cons name names => exact from_of_texts h
  | ident name =>
    obtain ⟨text, -, rfl⟩ := Outcome.exists_of_map_eq_ok h
    exact List.forall_mem_singleton.mpr (Fragment.from_ofText text)
  | raw sql =>
    cases h
    exact List.forall_mem_singleton.mpr (Fragment.from_ofText _)
  | statement s =>
    obtain ⟨f, hf, rfl⟩ := Outcome.exists_of_map_eq_ok h
    exact List.forall_mem_singleton.mpr (from_statementFragment hf)

theorem from_joined (h : field.joined e = .ok f) : f.From e field.statements := by
  obtain ⟨fs, hfs, h⟩ := Outcome.exists_of_bind_eq_ok h
  have hfrom := from_fragments hfs
  cases fs with
  | nil => cases h
  | cons g fs =>
    cases h
    rw [List.forall_mem_cons] at hfrom
    exact hfrom.1.foldl_join hfrom.2 ", "

end Field

namespace Statement

variable {s t : Statement} {c : Call} {k : ClauseKind} {given : List Statement}

def begun (s : Statement) (c : Call) : Statement :=
  match c.chosen? with
  | none => s
  | some kind => s.switchKind kind

theorem begun_of_none (h : c.chosen? = none) : s.begun c = s := by rw [begun, h]

theorem begun_of_some {kind : StatementKind} (h : c.chosen? = some kind) :
    s.begun c = s.switchKind kind := by
  rw [begun, h]

/-- The step puts fragments made of the given statements behind those of the clause. -/
structure Adds (k : ClauseKind) (given : List Statement) (s t : Statement) : Prop where
  dialect : t.dialect = s.dialect
  state : ∃ fs, t.state = s.state.pushAll k fs ∧ ∀ f ∈ fs, f.From s.engine given
  predicate : t.lastPredicate = s.lastPredicate ∨
    (k = .filter ∨ k = .having) ∧ t.lastPredicate = some k

theorem exists_of_attempt {f : Statement → Outcome Statement} (herror : s.error = none)
    (hok : (s.attempt f).error = none) : ∃ t, f s = .ok t ∧ s.attempt f = t := by
  rcases attempt_cases s f with ⟨⟨e, he⟩, -⟩ | ⟨-, t, hstep, h⟩ | ⟨-, e, -, h⟩
  · rw [herror] at he
    cases he
  · exact ⟨t, hstep, h⟩
  · rw [h] at hok
    cases hok

theorem attemptAs_of_none (herror : s.error = none) (kind : StatementKind)
    (f : Statement → Outcome Statement) :
    s.attemptAs kind f = (s.switchKind kind).attempt f := by
  rw [attemptAs, herror]

theorem exists_of_attemptAs {kind : StatementKind} {f : Statement → Outcome Statement}
    (herror : s.error = none) (hok : (s.attemptAs kind f).error = none) :
    ∃ t, f (s.switchKind kind) = .ok t ∧ s.attemptAs kind f = t := by
  rw [attemptAs_of_none herror] at hok ⊢
  exact exists_of_attempt ((error_switchKind s kind).trans herror) hok

namespace Adds

theorem pushAll {fs : List Fragment} (h : ∀ f ∈ fs, f.From s.engine given) :
    Adds k given s (s.pushAll k fs) :=
  ⟨rfl, ⟨fs, rfl, h⟩, .inl rfl⟩

theorem nothing (s : Statement) : Adds k given s s :=
  ⟨rfl, ⟨[], rfl, fun _ hf => absurd hf List.not_mem_nil⟩, .inl rfl⟩

theorem push {f : Fragment} (h : f.From s.engine given) : Adds k given s (s.push k f) :=
  pushAll (List.forall_mem_singleton.mpr h)

theorem pushText (s : Statement) (text : String) : Adds k given s (s.push k (.ofText text)) :=
  push (Fragment.from_ofText text)

theorem pushPredicate (hk : k = .filter ∨ k = .having) {f : Fragment}
    (h : f.From s.engine given) (op : BoolOp) : Adds k given s (s.pushPredicate k f op) :=
  ⟨rfl, ⟨[f.withOp op], rfl, List.forall_mem_singleton.mpr (h.withOp op)⟩, .inr ⟨hk, rfl⟩⟩

theorem trans {u : Statement} (h : Adds k given s t) (h' : Adds k given t u) :
    Adds k given s u := by
  obtain ⟨fs, hfs, hfrom⟩ := h.state
  obtain ⟨gs, hgs, hgfrom⟩ := h'.state
  have hengine : t.engine = s.engine := congrArg Dialect.engine h.dialect
  refine ⟨h'.dialect.trans h.dialect, ⟨fs ++ gs, ?_, ?_⟩, ?_⟩
  · rw [hgs, hfs, Snapshot.pushAll, Snapshot.pushAll, Snapshot.pushAll, List.foldl_append]
  · exact List.forall_mem_append.mpr ⟨hfrom, hengine ▸ hgfrom⟩
  · rcases h'.predicate with hsame | hnew
    · rw [hsame]
      exact h.predicate
    · exact .inr hnew

theorem attempt {f : Statement → Outcome Statement} (herror : s.error = none)
    (hok : (s.attempt f).error = none) (hf : ∀ t, f s = .ok t → Adds k given s t) :
    Adds k given s (s.attempt f) := by
  obtain ⟨t, hstep, h⟩ := exists_of_attempt herror hok
  rw [h]
  exact hf t hstep

theorem attemptAs {kind : StatementKind} {f : Statement → Outcome Statement}
    (herror : s.error = none) (hok : (s.attemptAs kind f).error = none)
    (hf : ∀ {s t}, f s = .ok t → Adds k given s t) :
    Adds k given (s.switchKind kind) (s.attemptAs kind f) := by
  obtain ⟨t, hstep, h⟩ := exists_of_attemptAs herror hok
  rw [h]
  exact hf hstep

theorem aggregate {function : String} {field : Field} {aliasName : Option String}
    (herror : s.error = none) (hok : (s.aggregate function field aliasName).error = none) :
    Adds .aggregate field.statements (s.switchKind .select)
      (s.aggregate function field aliasName) := by
  refine attemptAs herror hok fun {s t} ht => ?_
  split at ht
  · cases ht
  obtain ⟨fs, hfs, ht⟩ := Outcome.exists_of_bind_eq_ok ht
  dsimp only at ht
  split at ht
  · have hf := List.forall_mem_singleton.mp (Field.from_fragments hfs)
    split at ht
    · cases ht
      exact push ((hf.after _).before ")")
    · obtain ⟨name, -, ht⟩ := Outcome.exists_of_bind_eq_ok ht
      cases ht
      exact push (((hf.after _).before ")").before _)
  · cases ht

theorem pushRow {row : Row} (h : s.pushRow row = .ok t) : Adds .insert given s t := by
  obtain ⟨pairs, values, -, -, rfl⟩ := pushRow_eq_ok_iff.mp h
  refine trans ?_ (pushText _ _)
  rw [setColumns]
  split
  · exact ⟨rfl, (pushText s _).state, .inl rfl⟩
  · exact nothing s

theorem insert {rows : List Row} (herror : s.error = none)
    (hok : (s.insert rows).error = none) :
    Adds .insert given (s.switchKind .insert) (s.insert rows) := by
  refine attemptAs herror hok fun {s t} ht => ?_
  split at ht
  · cases ht
  · exact Outcome.foldlM_keeps (Adds .insert given s) (fun hu hrow => hu.trans (pushRow hrow))
      (nothing s) ht

theorem update {row : Row} (herror : s.error = none) (hok : (s.update row).error = none) :
    Adds .update given (s.switchKind .update) (s.update row) := by
  refine attemptAs herror hok fun {s t} ht => ?_
  split at ht
  · cases ht
  obtain ⟨pairs, -, ht⟩ := Outcome.exists_of_bind_eq_ok ht
  rw [eq_of_checkLimit ht]
  refine pushAll fun f hf => ?_
  obtain ⟨p, -, rfl⟩ := List.mem_map.mp hf
  exact Fragment.from_ofText _

theorem join {kind : JoinKind} {field : Field} {on : String} {params : List Value}
    (herror : s.error = none) (hok : (s.join kind field on params).error = none) :
    Adds .join field.statements s (s.join kind field on params) := by
  refine attempt herror hok fun t ht => ?_
  obtain ⟨-, -, ht⟩ := Outcome.exists_of_bind_eq_ok ht
  obtain ⟨f, hf, ht⟩ := Outcome.exists_of_bind_eq_ok ht
  have hfrom := (Field.from_joined hf).after (kind.keyword ++ " ")
  dsimp only at ht
  split at ht
  · cases ht
    exact push hfrom
  · obtain ⟨condition, -, ht⟩ := Outcome.exists_of_bind_eq_ok ht
    cases ht
    exact push (hfrom.before _)

theorem predicateWith (hk : k = .filter ∨ k = .having) (template : String)
    (params : List Value) (op : String) (herror : s.error = none)
    (hok : (s.predicateWith k template params op).error = none) :
    Adds k given s (s.predicateWith k template params op) := by
  refine attempt herror hok fun t ht => ?_
  split at ht
  · cases ht
  rw [pushTemplate] at ht
  split at ht
  · cases ht
  obtain ⟨text, -, ht⟩ := Outcome.exists_of_bind_eq_ok ht
  cases ht
  exact pushPredicate hk (Fragment.from_ofText text) _

theorem filterIn {field : String} {values : Value} (herror : s.error = none)
    (hok : (s.filterIn field values).error = none) :
    Adds .filter given s (s.filterIn field values) := by
  refine attempt herror hok fun t ht => ?_
  obtain ⟨text, -, ht⟩ := Outcome.exists_of_bind_eq_ok ht
  cases ht
  exact pushPredicate (.inl rfl) (Fragment.from_ofText text) _

theorem filterInSub {field : String} {sub : Statement} (herror : s.error = none)
    (hok : (s.filterInSub field sub).error = none) :
    Adds .filter [sub] s (s.filterInSub field sub) := by
  refine attempt herror hok fun t ht => ?_
  obtain ⟨name, -, ht⟩ := Outcome.exists_of_bind_eq_ok ht
  obtain ⟨view, hview, ht⟩ := Outcome.exists_of_bind_eq_ok ht
  cases ht
  refine pushPredicate (.inl rfl) (fun v hv => ?_) .and
  have hv' : v = view := List.mem_singleton.mp hv
  exact ⟨sub, List.mem_singleton_self sub, hv' ▸ hview⟩

theorem search {field : Field} {term : String} (herror : s.error = none)
    (hok : (s.search field term).error = none) : Adds .filter given s (s.search field term) := by
  refine attempt herror hok fun t ht => ?_
  split at ht
  · cases ht
  obtain ⟨fs, -, ht⟩ := Outcome.exists_of_bind_eq_ok ht
  obtain ⟨columns, -, ht⟩ := Outcome.exists_of_bind_eq_ok ht
  obtain ⟨text, -, ht⟩ := Outcome.exists_of_bind_eq_ok ht
  cases ht
  exact pushPredicate (.inl rfl) (Fragment.from_ofText text) _

theorem groupBy {field : Field} (herror : s.error = none)
    (hok : (s.groupBy field).error = none) :
    Adds .grouping field.statements s (s.groupBy field) := by
  refine attempt herror hok fun t ht => ?_
  obtain ⟨fs, hfs, ht⟩ := Outcome.exists_of_bind_eq_ok ht
  cases ht
  exact pushAll (Field.from_fragments hfs)

theorem orderBy {field : Field} {direction : String} (herror : s.error = none)
    (hok : (s.orderBy field direction).error = none) :
    Adds .ordering field.statements s (s.orderBy field direction) := by
  refine attempt herror hok fun t ht => ?_
  split at ht
  · cases ht
  obtain ⟨fs, hfs, ht⟩ := Outcome.exists_of_bind_eq_ok ht
  cases ht
  refine pushAll fun f hf => ?_
  obtain ⟨g, hg, rfl⟩ := List.mem_map.mp hf
  exact (Field.from_fragments hfs g hg).before _

end Adds

/-- A call that succeeds adds to its own clause, once it has chosen its kind and joined the newest
predicate to its own. A limit adds nothing: it takes the place of the one before it. -/
theorem adds_apply (hbuilt : c.Built) (hc : c.clause? = some k) (hk : k ≠ .limit)
    (herror : s.error = none) (hok : (s.apply c).error = none) :
    Adds k c.statements ((s.begun c).rejoined c) (s.apply c) := by
  cases c with
  | source field | select field =>
    cases hc
    refine .attemptAs herror hok fun ht => ?_
    obtain ⟨-, -, ht⟩ := Outcome.exists_of_bind_eq_ok ht
    obtain ⟨fs, hfs, ht⟩ := Outcome.exists_of_bind_eq_ok ht
    cases ht
    exact .pushAll (Field.from_fragments hfs)
  | selectJson spec shape aliasName =>
    cases hc
    refine .attemptAs herror hok fun ht => ?_
    obtain ⟨text, -, ht⟩ := Outcome.exists_of_bind_eq_ok ht
    split at ht
    · cases ht
      exact .nothing _
    split at ht
    · cases ht
      exact .pushText _ text
    · obtain ⟨name, -, ht⟩ := Outcome.exists_of_bind_eq_ok ht
      cases ht
      exact .pushText _ _
  | aggregate function field aliasName => cases hc; exact .aggregate herror hok
  | insert rows => cases hc; exact .insert herror hok
  | update row => cases hc; exact .update herror hok
  | join kind field on params => cases hc; exact .join herror hok
  | filter template params =>
    cases hc
    exact .predicateWith (.inl rfl) template params "AND" herror hok
  | filterWith template params op =>
    cases hc
    exact .predicateWith (.inl rfl) template params op herror hok
  | orFilter template params =>
    cases hc
    exact .predicateWith (s := s.setLastOp .filter .or) (.inl rfl) template params "AND" herror hok
  | andFilter template params =>
    cases hc
    exact .predicateWith (s := s.setLastOp .filter .and) (.inl rfl) template params "AND" herror hok
  | filterIn field values => cases hc; exact .filterIn herror hok
  | filterInSub field sub => cases hc; exact .filterInSub herror hok
  | search field term => cases hc; exact .search herror hok
  | having template params =>
    cases hc
    exact .predicateWith (.inr rfl) template params "AND" herror hok
  | havingWith template params op =>
    cases hc
    exact .predicateWith (.inr rfl) template params op herror hok
  | orHaving template params =>
    cases hc
    exact .predicateWith (s := s.setLastOp .having .or) (.inr rfl) template params "AND" herror hok
  | groupBy field => cases hc; exact .groupBy herror hok
  | orderBy field direction => cases hc; exact .orderBy herror hok
  | limit offset count => cases hc; exact absurd rfl hk
  | pushClause => exact hbuilt.elim
  | _ => cases hc

/-- All that a call can do that succeeds and is no reset. -/
inductive Effect (s : Statement) : Call → Statement → Prop where
  | adds {c : Call} {k : ClauseKind} {t : Statement} : c.clause? = some k → k ≠ .limit →
      Adds k c.statements ((s.begun c).rejoined c) t → Effect s c t
  | limits (offset count : Nat) : Effect s (.limit offset count)
      { s with state := s.state.setClause .limit [.ofText (s.engine.limit offset count)] }
  | connects (op : BoolOp) :
      Effect s (.connect op) (s.setLastOp (s.lastPredicate.getD .filter) op)
  | spares {c : Call} {t : Statement} : c.clause? = none → t.kind = (s.begun c).kind →
      t.state.clauses = (s.begun c).state.clauses →
      t.lastPredicate = (s.begun c).lastPredicate → Effect s c t

theorem effect_apply (hbuilt : c.Built) (hreset : c ≠ .reset) (herror : s.error = none)
    (hok : (s.apply c).error = none) : Effect s c (s.apply c) := by
  cases hclause : c.clause? with
  | some k =>
    by_cases hlimit : k = .limit
    · subst hlimit
      cases c with
      | limit offset count =>
        obtain ⟨t, ht, h⟩ := exists_of_attempt herror hok
        rw [apply, limit, h, eq_of_checkLimit ht]
        exact .limits offset count
      | pushClause => exact hbuilt.elim
      | _ => cases hclause
    · exact .adds hclause hlimit (adds_apply hbuilt hclause hlimit herror hok)
  | none =>
    cases c with
    | config | withAlias => exact .spares rfl rfl rfl rfl
    | table name =>
      rcases table_cases s name with ⟨⟨e, he⟩, -⟩ | ⟨-, text, -, h⟩ | ⟨-, e, h⟩
      · rw [herror] at he
        cases he
      · rw [apply, h]
        exact .spares rfl rfl rfl rfl
      · rw [apply, h] at hok
        cases hok
    | delete =>
      obtain ⟨t, ht, h⟩ := exists_of_attemptAs herror hok
      rw [apply, delete, h, eq_of_checkLimit ht]
      exact .spares rfl rfl rfl rfl
    | connect op => exact .connects op
    | reset => exact absurd rfl hreset
    | pushClause => exact hbuilt.elim
    | _ => cases hclause

/-- The step keeps the kind and the clause, and no predicate of the clause becomes the newest. -/
structure Leaves (k : ClauseKind) (s t : Statement) : Prop where
  kind : t.kind = s.kind
  clause : t.state.clause k = s.state.clause k
  predicate : s.lastPredicate ≠ some k → t.lastPredicate ≠ some k

namespace Leaves

variable {k' : ClauseKind}

theorem refl (k : ClauseKind) (s : Statement) : Leaves k s s := ⟨rfl, rfl, id⟩

theorem trans {u : Statement} (h : Leaves k s t) (h' : Leaves k t u) : Leaves k s u :=
  ⟨h'.kind.trans h.kind, h'.clause.trans h.clause, fun hs => h'.predicate (h.predicate hs)⟩

theorem setLastOp (s : Statement) (hk : k ≠ k') (op : BoolOp) : Leaves k s (s.setLastOp k' op) :=
  ⟨kind_setLastOp s.state k' op, Snapshot.clause_setLastOp_of_ne s.state op hk, id⟩

theorem of_adds (h : Adds k' given s t) (hk : k ≠ k') : Leaves k s t := by
  obtain ⟨fs, hfs, -⟩ := h.state
  refine ⟨?_, ?_, fun hs => ?_⟩
  · rw [Statement.kind, hfs]
    exact Snapshot.kind_pushAll s.state k' fs
  · rw [hfs]
    exact Snapshot.clause_pushAll_of_ne s.state fs hk
  · rcases h.predicate with hsame | ⟨-, hnew⟩
    · exact hsame ▸ hs
    · rw [hnew]
      exact fun heq => hk (Option.some.inj heq).symm

theorem rejoined (s : Statement) (hc : c.clause? = some k') (hk : k ≠ k') :
    Leaves k s (s.rejoined c) := by
  rw [Statement.rejoined]
  split
  · rename_i k₀ op hrejoins
    obtain rfl : k₀ = k' := Option.some.inj ((clause_of_rejoins hrejoins).symm.trans hc)
    exact setLastOp s hk op
  · exact refl k s

end Leaves

theorem Effect.leaves (h : Effect s c t) (hc : c.clause? ≠ some k) (hk : k ≠ .filter)
    (hpredicate : s.lastPredicate ≠ some k) : Leaves k (s.begun c) t := by
  cases h with
  | @adds c k' t hclause _ hadds =>
    have hne : k ≠ k' := fun heq => hc (heq ▸ hclause)
    exact (Leaves.rejoined (s.begun c) hclause hne).trans (.of_adds hadds hne)
  | limits offset count =>
    have hne : k ≠ .limit := fun heq => hc (heq ▸ rfl)
    exact ⟨rfl, Snapshot.clause_setClause_of_ne _ _ hne, id⟩
  | connects op =>
    refine .setLastOp s (fun heq => ?_) op
    cases hlast : s.lastPredicate with
    | none => exact hk (by rw [heq, hlast]; rfl)
    | some k' => exact hpredicate (by rw [heq, hlast]; rfl)
  | spares _ hkind hclauses hlast =>
    refine ⟨hkind, ?_, fun hs => hlast ▸ hs⟩
    rw [Snapshot.clause, hclauses, Snapshot.clause]

/-- What holds of a new statement and of any reset one, and is kept by every call that succeeds,
holds after every run without an error. -/
theorem run_induction {d : Dialect} {P : List Call → Statement → Prop} (hnew : P [] (new d))
    (hreset : ∀ calls (s : Statement), s.dialect = d → P (calls ++ [.reset]) s.reset)
    (hstep : ∀ calls (s : Statement) c, P calls s → s.dialect = d → c.Built → c ≠ .reset →
      s.error = none → (s.apply c).error = none → P (calls ++ [c]) (s.apply c))
    {calls : List Call} (hbuilt : ∀ c ∈ calls, c.Built) (hok : ((new d).run calls).error = none) :
    P calls ((new d).run calls) := by
  induction calls using List.reverseRecOn with
  | nil => exact hnew
  | append_singleton calls c ih =>
    have hdialect : ((new d).run calls).dialect = d := (run_outside (new d) calls).dialect
    rw [run_append, run_cons, run_nil] at hok ⊢
    by_cases hc : c = .reset
    · rw [hc]
      exact hreset calls _ hdialect
    · have hlast : .reset ∉ [c] := fun h => hc (List.mem_singleton.mp h).symm
      have herror : ((new d).run calls).error = none := error_of_run hlast hok
      have hcalls : ∀ c ∈ calls, c.Built := fun c hc => hbuilt c (List.mem_append_left _ hc)
      have hcall : c.Built := hbuilt c (List.mem_append_right _ List.mem_cons_self)
      exact hstep calls _ c (ih hcalls herror) hdialect hcall hc herror hok

end Statement

end SqlBuilder
