import SqlBuilder.Statement.Call
import SqlBuilder.Proofs.Outcome

/-!
# Statements in lockstep

Two statements under the same calls. Every call is made of a few kinds of changes, so a
relation that each of these keeps is kept by every call and along every run. An invariant is
the case of a statement beside itself.
-/
namespace SqlBuilder.Statement

/-- The statements differ at most in configuration and alias, which no call reads, and in
which predicate was the newest. -/
structure Twin (s t : Statement) : Prop where
  dialect : s.dialect = t.dialect
  state : s.state = t.state
  insertColumns : s.insertColumns = t.insertColumns
  error : s.error = t.error

/-- Quoted columns, such as some row can have. -/
structure RowColumns (e : Engine) (columns : List String) : Prop where
  nonempty : columns ≠ []
  quoted : ∀ c ∈ columns, ∃ name, e.quoteIdent name = .ok c

namespace Twin

variable {s t : Statement}

theorem engine (h : Twin s t) : s.engine = t.engine := congrArg Dialect.engine h.dialect

theorem kind (h : Twin s t) : s.kind = t.kind := congrArg Snapshot.kind h.state

theorem setColumns (h : Twin s t) (columns : List String) :
    Twin (s.setColumns columns) (t.setColumns columns) := by
  rw [Statement.setColumns, Statement.setColumns, h.insertColumns]
  split
  · exact ⟨h.dialect, congrArg (Snapshot.push · _ _) h.state, rfl, h.error⟩
  · exact h

end Twin

theorem quoteIdents_of_escapeRow {e : Engine} {seen : List String} {row : Row}
    {pairs : List (String × String)} (h : escapeRow e seen row = .ok pairs) :
    e.quoteIdents (row.map Prod.fst) = .ok (pairs.map Prod.fst) := by
  induction row generalizing seen pairs with
  | nil =>
    cases h
    rfl
  | cons entry row ih =>
    obtain ⟨column, v⟩ := entry
    rw [escapeRow] at h
    obtain ⟨name, hname, h⟩ := Outcome.exists_of_bind_eq_ok h
    split at h
    · cases h
    obtain ⟨value, -, h⟩ := Outcome.exists_of_bind_eq_ok h
    obtain ⟨rest, hrest, h⟩ := Outcome.exists_of_bind_eq_ok h
    cases h
    have hnames := ih hrest
    rw [Engine.quoteIdents] at hnames
    rw [Engine.quoteIdents, List.map_cons, List.mapM_cons, hname, hnames]
    rfl

theorem rowColumns_of_escapeRow {e : Engine} {row : Row} {pairs : List (String × String)}
    (hrow : row ≠ []) (h : escapeRow e [] row = .ok pairs) :
    RowColumns e (pairs.map Prod.fst) := by
  have hnames := quoteIdents_of_escapeRow h
  constructor
  · intro hnil
    have hlength := (Outcome.forall₂_of_mapM_eq_ok hnames).length_eq
    rw [hnil, List.length_map, List.length_nil] at hlength
    exact hrow (List.length_eq_zero_iff.mp hlength)
  · intro c hc
    obtain ⟨name, -, hname⟩ := Outcome.mem_of_mapM_eq_ok hnames hc
    exact ⟨name, hname⟩

/-- What a relation of twins has to keep if calls are to keep it. Of the clause of the rows
only whole rows count, and with the first of them come the columns. -/
structure Lockstep (S : Statement → Statement → Prop) : Prop where
  twin : ∀ {s t}, S s t → Twin s t
  config (config : Config) : ∀ {s t}, S s t → S (s.withConfig config) (t.withConfig config)
  name (aliasName : String) : ∀ {s t}, S s t → S (s.withAlias aliasName) (t.withAlias aliasName)
  target (name : String) : ∀ {s t}, S s t →
    S { s with state := { s.state with table := some name } }
      { t with state := { t.state with table := some name } }
  fail (e : SqlError) : ∀ {s t}, S s t → S { s with error := some e } { t with error := some e }
  switch (kind : StatementKind) : ∀ {s t}, S s t → S (s.switchKind kind) (t.switchKind kind)
  push {c : ClauseKind} (hc : c ≠ .insert) (f : Fragment) : ∀ {s t}, S s t →
    S (s.push c f) (t.push c f)
  row {columns : List String} (f : Fragment) : ∀ {s t}, RowColumns s.engine columns → S s t →
    S ((s.setColumns columns).push .insert f) ((t.setColumns columns).push .insert f)
  predicate {c : ClauseKind} (hc : c ≠ .insert) : ∀ {s t}, S s t →
    S { s with lastPredicate := some c } { t with lastPredicate := some c }
  limitClause (f : Fragment) : ∀ {s t}, S s t →
    S { s with state := s.state.setClause .limit [f] }
      { t with state := t.state.setClause .limit [f] }
  op {c : ClauseKind} (hc : c ≠ .insert) (op : BoolOp) : ∀ {s t}, S s t →
    S (s.setLastOp c op) (t.setLastOp c op)
  reset : ∀ {s t}, S s t → S s.reset t.reset

namespace Lockstep

variable {S : Statement → Statement → Prop} (hS : Lockstep S) {s t : Statement}
include hS

theorem attempt (h : S s t) {f g : Statement → Outcome Statement}
    (hstep : Outcome.Same S (f s) (g t)) : S (s.attempt f) (t.attempt g) := by
  rw [Statement.attempt, Statement.attempt, ← (hS.twin h).error]
  cases s.error with
  | some e => exact h
  | none =>
    generalize f s = x at hstep
    generalize g t = y at hstep
    cases hstep with
    | ok hab => exact hab
    | error e => exact hS.fail e h

theorem attemptAs (h : S s t) (kind : StatementKind) {f g : Statement → Outcome Statement}
    (hstep : ∀ s t, S s t → Outcome.Same S (f s) (g t)) :
    S (s.attemptAs kind f) (t.attemptAs kind g) := by
  have hswitched := hS.switch kind h
  rw [Statement.attemptAs, Statement.attemptAs, ← (hS.twin h).error]
  cases s.error with
  | some e => exact h
  | none => exact hS.attempt hswitched (hstep _ _ hswitched)

theorem pushAll (h : S s t) {c : ClauseKind} (hc : c ≠ .insert) (fs : List Fragment) :
    S (s.pushAll c fs) (t.pushAll c fs) := by
  induction fs generalizing s t with
  | nil => exact h
  | cons f fs ih => exact ih (hS.push hc f h)

theorem pushPredicate (h : S s t) {c : ClauseKind} (hc : c ≠ .insert) (f : Fragment)
    (op : BoolOp) : S (s.pushPredicate c f op) (t.pushPredicate c f op) :=
  hS.predicate hc (hS.push hc _ h)

theorem table (h : S s t) (name : String) : S (s.table name) (t.table name) := by
  apply hS.attempt h
  rw [(hS.twin h).engine]
  exact .bind_left _ fun f _ => .bind_left _ fun text _ => .ok (hS.target text h)

theorem pushField (h : S s t) {c : ClauseKind} (hc : c ≠ .insert) (field : Field)
    (place : NamedPlace) :
    Outcome.Same S
      (do
        field.requireName place
        return s.pushAll c (← field.fragments s.engine))
      (do
        field.requireName place
        return t.pushAll c (← field.fragments t.engine)) := by
  rw [(hS.twin h).engine]
  exact .bind_left _ fun _ _ => .bind_left _ fun fs _ => .ok (hS.pushAll h hc fs)

theorem source (h : S s t) (field : Field) : S (s.source field) (t.source field) :=
  hS.attemptAs h _ fun _ _ h => hS.pushField h (by decide) field .source

theorem select (h : S s t) (field : Field) : S (s.select field) (t.select field) :=
  hS.attemptAs h _ fun _ _ h => hS.pushField h (by decide) field .selectList

theorem selectJson (h : S s t) (spec : JsonSpec) (shape : JsonShape) (aliasName : String) :
    S (s.selectJson spec shape aliasName) (t.selectJson spec shape aliasName) := by
  apply hS.attemptAs h
  intro s t h
  rw [(hS.twin h).engine, (hS.twin h).dialect]
  refine .bind_left _ fun text _ => ?_
  split
  · exact .ok h
  split
  · exact .ok (hS.push (by decide) _ h)
  · exact .bind_left _ fun name _ => .ok (hS.push (by decide) _ h)

theorem aggregate (h : S s t) (function : String) (field : Field) (aliasName : Option String) :
    S (s.aggregate function field aliasName) (t.aggregate function field aliasName) := by
  apply hS.attemptAs h
  intro s t h
  rw [(hS.twin h).engine]
  cases Aggregate.ofText? function with
  | none => exact .error _
  | some function =>
    refine .bind_left _ fun fs _ => ?_
    dsimp only
    split
    · cases aliasName with
      | none => exact .ok (hS.push (by decide) _ h)
      | some aliasName => exact .bind_left _ fun name _ => .ok (hS.push (by decide) _ h)
    · exact .error _

theorem pushRow (h : S s t) (row : Row) : Outcome.Same S (s.pushRow row) (t.pushRow row) := by
  have htwin := hS.twin h
  unfold Statement.pushRow
  rw [← htwin.engine]
  split
  · exact .error _
  · rename_i hrow
    refine .bind_left _ fun pairs hpairs => ?_
    have hcolumns := rowColumns_of_escapeRow (mt List.isEmpty_iff.mpr hrow) hpairs
    dsimp only
    rw [(htwin.setColumns (pairs.map Prod.fst)).insertColumns]
    exact .bind_left _ fun values _ => .ok (hS.row _ hcolumns h)

theorem pushRows (h : S s t) (rows : List Row) :
    Outcome.Same S (rows.foldlM Statement.pushRow s) (rows.foldlM Statement.pushRow t) := by
  induction rows generalizing s t with
  | nil => exact .ok h
  | cons row rows ih =>
    rw [List.foldlM_cons, List.foldlM_cons]
    exact (hS.pushRow h row).bind fun _ _ h => ih h

theorem insert (h : S s t) (rows : List Row) : S (s.insert rows) (t.insert rows) := by
  apply hS.attemptAs h
  intro s t h
  split
  · exact .error _
  · exact hS.pushRows h rows

theorem checkLimit (h : S s t) : Outcome.Same S s.checkLimit t.checkLimit := by
  have htwin := hS.twin h
  unfold Statement.checkLimit
  rw [htwin.kind, htwin.state, htwin.engine]
  dsimp only
  split
  · exact .error _
  · exact .ok h

theorem update (h : S s t) (row : Row) : S (s.update row) (t.update row) := by
  apply hS.attemptAs h
  intro s t h
  rw [(hS.twin h).engine]
  split
  · exact .error _
  · exact .bind_left _ fun pairs _ => hS.checkLimit (hS.pushAll h (by decide) _)

theorem delete (h : S s t) : S s.delete t.delete :=
  hS.attemptAs h _ fun _ _ h => hS.checkLimit h

theorem join (h : S s t) (kind : JoinKind) (field : Field) (on : String) (params : List Value) :
    S (s.join kind field on params) (t.join kind field on params) := by
  apply hS.attempt h
  rw [(hS.twin h).engine]
  refine .bind_left _ fun _ _ => .bind_left _ fun f _ => ?_
  dsimp only
  split
  · exact .ok (hS.push (by decide) _ h)
  · exact .bind_left _ fun condition _ => .ok (hS.push (by decide) _ h)

theorem predicateWith (h : S s t) {c : ClauseKind} (hc : c ≠ .insert) (template : String)
    (params : List Value) (op : String) :
    S (s.predicateWith c template params op) (t.predicateWith c template params op) := by
  apply hS.attempt h
  cases BoolOp.ofText? op with
  | none => exact .error _
  | some op =>
    dsimp only
    rw [pushTemplate, pushTemplate, (hS.twin h).engine]
    split
    · exact .error _
    · exact .bind_left _ fun text _ => .ok (hS.pushPredicate h hc _ op)

theorem filterIn (h : S s t) (field : String) (values : Value) :
    S (s.filterIn field values) (t.filterIn field values) := by
  apply hS.attempt h
  rw [(hS.twin h).engine]
  exact .bind_left _ fun text _ => .ok (hS.pushPredicate h (by decide) _ _)

theorem filterInSub (h : S s t) (field : String) (sub : Statement) :
    S (s.filterInSub field sub) (t.filterInSub field sub) := by
  apply hS.attempt h
  rw [(hS.twin h).engine]
  exact .bind_left _ fun name _ => .bind_left _ fun view _ =>
    .ok (hS.pushPredicate h (by decide) _ _)

theorem search (h : S s t) (field : Field) (term : String) :
    S (s.search field term) (t.search field term) := by
  apply hS.attempt h
  rw [(hS.twin h).engine]
  split
  · exact .error _
  · exact .bind_left _ fun fs _ => .bind_left _ fun columns _ => .bind_left _ fun text _ =>
      .ok (hS.pushPredicate h (by decide) _ _)

theorem groupBy (h : S s t) (field : Field) : S (s.groupBy field) (t.groupBy field) := by
  apply hS.attempt h
  rw [(hS.twin h).engine]
  exact .bind_left _ fun fs _ => .ok (hS.pushAll h (by decide) fs)

theorem orderBy (h : S s t) (field : Field) (direction : String) :
    S (s.orderBy field direction) (t.orderBy field direction) := by
  apply hS.attempt h
  rw [(hS.twin h).engine]
  cases SortOrder.ofText? direction with
  | none => exact .error _
  | some order => exact .bind_left _ fun fs _ => .ok (hS.pushAll h (by decide) _)

theorem limit (h : S s t) (offset count : Nat) :
    S (s.limit offset count) (t.limit offset count) := by
  apply hS.attempt h
  dsimp only
  rw [(hS.twin h).engine]
  exact hS.checkLimit (hS.limitClause _ h)

theorem pushClause (h : S s t) {c : ClauseKind} (hc : c ≠ .insert) (f : Fragment) :
    S (s.pushClause c f) (t.pushClause c f) := by
  unfold Statement.pushClause
  split
  · exact hS.pushPredicate h (by decide) f f.opOrAnd
  · exact hS.pushPredicate h (by decide) f f.opOrAnd
  · exact hS.push hc f h

/-- Two kinds of calls are left to the relation: a bare connective, which reads the place of the
newest predicate, and a fragment that is put among the rows as it is. -/
theorem apply (h : S s t) (c : Call)
    (hconnect : ∀ op, c = .connect op → S (s.connect op) (t.connect op))
    (hrows : ∀ f, c = .pushClause .insert f → S (s.push .insert f) (t.push .insert f)) :
    S (s.apply c) (t.apply c) := by
  cases c with
  | config config => exact hS.config config h
  | table name => exact hS.table h name
  | withAlias name => exact hS.name name h
  | source field => exact hS.source h field
  | select field => exact hS.select h field
  | selectJson spec shape aliasName => exact hS.selectJson h spec shape aliasName
  | aggregate function field aliasName => exact hS.aggregate h function field aliasName
  | insert rows => exact hS.insert h rows
  | update row => exact hS.update h row
  | delete => exact hS.delete h
  | join kind field on params => exact hS.join h kind field on params
  | filter template params => exact hS.predicateWith h (by decide) template params "AND"
  | filterWith template params op => exact hS.predicateWith h (by decide) template params op
  | orFilter template params =>
    exact hS.predicateWith (hS.op (by decide) .or h) (by decide) template params "AND"
  | andFilter template params =>
    exact hS.predicateWith (hS.op (by decide) .and h) (by decide) template params "AND"
  | filterIn field values => exact hS.filterIn h field values
  | filterInSub field sub => exact hS.filterInSub h field sub
  | search field term => exact hS.search h field term
  | having template params => exact hS.predicateWith h (by decide) template params "AND"
  | havingWith template params op => exact hS.predicateWith h (by decide) template params op
  | orHaving template params =>
    exact hS.predicateWith (hS.op (by decide) .or h) (by decide) template params "AND"
  | connect op => exact hconnect op rfl
  | groupBy field => exact hS.groupBy h field
  | orderBy field direction => exact hS.orderBy h field direction
  | limit offset count => exact hS.limit h offset count
  | pushClause c f =>
    by_cases hc : c = .insert
    · subst hc
      exact hrows f rfl
    · exact hS.pushClause h hc f
  | reset => exact hS.reset h

theorem run (h : S s t) {calls : List Call}
    (hconnect : ∀ s t op, Call.connect op ∈ calls → S s t → S (s.connect op) (t.connect op))
    (hrows : ∀ s t f, Call.pushClause .insert f ∈ calls → S s t →
      S (s.push .insert f) (t.push .insert f)) : S (s.run calls) (t.run calls) := by
  induction calls generalizing s t with
  | nil => exact h
  | cons c calls ih =>
    have happly : S (s.apply c) (t.apply c) := by
      refine hS.apply h c (fun op hop => ?_) fun f hf => ?_
      · exact hconnect s t op (hop ▸ List.mem_cons_self) h
      · exact hrows s t f (hf ▸ List.mem_cons_self) h
    rw [run_cons, run_cons]
    refine ih happly (fun s t op hop => ?_) fun s t f hf => ?_
    · exact hconnect s t op (List.mem_cons_of_mem _ hop)
    · exact hrows s t f (List.mem_cons_of_mem _ hf)

end Lockstep

end SqlBuilder.Statement
