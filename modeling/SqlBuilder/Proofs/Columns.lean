import SqlBuilder.Proofs.Insertion

/-!
# Rows under a list of columns

The columns of the rows stand in two places: in the statement, and in the first fragment of its
rows. Inserted rows go by the former, a restored statement by the latter. While the two agree, an
insert only adds what the rows give for the columns. They agree as long as that first fragment
comes from an insert or from a view, for a fragment that is put there as it is sets no columns.
-/
namespace SqlBuilder.Statement

open List (Forall₂)

variable {d : Dialect} {s t : Statement} {e : Engine} {row : Row} {rows : List Row}
  {columns values : List String}

/-- The row names just these columns, and these are the texts it gives for them. -/
structure Matches (e : Engine) (columns : List String) (row : Row) (values : List String) :
    Prop where
  named : ∀ c, HasColumn e row c ↔ c ∈ columns
  given : Forall₂ (Gives e row) columns values

theorem Aligned.nodup (h : Aligned e columns row values) : columns.Nodup := by
  obtain ⟨pairs, haccepted, halign⟩ := h
  exact (perm_of_alignRow haccepted.distinct halign).nodup haccepted.distinct

theorem Aligned.matches (h : Aligned e columns row values) : Matches e columns row values :=
  ⟨((exists_aligned_iff h.nodup).mp ⟨values, h⟩).2, h.gives h.nodup⟩

theorem Aligned.rowColumns (h : Aligned e columns row values) : RowColumns e columns := by
  obtain ⟨pairs, haccepted, halign⟩ := h
  have hperm := perm_of_alignRow haccepted.distinct halign
  have hcolumns := rowColumns_of_escapeRow haccepted.nonempty (accepted_iff.mp haccepted).2
  refine ⟨fun hnil => hcolumns.nonempty ?_, fun c hc => hcolumns.quoted c (hperm.mem_iff.mpr hc)⟩
  rw [hnil] at hperm
  exact hperm.eq_nil

/-- Some row gives each of the columns its own name for a value. -/
theorem exists_own_names (hcolumns : RowColumns e columns) (hnodup : columns.Nodup) :
    ∃ row, Aligned e columns row columns ∧ ∀ c v, Gives e row c v → c = v := by
  obtain ⟨names, hnames⟩ := Outcome.exists_forall₂ hcolumns.quoted
  let row : Row := names.map fun name => (name, .ident name)
  have hwrites : Forall₂ (Writes e) row (columns.map fun c => (c, c)) := by
    rw [List.forall₂_map_left_iff, List.forall₂_map_right_iff]
    exact hnames.flip.imp fun name c hname => ⟨hname, hname⟩
  have hcolumns' : (columns.map fun c => (c, c)).map Prod.fst = columns := by
    rw [List.map_map]
    exact List.map_id columns
  have hvalues : (columns.map fun c => (c, c)).map Prod.snd = columns := by
    rw [List.map_map]
    exact List.map_id columns
  have hrow : row ≠ [] := by
    intro hnil
    have hlength := hwrites.length_eq
    rw [hnil, List.length_map] at hlength
    exact hcolumns.nonempty (List.length_eq_zero_iff.mp hlength.symm)
  have haccepted : Accepted e row (columns.map fun c => (c, c)) :=
    ⟨hrow, hwrites, hcolumns'.symm ▸ hnodup⟩
  have halign := haccepted.alignRow_self
  rw [hcolumns', hvalues] at halign
  refine ⟨row, ⟨_, haccepted, halign⟩, ?_⟩
  rintro c v ⟨p, hp, hname, hvalue⟩
  obtain ⟨name, -, rfl⟩ := List.mem_map.mp hp
  exact Except.ok.inj (hname.symm.trans hvalue)

theorem clause_pushAll (s : Statement) (fs : List Fragment) :
    (s.pushAll .insert fs).state.clause .insert = s.state.clause .insert ++ fs :=
  Snapshot.clause_pushAll_self s.state .insert fs

theorem pushRows_unknown (hcolumns : s.insertColumns = [])
    (h : (row :: rows).foldlM pushRow s = .ok t) :
    ∃ columns tuples, Forall₂ (Aligned s.engine columns) (row :: rows) tuples ∧
      t.state.clause .insert = s.state.clause .insert ++
        .ofText (Engine.commaJoined columns) :: rowFragments tuples := by
  rw [List.foldlM_cons] at h
  obtain ⟨u, hrow, hrows⟩ := Outcome.exists_of_bind_eq_ok h
  obtain ⟨pairs, values, haccepted, halign, rfl⟩ := pushRow_eq_ok_iff.mp hrow
  have hset : s.setColumns (pairs.map Prod.fst) =
      { s.push .insert (.ofText (Engine.commaJoined (pairs.map Prod.fst))) with
        insertColumns := pairs.map Prod.fst } := if_pos hcolumns
  have hknown : (s.setColumns (pairs.map Prod.fst)).insertColumns ≠ [] := by
    rw [hset]
    exact haccepted.columns_nonempty
  have hengine : (s.setColumns (pairs.map Prod.fst)).engine = s.engine := by
    rw [hset]
    rfl
  -- The row goes in as if its columns had been known before.
  have hall : (row :: rows).foldlM pushRow (s.setColumns (pairs.map Prod.fst)) = .ok t := by
    have hagain : (s.setColumns (pairs.map Prod.fst)).pushRow row = .ok _ :=
      (pushRow_known hknown).mpr ⟨values, ⟨pairs, hengine ▸ haccepted, halign⟩, rfl⟩
    rw [List.foldlM_cons, hagain]
    exact hrows
  obtain ⟨tuples, htuples, rfl⟩ := (pushRows_known hknown).mp hall
  rw [hengine] at htuples
  rw [hset] at htuples
  refine ⟨pairs.map Prod.fst, tuples, htuples, ?_⟩
  rw [clause_pushAll, hset]
  show (s.state.push .insert _).clause .insert ++ _ = _
  rw [Snapshot.clause_push_self, List.append_assoc, List.singleton_append]

/-- A statement that an insert goes on with. -/
def TakesRows (s : Statement) : Prop := s.kind = none ∨ s.kind = some .insert

theorem TakesRows.switchKind (h : TakesRows s) :
    (s.switchKind .insert).insertColumns = s.insertColumns ∧
      (s.switchKind .insert).state.clause .insert = s.state.clause .insert := by
  rcases h with h | h
  · rw [Statement.switchKind, h]
    exact ⟨rfl, rfl⟩
  · rw [switchKind_of_kind h]
    exact ⟨rfl, rfl⟩

theorem insert_eq_ok (herror : s.error = none) :
    ((s.insert rows).error = none ∧ s.insert rows = t) ↔
      rows ≠ [] ∧ rows.foldlM pushRow (s.switchKind .insert) = .ok t := by
  have hnone : (s.switchKind .insert).error = none := (error_switchKind s .insert).trans herror
  rw [← insert_switchKind herror]
  rcases insert_cases hnone (kind_switchKind s .insert) rows with ⟨hrows, hfold⟩ | ⟨hfail, hfold⟩
  · rw [hfold]
    constructor
    · rintro ⟨-, rfl⟩
      exact ⟨hrows, rfl⟩
    · rintro ⟨-, h⟩
      cases h
      exact ⟨(pushRows_frame hfold).1.trans hnone, rfl⟩
  · constructor
    · intro h
      exact absurd h.1 hfail
    · intro h
      exact absurd h.2 (hfold t h.1)

section Takes

variable (herror : s.error = none) (htakes : TakesRows s)
include herror htakes

theorem insert_known (hcolumns : s.insertColumns ≠ []) :
    ((s.insert rows).error = none ∧ s.insert rows = t) ↔ rows ≠ [] ∧ ∃ tuples,
      Forall₂ (Aligned s.engine s.insertColumns) rows tuples ∧
        t = (s.switchKind .insert).pushAll .insert (rowFragments tuples) := by
  obtain ⟨hsame, -⟩ := htakes.switchKind
  rw [insert_eq_ok herror, pushRows_known (hsame ▸ hcolumns), hsame, engine_switchKind]

theorem clause_insert_known (hcolumns : s.insertColumns ≠ [])
    (hok : (s.insert rows).error = none) : ∃ tuples,
    Forall₂ (Aligned s.engine s.insertColumns) rows tuples ∧
      (s.insert rows).state.clause .insert = s.state.clause .insert ++ rowFragments tuples := by
  obtain ⟨-, tuples, htuples, heq⟩ := (insert_known herror htakes hcolumns).mp ⟨hok, rfl⟩
  refine ⟨tuples, htuples, ?_⟩
  rw [heq, clause_pushAll, htakes.switchKind.2]

theorem clause_insert_unknown (hcolumns : s.insertColumns = [])
    (hok : (s.insert rows).error = none) : ∃ columns tuples,
    Forall₂ (Aligned s.engine columns) rows tuples ∧
      (s.insert rows).state.clause .insert = s.state.clause .insert ++
        .ofText (Engine.commaJoined columns) :: rowFragments tuples := by
  obtain ⟨hrows, hfold⟩ := (insert_eq_ok herror).mp ⟨hok, rfl⟩
  obtain ⟨row, rows, rfl⟩ := List.exists_cons_of_ne_nil hrows
  obtain ⟨hsame, hclause⟩ := htakes.switchKind
  have hadded := pushRows_unknown (hsame.trans hcolumns) hfold
  rwa [engine_switchKind, hclause] at hadded

end Takes

def HasColumnList (view : Snapshot) : Prop :=
  ∃ f fs text, view.clause .insert = f :: fs ∧ .sql text ∈ f.parts

theorem writtenColumns_ne_nil_iff {view : Snapshot} :
    writtenColumns view ≠ [] ↔ HasColumnList view := by
  have hpieces (text : String) : (Text.splitTop ',' text.toList).map
      (fun c => String.ofList (Text.trim c)) ≠ [] := by
    have hpos := Text.length_splitFrom_pos ',' .start text.toList
    rw [Ne, List.map_eq_nil_iff]
    exact List.ne_nil_of_length_pos hpos
  rw [writtenColumns]
  cases hclause : view.clause .insert with
  | nil => simp [HasColumnList, hclause]
  | cons f fs =>
    rw [Ne, List.flatMap_eq_nil_iff]
    constructor
    · intro h
      obtain ⟨part, h⟩ := not_forall.mp h
      obtain ⟨hpart, hne⟩ := Classical.not_imp.mp h
      cases part with
      | sql text => exact ⟨f, fs, text, hclause, hpart⟩
      | sub view => exact absurd rfl hne
    · rintro ⟨g, gs, text, hcons, htext⟩ hnil
      rw [hclause] at hcons
      cases hcons
      exact hpieces text (hnil _ htext)

/-- Inserting the rows leaves those before, and adds for each row what it gives for the columns in
the first fragment. Inserting them into the restored statement is no different. -/
structure OnlyAppends (s : Statement) (rows : List Row) : Prop where
  appended : ∃ tuples, Forall₂ (Matches s.engine (writtenColumns s.state)) rows tuples ∧
    (s.insert rows).state.clause .insert = s.state.clause .insert ++ rowFragments tuples
  rebuilt : ∀ view, s.toStructured = .ok view → ∀ layout,
    (s.insert rows).toSql layout = ((ofStructured s.dialect view).insert rows).toSql layout

section Takes

variable (herror : s.error = none) (htakes : TakesRows s) (hlist : HasColumnList s.state)
include herror htakes hlist

theorem onlyAppends_of_columns (hcolumns : s.insertColumns = writtenColumns s.state)
    (hok : (s.insert rows).error = none) : OnlyAppends s rows := by
  have hknown : s.insertColumns ≠ [] := hcolumns ▸ writtenColumns_ne_nil_iff.mpr hlist
  constructor
  · obtain ⟨tuples, htuples, hclause⟩ := clause_insert_known herror htakes hknown hok
    rw [hcolumns] at htuples
    exact ⟨tuples, htuples.imp fun _ _ haligned => haligned.matches, hclause⟩
  · intro view hview layout
    have hstate : s.state = view := by
      rw [toStructured, checked, herror] at hview
      exact Except.ok.inj hview
    have htwin : Twin s (ofStructured s.dialect view) :=
      ⟨rfl, hstate, hstate ▸ hcolumns, herror⟩
    exact (Twin.lockstep.insert htwin rows).toSql layout

/-- An insert that only appends shows by which columns it goes, when each column is given its own
name for a value. -/
theorem columns_of_onlyAppends (hall : ∀ rows, (s.insert rows).error = none → OnlyAppends s rows)
    (hok : (s.insert rows).error = none) : s.insertColumns = writtenColumns s.state := by
  have hwritten := writtenColumns_ne_nil_iff.mpr hlist
  by_cases hcolumns : s.insertColumns = []
  · obtain ⟨columns, tuples, htuples, hclause⟩ :=
      clause_insert_unknown herror htakes hcolumns hok
    obtain ⟨tuples', htuples', hclause'⟩ := (hall rows hok).appended
    have hlength := congrArg List.length (List.append_cancel_left (hclause.symm.trans hclause'))
    rw [List.length_cons, rowFragments, rowFragments, List.length_map, List.length_map,
      ← htuples.length_eq, ← htuples'.length_eq] at hlength
    omega
  · obtain ⟨hrows, tuples, htuples, -⟩ := (insert_known herror htakes hcolumns).mp ⟨hok, rfl⟩
    obtain ⟨row, rows, rfl⟩ := List.exists_cons_of_ne_nil hrows
    obtain ⟨values, tuples, haligned, -, rfl⟩ := List.forall₂_cons_left_iff.mp htuples
    obtain ⟨own, hown, hgives⟩ := exists_own_names haligned.rowColumns haligned.nodup
    have hinserted : (s.insert [own]).error = none ∧ s.insert [own] =
        (s.switchKind .insert).pushAll .insert (rowFragments [s.insertColumns]) :=
      (insert_known herror htakes hcolumns).mpr
        ⟨List.cons_ne_nil own [], [s.insertColumns], .cons hown .nil, rfl⟩
    have hclause : (s.insert [own]).state.clause .insert =
        s.state.clause .insert ++ rowFragments [s.insertColumns] := by
      rw [hinserted.2, clause_pushAll, htakes.switchKind.2]
    obtain ⟨tuples', htuples', hclause'⟩ := (hall [own] hinserted.1).appended
    obtain ⟨values', _, hmatches, hnil, rfl⟩ := List.forall₂_cons_left_iff.mp htuples'
    cases hnil
    obtain rfl : writtenColumns s.state = values' :=
      List.forall₂_eq_eq_eq ▸ hmatches.given.imp hgives
    have htext : Engine.commaJoined s.insertColumns =
        Engine.commaJoined (writtenColumns s.state) := by
      have hone := List.append_cancel_left (hclause.symm.trans hclause')
      simpa [rowFragments, Fragment.ofText] using hone
    have hquoted : ∀ c ∈ writtenColumns s.state, ∃ name, s.engine.quoteIdent name = .ok c := by
      intro c hc
      obtain ⟨p, -, hname⟩ := (hmatches.named c).mpr hc
      exact ⟨p.1, hname⟩
    exact Ident.commaJoined_inj haligned.rowColumns.nonempty haligned.rowColumns.quoted hwritten
      hquoted htext

end Takes

/-- The columns are those of the first fragment, unless that fragment is one of some given ones. -/
structure InStep (given : Fragment → Prop) (s : Statement) : Prop where
  rows : ColumnsWithRows s
  columns : HasColumnList s.state → s.insertColumns = writtenColumns s.state ∨
    ∃ f, (s.state.clause .insert).head? = some f ∧ given f
  predicate : s.lastPredicate ≠ some .insert

namespace InStep

variable {given : Fragment → Prop}

theorem withoutRows (hclause : s.state.clause .insert = []) (hcolumns : s.insertColumns = [])
    (hpredicate : s.lastPredicate = none) : InStep given s where
  rows := fun _ => hcolumns
  columns := by
    rintro ⟨f, fs, text, hcons, -⟩
    rw [hclause] at hcons
    cases hcons
  predicate := by
    rw [hpredicate]
    decide

theorem ofStructured (d : Dialect) (view : Snapshot) :
    InStep given (Statement.ofStructured d view) where
  rows := .ofStructured d view
  columns := fun _ => .inl rfl
  predicate := nofun

theorem withState (h : InStep given s) {state : Snapshot}
    (hclause : state.clause .insert = s.state.clause .insert) :
    InStep given { s with state := state } where
  rows := h.rows.of_clause (by rw [hclause])
  columns := by
    have hwritten : writtenColumns state = writtenColumns s.state := by
      rw [writtenColumns, writtenColumns, hclause]
    intro hlist
    rw [← writtenColumns_ne_nil_iff, hwritten, writtenColumns_ne_nil_iff] at hlist
    rw [hwritten, hclause]
    exact h.columns hlist
  predicate := h.predicate

theorem switchKind (h : InStep given s) (kind : StatementKind) :
    InStep given (s.switchKind kind) := by
  rw [Statement.switchKind]
  cases s.kind with
  | none => exact h.withState rfl
  | some k =>
    by_cases hk : k = kind
    · simp only [hk, if_true]
      exact h
    · simp only [hk, if_false]
      exact withoutRows (Snapshot.clause_clear s.state .insert) rfl rfl

theorem setLastOp (h : InStep given s) {c : ClauseKind} (hc : c ≠ .insert) (op : BoolOp) :
    InStep given (s.setLastOp c op) :=
  h.withState (Snapshot.clause_setLastOp_of_ne s.state op hc.symm)

theorem connect (h : InStep given s) (op : BoolOp) : InStep given (s.connect op) := by
  have hpredicate := h.predicate
  rw [Statement.connect]
  cases hlast : s.lastPredicate with
  | none => exact h.setLastOp (by decide) op
  | some c =>
    rw [hlast] at hpredicate
    exact h.setLastOp (fun hc => hpredicate (congrArg some hc)) op

theorem push_of_ne_nil (h : InStep given s) (hne : s.state.clause .insert ≠ []) (f : Fragment) :
    InStep given (s.push .insert f) where
  rows := .pushed s f
  columns := by
    obtain ⟨g, gs, hclause⟩ := List.exists_cons_of_ne_nil hne
    have hpushed : (s.push .insert f).state.clause .insert = g :: (gs ++ [f]) := by
      rw [push, Snapshot.clause_push_self, hclause]
      rfl
    have hwritten := writtenColumns_congr hpushed hclause
    intro hlist
    rw [← writtenColumns_ne_nil_iff, hwritten, writtenColumns_ne_nil_iff] at hlist
    have hcolumns := h.columns hlist
    rw [hclause] at hcolumns
    rw [hwritten, hpushed]
    exact hcolumns
  predicate := h.predicate

theorem push (h : InStep given s) {f : Fragment} (hf : s.state.clause .insert = [] → given f) :
    InStep given (s.push .insert f) := by
  by_cases hne : s.state.clause .insert = []
  · refine ⟨.pushed s f, fun _ => .inr ⟨f, ?_, hf hne⟩, h.predicate⟩
    rw [Statement.push, Snapshot.clause_push_self, hne]
    rfl
  · exact h.push_of_ne_nil hne f

theorem addRow (h : InStep given s) (hcolumns : RowColumns s.engine columns) (f : Fragment) :
    InStep given ((s.setColumns columns).push .insert f) := by
  by_cases hnone : s.insertColumns = []
  · have hset : s.setColumns columns =
        { s.push .insert (.ofText (Engine.commaJoined columns)) with insertColumns := columns } :=
      if_pos hnone
    have hpushed : ((s.setColumns columns).push .insert f).state.clause .insert =
        s.state.clause .insert ++ [.ofText (Engine.commaJoined columns), f] := by
      rw [hset, Statement.push, Snapshot.clause_push_self]
      simp [Statement.push]
    refine ⟨.pushed _ f, fun hlist => ?_, by rw [hset]; exact h.predicate⟩
    cases hclause : s.state.clause .insert with
    | nil =>
      rw [hclause] at hpushed
      left
      rw [writtenColumns_commaJoined hcolumns hpushed, hset]
      rfl
    -- Fragments without columns can only have been put there, and stay the first ones.
    | cons g gs =>
      rw [hclause] at hpushed
      rw [← writtenColumns_ne_nil_iff, writtenColumns_congr hpushed hclause] at hlist
      rcases h.columns (writtenColumns_ne_nil_iff.mp hlist) with hknown | hgiven
      · exact absurd (hknown.symm.trans hnone) hlist
      · rw [hclause] at hgiven
        rw [hpushed]
        exact .inr hgiven
  · have hset : s.setColumns columns = s := if_neg hnone
    rw [hset]
    exact h.push_of_ne_nil (mt h.rows hnone) f

theorem lockstep : Lockstep fun s t => s = t ∧ InStep given s where
  twin := by
    rintro s _ ⟨rfl, -⟩
    exact ⟨rfl, rfl, rfl, rfl⟩
  config config := by
    rintro s _ ⟨rfl, h⟩
    exact ⟨rfl, h.rows, h.columns, h.predicate⟩
  name aliasName := by
    rintro s _ ⟨rfl, h⟩
    exact ⟨rfl, h.rows, h.columns, h.predicate⟩
  target name := by
    rintro s _ ⟨rfl, h⟩
    exact ⟨rfl, h.withState rfl⟩
  fail e := by
    rintro s _ ⟨rfl, h⟩
    exact ⟨rfl, h.rows, h.columns, h.predicate⟩
  switch kind := by
    rintro s _ ⟨rfl, h⟩
    exact ⟨rfl, h.switchKind kind⟩
  push hc f := by
    rintro s _ ⟨rfl, h⟩
    exact ⟨rfl, h.withState (Snapshot.clause_setClause_of_ne _ _ hc.symm)⟩
  row f := by
    rintro s _ hcolumns ⟨rfl, h⟩
    exact ⟨rfl, h.addRow hcolumns f⟩
  predicate hc := by
    rintro s _ ⟨rfl, h⟩
    exact ⟨rfl, h.rows, h.columns, fun heq => hc (Option.some.inj heq)⟩
  limitClause f := by
    rintro s _ ⟨rfl, h⟩
    exact ⟨rfl, h.withState (Snapshot.clause_setClause_of_ne _ _ (by decide))⟩
  op hc op := by
    rintro s _ ⟨rfl, h⟩
    exact ⟨rfl, h.setLastOp hc op⟩
  reset := by
    rintro s _ ⟨rfl, h⟩
    exact ⟨rfl, withoutRows (Snapshot.clause_clear s.state .insert) rfl rfl⟩

/-- One call keeps the columns in step, if what it puts first among the rows is given. -/
theorem apply (h : InStep given s) {c : Call}
    (hc : ∀ f, c = .pushClause .insert f → s.state.clause .insert = [] → given f) :
    InStep given (s.apply c) := by
  refine (lockstep.apply ⟨rfl, h⟩ c ?_ ?_).2
  · rintro op -
    exact ⟨rfl, h.connect op⟩
  · intro f hf
    exact ⟨rfl, h.push (hc f hf)⟩

theorem run (h : InStep given s) {calls : List Call}
    (hcalls : ∀ before f after, calls = before ++ .pushClause .insert f :: after →
      (s.run before).state.clause .insert = [] → given f) : InStep given (s.run calls) := by
  induction calls generalizing s with
  | nil => exact h
  | cons c calls ih =>
    have happly : InStep given (s.apply c) :=
      h.apply fun f hf hnil => hcalls [] f calls (by rw [hf]; rfl) hnil
    refine ih happly fun before f after hcut hnil => ?_
    exact hcalls (c :: before) f after (by rw [hcut]; rfl) hnil

end InStep

theorem new_eq_ofStructured (d : Dialect) : new d = ofStructured d (new d).state := rfl

/-- A statement whose rows begin with a list of columns takes further rows under these columns,
exactly if they are the columns that it holds or no rows can be inserted at all. They are, unless
the first fragment was put there as it is, where there were no rows. A statement that holds no
columns then writes those of the first row it is given as one row more. -/
theorem insert_only_appends_iff (d : Dialect) (start : Statement)
    (hstart : start = new d ∨ ∃ view, start = ofStructured d view) (calls : List Call)
    {s : Statement} (hs : s = start.run calls) (herror : s.error = none)
    (htakes : TakesRows s) (hlist : HasColumnList s.state) :
    ((∀ rows, (s.insert rows).error = none → OnlyAppends s rows) ↔
      s.insertColumns = writtenColumns s.state ∨ ∀ rows, (s.insert rows).error ≠ none) ∧
    (s.insertColumns = writtenColumns s.state ∨
      ∃ before f after, calls = before ++ .pushClause .insert f :: after ∧
        (start.run before).state.clause .insert = [] ∧
        (s.state.clause .insert).head? = some f) ∧
    (s.insertColumns = [] → ∀ rows, (s.insert rows).error = none →
      ∃ columns tuples, Forall₂ (Matches s.engine columns) rows tuples ∧
        (s.insert rows).state.clause .insert = s.state.clause .insert ++
          .ofText (Engine.commaJoined columns) :: rowFragments tuples) := by
  obtain ⟨view, rfl⟩ : ∃ view, start = ofStructured d view := by
    rcases hstart with rfl | hview
    · exact ⟨_, new_eq_ofStructured d⟩
    · exact hview
  refine ⟨⟨fun hall => ?_, ?_⟩, ?_, ?_⟩
  · by_cases hany : ∃ rows, (s.insert rows).error = none
    · obtain ⟨rows, hok⟩ := hany
      exact .inl (columns_of_onlyAppends herror htakes hlist hall hok)
    · exact .inr fun rows hok => hany ⟨rows, hok⟩
  · rintro (hcolumns | hnone) rows hok
    · exact onlyAppends_of_columns herror htakes hlist hcolumns hok
    · exact absurd hok (hnone rows)
  · have hstep : InStep (fun f => ∃ before after,
        calls = before ++ .pushClause .insert f :: after ∧
          ((ofStructured d view).run before).state.clause .insert = []) s := by
      rw [hs]
      exact (InStep.ofStructured d view).run fun before f after hcut hnil =>
        ⟨before, after, hcut, hnil⟩
    refine (hstep.columns hlist).imp_right ?_
    rintro ⟨f, hhead, before, after, hcut, hnil⟩
    exact ⟨before, f, after, hcut, hnil, hhead⟩
  · intro hcolumns rows hok
    obtain ⟨columns, tuples, htuples, hclause⟩ :=
      clause_insert_unknown herror htakes hcolumns hok
    exact ⟨columns, tuples, htuples.imp fun _ _ haligned => haligned.matches, hclause⟩

def openedByHand : Statement :=
  (new .mysql).run [.table "t", .pushClause .insert (.ofText "\x60a\x60, \x60b\x60")]

def oneAndTwo : Row := [("b", .int 2), ("a", .int 1)]

theorem restored_list_takes_rows :
    OnlyAppends (ofStructured .mysql openedByHand.state) [oneAndTwo] ∧
    ((ofStructured .mysql openedByHand.state).insert [oneAndTwo]).toSql .compact =
      .ok "INSERT INTO \x60t\x60 (\x60a\x60, \x60b\x60) VALUES (1, 2)" := by
  have hlist : HasColumnList openedByHand.state :=
    writtenColumns_ne_nil_iff.mp (by decide +kernel)
  have hok : ((ofStructured .mysql openedByHand.state).insert [oneAndTwo]).error = none :=
    Option.isNone_iff_eq_none.mp (by decide +kernel)
  have htakes : TakesRows (ofStructured .mysql openedByHand.state) := .inl (by decide +kernel)
  obtain ⟨hiff, -, -⟩ :=
    insert_only_appends_iff .mysql _ (.inr ⟨openedByHand.state, rfl⟩) [] rfl rfl htakes hlist
  exact ⟨hiff.mpr (.inl rfl) _ hok, Outcome.eq_ok_of_toOption (by decide +kernel)⟩

theorem openedByHand_inserts_list :
    openedByHand.error = none ∧ TakesRows openedByHand ∧ HasColumnList openedByHand.state ∧
    (openedByHand.insert [oneAndTwo.reverse]).error = none ∧
    (openedByHand.insert [oneAndTwo.reverse]).toSql .compact =
      .ok "INSERT INTO \x60t\x60 (\x60a\x60, \x60b\x60) VALUES (\x60a\x60, \x60b\x60), (1, 2)" ∧
    ¬OnlyAppends openedByHand [oneAndTwo.reverse] := by
  have herror : openedByHand.error = none := Option.isNone_iff_eq_none.mp (by decide +kernel)
  have htext : (openedByHand.insert [oneAndTwo.reverse]).toSql .compact =
      .ok "INSERT INTO \x60t\x60 (\x60a\x60, \x60b\x60) VALUES (\x60a\x60, \x60b\x60), (1, 2)" :=
    Outcome.eq_ok_of_toOption (by decide +kernel)
  have hrestored : ((ofStructured .mysql openedByHand.state).insert [oneAndTwo.reverse]).toSql
      .compact = .ok "INSERT INTO \x60t\x60 (\x60a\x60, \x60b\x60) VALUES (1, 2)" :=
    Outcome.eq_ok_of_toOption (by decide +kernel)
  refine ⟨herror, .inl (by decide +kernel), writtenColumns_ne_nil_iff.mp (by decide +kernel),
    Option.isNone_iff_eq_none.mp (by decide +kernel), htext, fun h => ?_⟩
  have hview : openedByHand.toStructured = .ok openedByHand.state := by
    rw [toStructured, checked, herror]
  have hdialect : openedByHand.dialect = .mysql := (run_outside (new .mysql) _).dialect
  have hsame := h.rebuilt _ hview .compact
  rw [htext, hdialect, hrestored] at hsame
  exact absurd (Except.ok.inj hsame) (by decide)

end SqlBuilder.Statement
