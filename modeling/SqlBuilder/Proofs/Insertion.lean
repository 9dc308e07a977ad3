import SqlBuilder.Proofs.Kept
import SqlBuilder.Proofs.Restored
import SqlBuilder.Proofs.Rows
import SqlBuilder.Proofs.Session

/-!
# Insertion

Calls that insert rows into a statement without clauses. Only the rows count, one after the
other: not how they are spread over the calls, and of the columns only which they are, for the
first row gives the order.
-/
namespace SqlBuilder.Statement

open List (Forall₂)

variable {d : Dialect} {s t : Statement} {e : Engine}

/-- There are columns only where there are rows. -/
def ColumnsWithRows (s : Statement) : Prop := s.state.clause .insert = [] → s.insertColumns = []

namespace ColumnsWithRows

theorem of_clause (h : ColumnsWithRows s) {state : Snapshot}
    (hclause : state.clause .insert = [] ↔ s.state.clause .insert = []) :
    ColumnsWithRows { s with state := state } := by
  intro hnil
  exact h (hclause.mp hnil)

theorem ofStructured (d : Dialect) (view : Snapshot) : ColumnsWithRows (ofStructured d view) :=
  writtenColumns_eq_nil

theorem pushed (s : Statement) (f : Fragment) : ColumnsWithRows (s.push .insert f) := by
  intro hnil
  rw [push, Snapshot.clause_push_self] at hnil
  simp at hnil

theorem switchKind (h : ColumnsWithRows s) (kind : StatementKind) :
    ColumnsWithRows (s.switchKind kind) := by
  rw [Statement.switchKind]
  cases s.kind with
  | none => exact h
  | some k =>
    by_cases hk : k = kind
    · simp only [hk, if_true]
      exact h
    · simp only [hk, if_false]
      exact fun _ => rfl

theorem setLastOp (h : ColumnsWithRows s) (c : ClauseKind) (op : BoolOp) :
    ColumnsWithRows (s.setLastOp c op) :=
  h.of_clause (clause_setLastOp_eq_nil s.state c .insert op)

theorem setClause (h : ColumnsWithRows s) {c : ClauseKind} (hc : c ≠ .insert)
    (fs : List Fragment) : ColumnsWithRows { s with state := s.state.setClause c fs } :=
  h.of_clause (by rw [Snapshot.clause_setClause_of_ne _ _ hc.symm])

theorem lockstep : Lockstep fun s t => s = t ∧ ColumnsWithRows s where
  twin := by
    rintro s _ ⟨rfl, -⟩
    exact ⟨rfl, rfl, rfl, rfl⟩
  config config := by
    rintro s _ ⟨rfl, h⟩
    exact ⟨rfl, h⟩
  name aliasName := by
    rintro s _ ⟨rfl, h⟩
    exact ⟨rfl, h⟩
  target name := by
    rintro s _ ⟨rfl, h⟩
    exact ⟨rfl, h⟩
  fail e := by
    rintro s _ ⟨rfl, h⟩
    exact ⟨rfl, h⟩
  switch kind := by
    rintro s _ ⟨rfl, h⟩
    exact ⟨rfl, h.switchKind kind⟩
  push hc f := by
    rintro s _ ⟨rfl, h⟩
    exact ⟨rfl, h.setClause hc _⟩
  row f := by
    rintro s _ - ⟨rfl, -⟩
    exact ⟨rfl, pushed _ f⟩
  predicate hc := by
    rintro s _ ⟨rfl, h⟩
    exact ⟨rfl, h⟩
  limitClause f := by
    rintro s _ ⟨rfl, h⟩
    exact ⟨rfl, h.setClause (by decide) _⟩
  op hc op := by
    rintro s _ ⟨rfl, h⟩
    exact ⟨rfl, h.setLastOp _ op⟩
  reset := by
    rintro s _ ⟨rfl, h⟩
    exact ⟨rfl, fun _ => rfl⟩

theorem run (h : ColumnsWithRows s) (calls : List Call) : ColumnsWithRows (s.run calls) := by
  refine (lockstep.run ⟨rfl, h⟩ ?_ ?_).2
  · rintro s _ op - ⟨rfl, h⟩
    exact ⟨rfl, h.setLastOp _ op⟩
  · rintro s _ f - ⟨rfl, -⟩
    exact ⟨rfl, pushed s f⟩

end ColumnsWithRows

theorem pushRow_frame {row : Row} (h : s.pushRow row = .ok t) :
    t.error = s.error ∧ t.kind = s.kind := by
  obtain ⟨pairs, values, -, -, rfl⟩ := pushRow_eq_ok_iff.mp h
  rw [setColumns]
  split
  · exact ⟨rfl, rfl⟩
  · exact ⟨rfl, rfl⟩

theorem pushRows_frame {rows : List Row} (h : rows.foldlM pushRow s = .ok t) :
    t.error = s.error ∧ t.kind = s.kind := by
  refine Outcome.foldlM_keeps (fun u => u.error = s.error ∧ u.kind = s.kind)
    (fun hframe hrow => ?_) ⟨rfl, rfl⟩ h
  obtain ⟨herror, hkind⟩ := pushRow_frame hrow
  exact ⟨herror.trans hframe.1, hkind.trans hframe.2⟩

theorem insert_switchKind (hs : s.error = none) (rows : List Row) :
    (s.switchKind .insert).insert rows = s.insert rows := by
  rw [insert, insert, attemptAs, attemptAs, error_switchKind, hs]
  simp only [switchKind_of_kind (kind_switchKind s .insert)]

theorem insert_cases (hs : s.error = none) (hkind : s.kind = some .insert) (rows : List Row) :
    (rows ≠ [] ∧ rows.foldlM pushRow s = .ok (s.insert rows)) ∨
      ((s.insert rows).error ≠ none ∧ ∀ t, rows ≠ [] → rows.foldlM pushRow s ≠ .ok t) := by
  have hinsert : s.insert rows = s.attempt fun s =>
      if rows.isEmpty then .error (.shape .noRows) else rows.foldlM pushRow s := by
    rw [insert, attemptAs, hs, switchKind_of_kind hkind]
  rw [hinsert]
  by_cases hrows : rows = []
  · right
    rw [attempt, hs, hrows]
    exact ⟨by simp, fun t hne => absurd rfl hne⟩
  · rw [attempt, hs, if_neg (mt List.isEmpty_iff.mp hrows)]
    cases hfold : rows.foldlM pushRow s with
    | ok u => exact .inl ⟨hrows, rfl⟩
    | error e => exact .inr ⟨by simp, fun t _ h => by cases h⟩

theorem run_inserts_of_error (hs : s.error ≠ none) (batches : List (List Row)) :
    (s.run (batches.map .insert)).error ≠ none := by
  obtain ⟨e, he⟩ := Option.ne_none_iff_exists'.mp hs
  have hinserts : Call.reset ∉ batches.map .insert := by simp
  rw [(run_of_error he he (.refl s) hinserts).1]
  simp

theorem run_inserts (hs : s.error = none) (hkind : s.kind = some .insert)
    {batches : List (List Row)} :
    ((s.run (batches.map .insert)).error = none ∧ s.run (batches.map .insert) = t) ↔
      (∀ rows ∈ batches, rows ≠ []) ∧ batches.flatten.foldlM pushRow s = .ok t := by
  induction batches generalizing s with
  | nil =>
    constructor
    · rintro ⟨-, rfl⟩
      exact ⟨List.forall_mem_nil _, rfl⟩
    · rintro ⟨-, h⟩
      cases h
      exact ⟨hs, rfl⟩
  | cons rows batches ih =>
    rw [List.map_cons, run_cons, apply, List.flatten_cons, List.foldlM_append,
      List.forall_mem_cons]
    rcases insert_cases hs hkind rows with ⟨hrows, hfold⟩ | ⟨herror, hfold⟩
    · obtain ⟨hs', hkind'⟩ := pushRows_frame hfold
      rw [hfold]
      constructor
      · intro h
        obtain ⟨hbatches, h⟩ := (ih (hs'.trans hs) (hkind'.trans hkind)).mp h
        exact ⟨⟨hrows, hbatches⟩, h⟩
      · rintro ⟨⟨-, hbatches⟩, h⟩
        exact (ih (hs'.trans hs) (hkind'.trans hkind)).mpr ⟨hbatches, h⟩
    -- A call that fails leaves its error to the end.
    · constructor
      · intro h
        exact absurd h.1 (run_inserts_of_error herror batches)
      · rintro ⟨⟨hrows, -⟩, h⟩
        obtain ⟨u, hu, -⟩ := Outcome.exists_of_bind_eq_ok h
        exact absurd hu (hfold u hrows)

/-- Every call has rows, every row can be inserted by itself, and all have the columns of the
first one. -/
structure Rectangular (e : Engine) (batches : List (List Row)) : Prop where
  calls : ∀ rows ∈ batches, rows ≠ []
  writable : ∀ row ∈ batches.flatten, Writable e row
  columns : ∀ row ∈ batches.flatten, ∀ first ∈ batches.flatten.head?, ∀ column,
    HasColumn e row column ↔ HasColumn e first column

/-- Given the first row, the others fit together with it when they line up with its columns. -/
theorem rectangular_iff {batches : List (List Row)} {first : Row} {rest : List Row}
    (hflatten : batches.flatten = first :: rest) :
    Rectangular e batches ↔ (∀ rows ∈ batches, rows ≠ []) ∧
      ∃ pairs tuples, Accepted e first pairs ∧
        Forall₂ (Aligned e (pairs.map Prod.fst)) (first :: rest) tuples := by
  constructor
  · intro h
    have hfirst : Writable e first := h.writable first (by rw [hflatten]; exact List.mem_cons_self)
    obtain ⟨pairs, haccepted⟩ := writable_iff.mp hfirst
    have haligned : ∀ row ∈ first :: rest, ∃ values, Aligned e (pairs.map Prod.fst) row values := by
      intro row hrow
      have hmem : row ∈ batches.flatten := hflatten ▸ hrow
      refine (exists_aligned_iff haccepted.distinct).mpr ⟨h.writable row hmem, fun c => ?_⟩
      rw [haccepted.mem_columns_iff]
      exact h.columns row hmem first (by rw [hflatten]; rfl) c
    obtain ⟨tuples, htuples⟩ := Outcome.exists_forall₂ haligned
    exact ⟨h.calls, pairs, tuples, haccepted, htuples⟩
  · rintro ⟨hcalls, pairs, tuples, haccepted, htuples⟩
    have haligned : ∀ row ∈ batches.flatten, Writable e row ∧
        ∀ c, HasColumn e row c ↔ c ∈ pairs.map Prod.fst := by
      intro row hrow
      rw [hflatten] at hrow
      obtain ⟨values, -, hvalues⟩ := Outcome.exists_of_mem_left htuples hrow
      exact (exists_aligned_iff haccepted.distinct).mp ⟨values, hvalues⟩
    refine ⟨hcalls, fun row hrow => (haligned row hrow).1, ?_⟩
    intro row hrow first' hfirst c
    rw [hflatten] at hfirst
    cases hfirst
    rw [(haligned row hrow).2, haccepted.mem_columns_iff]

theorem rectangular_iff_foldlM (hcolumns : s.insertColumns = [])
    (hclause : s.state.clause .insert = []) {batches : List (List Row)} :
    Rectangular s.engine batches ↔ (∀ rows ∈ batches, rows ≠ []) ∧
      ∃ t, batches.flatten.foldlM pushRow s = .ok t := by
  cases hflatten : batches.flatten with
  | nil =>
    constructor
    · intro h
      exact ⟨h.calls, s, rfl⟩
    · rintro ⟨hcalls, -⟩
      have hnone : ∀ row, row ∉ batches.flatten := by simp [hflatten]
      exact ⟨hcalls, fun row hrow => absurd hrow (hnone row),
        fun row hrow => absurd hrow (hnone row)⟩
  | cons first rest =>
    rw [rectangular_iff hflatten]
    simp only [pushRows_first hcolumns hclause]
    constructor
    · rintro ⟨hcalls, pairs, tuples, haccepted, htuples⟩
      exact ⟨hcalls, _, pairs, tuples, haccepted, htuples, rfl⟩
    · rintro ⟨hcalls, t, pairs, tuples, haccepted, htuples, -⟩
      exact ⟨hcalls, pairs, tuples, haccepted, htuples⟩

/-- A list of columns, and a tuple for each row. -/
def insertText (layout : Layout) (table : String) (columns : List String)
    (tuples : List (List String)) : String :=
  "INSERT INTO " ++ table ++ " (" ++ Engine.commaJoined columns ++ ")" ++
    (Piece.clause 0).written layout ++ "VALUES " ++
    Engine.commaJoined (tuples.map fun values => "(" ++ Engine.commaJoined values ++ ")")

def insertPieces (table : String) (columns : List String) (tuples : List (List String)) : Pieces :=
  [.text ("INSERT INTO " ++ table ++ " ("), .text (Engine.commaJoined columns), .text ")",
    .clause 0, .text "VALUES "] ++ [Piece.text ", "].intercalate
      (tuples.map fun values => [.text "(", .text (Engine.commaJoined values), .text ")"])

theorem write_insertPieces (layout : Layout) (table : String) (columns : List String)
    (tuples : List (List String)) :
    layout.write (insertPieces table columns tuples) =
      insertText layout table columns tuples := by
  have htuples : (tuples.map fun values =>
      [Piece.text "(", .text (Engine.commaJoined values), .text ")"]).map layout.write =
      tuples.map fun values => "(" ++ Engine.commaJoined values ++ ")" := by
    rw [List.map_map]
    apply List.map_congr_left
    intro values _
    simp only [Function.comp, Layout.write_cons, Layout.write_nil, Piece.written,
      String.append_assoc, String.append_empty]
  have hlist : Engine.commaJoined (tuples.map fun values => "(" ++ Engine.commaJoined values ++ ")")
      = layout.write ([Piece.text ", "].intercalate (tuples.map fun values =>
        [.text "(", .text (Engine.commaJoined values), .text ")"])) := by
    rw [Layout.write_intercalate, htuples, Engine.commaJoined]
    rfl
  unfold insertText
  rw [hlist, insertPieces, Layout.write_append]
  simp only [Layout.write_cons, Layout.write_nil, Piece.written, String.append_assoc,
    String.append_empty]

theorem inserted_ofTexts (table columns : String) (texts : List String) :
    Lines.inserted table ((Fragment.ofText columns).entry 0)
      (texts.map fun text => (Fragment.ofText text).entry 0) =
      .ok [[.text ("INSERT INTO " ++ table ++ " ("), .text columns, .text ")"],
        .text "VALUES " :: [Piece.text ", "].intercalate
          (texts.map fun text => [.text "(", .text text, .text ")"])] := by
  have hbodies : Entry.bodies (texts.map fun text => (Fragment.ofText text).entry 0) =
      .ok (texts.map fun text => [Piece.text text]) := by
    apply Outcome.mapM_eq_ok_of_forall₂
    rw [List.forall₂_map_left_iff, List.forall₂_map_right_iff, List.forall₂_same]
    exact fun _ _ => rfl
  rw [Lines.inserted, hbodies]
  simp only [bind, Except.bind, List.map_map]
  rfl

theorem foreign?_withRows (hclauses : ∀ c, s.state.clause c = []) (columns : List String)
    (tuples : List (List String)) :
    (tableEntries 0 (s.withRows columns tuples).state.clauses).foreign? = none := by
  rw [PerClause.foreign?, List.find?_eq_none]
  intro k _
  by_cases hk : k = .insert
  · simp [hk]
  · have hnil : (s.withRows columns tuples).state.clause k = [] :=
      (Snapshot.clause_setClause_of_ne _ _ hk).trans (hclauses k)
    rw [get_tableEntries, hnil]
    simp

theorem pieces_withRows {table : String} (hkind : s.kind = some .insert)
    (htable : s.state.table = some table) (hclauses : ∀ c, s.state.clause c = [])
    (columns : List String) {tuples : List (List String)} (hne : tuples ≠ []) :
    (s.withRows columns tuples).state.pieces 0 = .ok (insertPieces table columns tuples) := by
  have hkind' : (s.withRows columns tuples).state.kind = some .insert := hkind
  have htable' : (s.withRows columns tuples).state.table = some table := htable
  have hrows : (tableEntries 0 (s.withRows columns tuples).state.clauses).insert =
      (Fragment.ofText (Engine.commaJoined columns)).entry 0 ::
        (tuples.map Engine.commaJoined).map fun text => (Fragment.ofText text).entry 0 := by
    refine (get_tableEntries _ 0 .insert).trans ?_
    rw [withRows, Snapshot.clause_setClause_self, List.map_cons, List.map_map, List.map_map]
    rfl
  have hinsert := Lines.insert_eq (some table)
    (tableEntries 0 (s.withRows columns tuples).state.clauses)
  rw [foreign?_withRows hclauses, hrows] at hinsert
  obtain ⟨values, tuples, rfl⟩ := List.exists_cons_of_ne_nil hne
  have hinserted := inserted_ofTexts table (Engine.commaJoined columns)
    ((values :: tuples).map Engine.commaJoined)
  rw [Snapshot.pieces_eq, hkind', htable', Lines.ofKind, Option.getD_some]
  dsimp only
  rw [hinsert]
  refine (congrArg (Except.map _) hinserted).trans ?_
  simp [Except.map, Lines.join, List.intercalate_cons_cons, insertPieces, Function.comp_def]

theorem toSql_withRows {table : String} (herror : s.error = none) (hkind : s.kind = some .insert)
    (htable : s.state.table = some table) (hclauses : ∀ c, s.state.clause c = [])
    (columns : List String) {tuples : List (List String)} (hne : tuples ≠ []) (layout : Layout) :
    (s.withRows columns tuples).toSql layout = .ok (insertText layout table columns tuples) := by
  have hnone : (s.withRows columns tuples).error = none := herror
  have hpieces := pieces_withRows hkind htable hclauses columns hne
  rw [← write_insertPieces, toSql, checked, hnone]
  refine (Snapshot.render_eq _ layout).trans ?_
  rw [hpieces]
  rfl

/-- A statement with a target, and with nothing that an INSERT could not hold. -/
structure Bare (s : Statement) (table : String) : Prop where
  error : s.error = none
  table : s.state.table = some table
  clauses : ∀ c, s.state.clause c = []
  columns : s.insertColumns = []

theorem Bare.switchKind {table : String} (h : Bare s table) (kind : StatementKind) :
    Bare (s.switchKind kind) table := by
  have htable := (SameOutside.switchKind s kind).table.symm.trans h.table
  have herror := (error_switchKind s kind).trans h.error
  rw [Statement.switchKind] at htable herror ⊢
  cases hs : s.kind with
  | none =>
    rw [hs] at htable herror
    exact ⟨herror, htable, h.clauses, h.columns⟩
  | some k =>
    by_cases hk : k = kind
    · simp only [hk, if_true]
      exact h
    · simp only [hs, hk, if_false] at htable herror ⊢
      exact ⟨herror, htable, Snapshot.clause_clear s.state, rfl⟩

theorem run_switchKind {table : String} (h : Bare s table) {batches : List (List Row)}
    (hne : batches ≠ []) :
    s.run (batches.map .insert) = (s.switchKind .insert).run (batches.map .insert) := by
  obtain ⟨rows, batches, rfl⟩ := List.exists_cons_of_ne_nil hne
  rw [List.map_cons, run_cons, run_cons, apply, apply, insert_switchKind h.error]

theorem insertion_iff {table : String} (h : Bare s table) (batches : List (List Row)) :
    (s.run (batches.map .insert)).error = none ↔ Rectangular s.engine batches := by
  have hbare := h.switchKind .insert
  by_cases hne : batches = []
  · subst hne
    constructor
    · intro _
      exact ⟨by simp, by simp, by simp⟩
    · intro _
      exact h.error
  · rw [run_switchKind h hne, ← engine_switchKind s .insert,
      rectangular_iff_foldlM hbare.columns (hbare.clauses .insert)]
    constructor
    · intro herror
      obtain ⟨hcalls, hfold⟩ :=
        (run_inserts hbare.error (kind_switchKind s .insert)).mp ⟨herror, rfl⟩
      exact ⟨hcalls, _, hfold⟩
    · rintro ⟨hcalls, t, hfold⟩
      exact ((run_inserts hbare.error (kind_switchKind s .insert)).mpr ⟨hcalls, hfold⟩).1

/-- The statement that rows which fit together lead to. -/
theorem insertion_eq {table : String} (h : Bare s table) {batches : List (List Row)}
    (hcalls : ∀ rows ∈ batches, rows ≠ []) {first : Row} {rest : List Row}
    (hflatten : batches.flatten = first :: rest) {pairs : List (String × String)}
    (haccepted : Accepted s.engine first pairs) {tuples : List (List String)}
    (htuples : Forall₂ (Aligned s.engine (pairs.map Prod.fst)) (first :: rest) tuples) :
    s.run (batches.map .insert) =
      (s.switchKind .insert).withRows (pairs.map Prod.fst) tuples := by
  have hbare := h.switchKind .insert
  have hne : batches ≠ [] := by
    rintro rfl
    cases hflatten
  rw [← engine_switchKind s .insert] at haccepted htuples
  have hfold := (pushRows_first hbare.columns (hbare.clauses .insert)).mpr
    ⟨pairs, tuples, haccepted, htuples, rfl⟩
  rw [run_switchKind h hne]
  refine ((run_inserts hbare.error (kind_switchKind s .insert)).mpr ⟨hcalls, ?_⟩).2
  rw [hflatten]
  exact hfold

/-- Rows inserted into a statement without clauses are accepted just when they fit together. Then
the first row gives the order of the columns, each row a tuple of what it gives for them, and
neither the order within a later row nor the cut into calls matters. -/
theorem rows_align_by_column (d : Dialect) (view : Snapshot) (calls : List Call)
    {s : Statement} (hs : s = (ofStructured d view).run calls) (herror : s.error = none)
    {table : String} (htable : s.state.table = some table)
    (hclauses : ∀ c, s.state.clause c = []) (batches : List (List Row)) :
    ((s.run (batches.map .insert)).error = none ↔ Rectangular d.engine batches) ∧
    ∀ first rest, batches.flatten = first :: rest → Rectangular d.engine batches →
      ∃ columns tuples, d.engine.quoteIdents (first.map Prod.fst) = .ok columns ∧
        Forall₂ (fun row values => Forall₂ (Gives d.engine row) columns values)
          (first :: rest) tuples ∧
        (∀ layout, (s.run (batches.map .insert)).toSql layout =
          .ok (insertText layout table columns tuples)) ∧
        ∀ (batches' : List (List Row)) (rest' : List Row), (∀ rows ∈ batches', rows ≠ []) →
          batches'.flatten = first :: rest' → Forall₂ List.Perm rest rest' →
          s.run (batches'.map .insert) = s.run (batches.map .insert) := by
  have hcolumns : s.insertColumns = [] := by
    have hrows : ColumnsWithRows s := hs ▸ (ColumnsWithRows.ofStructured d view).run calls
    exact hrows (hclauses .insert)
  have hbare : Bare s table := ⟨herror, htable, hclauses, hcolumns⟩
  have hengine : s.engine = d.engine := by
    rw [hs]
    exact congrArg Dialect.engine (run_outside (ofStructured d view) calls).dialect
  rw [← hengine]
  refine ⟨insertion_iff hbare batches, fun first rest hflatten hrectangular => ?_⟩
  obtain ⟨hcalls, pairs, tuples, haccepted, htuples⟩ := (rectangular_iff hflatten).mp hrectangular
  have hrun := insertion_eq hbare hcalls hflatten haccepted htuples
  have hswitched := hbare.switchKind .insert
  refine ⟨pairs.map Prod.fst, tuples, haccepted.quoted, ?_, ?_, ?_⟩
  · exact htuples.imp fun row values haligned => haligned.gives haccepted.distinct
  · intro layout
    have hne : tuples ≠ [] := by
      rintro rfl
      cases htuples
    rw [hrun]
    exact toSql_withRows hswitched.error (kind_switchKind s .insert) hswitched.table
      hswitched.clauses _ hne layout
  · intro batches' rest' hcalls' hflatten' hperm
    obtain ⟨values, others, hfirst, hothers, rfl⟩ := List.forall₂_cons_left_iff.mp htuples
    have hothers' := aligned_perm haccepted.distinct hothers hperm
    rw [hrun]
    exact insertion_eq hbare hcalls' hflatten' haccepted (.cons hfirst hothers')

def rose : Row := [("id", .int 1), ("name", .text "rose")]

def crow : Row := [("name", .text "crow"), (" id ", .int 2)]

def onlyUsers : Statement := (new .mysql).run [.table "users"]

theorem rose_and_crow_align :
    Rectangular .mysql [[rose, crow]] ∧
    (onlyUsers.run [.insert [rose, crow]]).toSql .compact = .ok
      "INSERT INTO \x60users\x60 (\x60id\x60, \x60name\x60) VALUES (1, 'rose'), (2, 'crow')" ∧
    onlyUsers.run [.insert [rose], .insert [crow.reverse]] =
      onlyUsers.run [.insert [rose, crow]] ∧
    ¬ Rectangular .mysql [[rose], [[("name", .text "crow")]]] := by
  have herror : onlyUsers.error = none := Option.isNone_iff_eq_none.mp (by decide +kernel)
  have htable : onlyUsers.state.table = some "\x60users\x60" := by decide +kernel
  have hclauses (c : ClauseKind) : onlyUsers.state.clause c = [] :=
    List.isEmpty_iff.mp (by cases c <;> decide +kernel)
  have halign (batches : List (List Row)) :=
    rows_align_by_column .mysql .empty [.table "users"] rfl herror htable hclauses batches
  have haccepted : (onlyUsers.run [.insert [rose, crow]]).error = none :=
    Option.isNone_iff_eq_none.mp (by decide +kernel)
  have hrectangular := (halign [[rose, crow]]).1.mp haccepted
  obtain ⟨_, _, -, -, -, hregrouped⟩ := (halign [[rose, crow]]).2 rose [crow] rfl hrectangular
  refine ⟨hrectangular, Outcome.eq_ok_of_toOption (by decide +kernel), ?_, ?_⟩
  · refine hregrouped [[rose], [crow.reverse]] [crow.reverse] ?_ rfl ?_
    · simp
    · exact .cons (List.reverse_perm crow).symm .nil
  · intro hnarrow
    have hnone := (halign [[rose], [[("name", .text "crow")]]]).1.mpr hnarrow
    have hsome : (onlyUsers.run [.insert [rose], .insert [[("name", .text "crow")]]]).error.isSome
        = true := by decide +kernel
    rw [Option.isSome_iff_ne_none] at hsome
    exact hsome hnone

end SqlBuilder.Statement
