import Mathlib.Data.List.Nodup
import Mathlib.Data.List.Perm.Basic
import SqlBuilder.Proofs.Ident
import SqlBuilder.Proofs.Lockstep
import SqlBuilder.Proofs.Lookup

/-!
# Rows by column

A row is accepted when it names each of its columns once and every value can be written. Lined
up with given columns it has to name exactly these, in any order: the width and the check for
unknown columns come to that, and no column is ever found missing.
-/
namespace SqlBuilder.Statement

open List (Forall₂)

variable {e : Engine} {row row' : Row} {pairs pairs' : List (String × String)}
  {columns values : List String}

/-- An entry of a row and how it is written. -/
def Writes (e : Engine) (p : String × Value) (q : String × String) : Prop :=
  e.quoteIdent p.1 = .ok q.1 ∧ columnValue e p.1 p.2 = .ok q.2

theorem escapeRow_eq_ok_iff {seen : List String} :
    escapeRow e seen row = .ok pairs ↔
      Forall₂ (Writes e) row pairs ∧ (pairs.map Prod.fst).Nodup ∧
        ∀ c ∈ pairs.map Prod.fst, c ∉ seen := by
  induction row generalizing seen pairs with
  | nil =>
    constructor
    · intro h
      cases h
      simp
    · rintro ⟨h, -, -⟩
      cases h
      rfl
  | cons entry row ih =>
    obtain ⟨column, v⟩ := entry
    rw [escapeRow]
    constructor
    · intro h
      obtain ⟨name, hname, h⟩ := Outcome.exists_of_bind_eq_ok h
      split at h
      · cases h
      rename_i hseen
      obtain ⟨value, hvalue, h⟩ := Outcome.exists_of_bind_eq_ok h
      obtain ⟨rest, hrest, h⟩ := Outcome.exists_of_bind_eq_ok h
      cases h
      obtain ⟨hall, hnodup, hfresh⟩ := ih.mp hrest
      have hname' : name ∉ rest.map Prod.fst := fun hc => hfresh name hc List.mem_cons_self
      refine ⟨.cons ⟨hname, hvalue⟩ hall, List.nodup_cons.mpr ⟨hname', hnodup⟩, ?_⟩
      intro c hc hcseen
      rcases List.mem_cons.mp hc with rfl | hc
      · exact hseen hcseen
      · exact hfresh c hc (List.mem_cons_of_mem _ hcseen)
    · rintro ⟨hall, hnodup, hfresh⟩
      obtain ⟨⟨name, value⟩, rest, ⟨hname, hvalue⟩, hrow, rfl⟩ := List.forall₂_cons_left_iff.mp hall
      rw [List.map_cons, List.nodup_cons] at hnodup
      have hseen : name ∉ seen := hfresh name List.mem_cons_self
      have hrest : escapeRow e (name :: seen) row = .ok rest := by
        refine ih.mpr ⟨hrow, hnodup.2, fun c hc hcseen => ?_⟩
        rcases List.mem_cons.mp hcseen with rfl | hcseen
        · exact hnodup.1 hc
        · exact hfresh c (List.mem_cons_of_mem _ hc) hcseen
      simp only at hname hvalue
      simp only [hname, hvalue, hrest, hseen, if_false, bind, Except.bind]
      rfl

/-- The entries of a row as they are written, when it is accepted. -/
structure Accepted (e : Engine) (row : Row) (pairs : List (String × String)) : Prop where
  nonempty : row ≠ []
  writes : Forall₂ (Writes e) row pairs
  distinct : (pairs.map Prod.fst).Nodup

theorem accepted_iff : Accepted e row pairs ↔ row ≠ [] ∧ escapeRow e [] row = .ok pairs := by
  rw [escapeRow_eq_ok_iff]
  constructor
  · intro h
    exact ⟨h.nonempty, h.writes, h.distinct, fun _ _ => List.not_mem_nil⟩
  · rintro ⟨hrow, hwrites, hdistinct, -⟩
    exact ⟨hrow, hwrites, hdistinct⟩

namespace Accepted

theorem columns_nonempty (h : Accepted e row pairs) : pairs.map Prod.fst ≠ [] :=
  (rowColumns_of_escapeRow h.nonempty (accepted_iff.mp h).2).nonempty

theorem quoted (h : Accepted e row pairs) :
    e.quoteIdents (row.map Prod.fst) = .ok (pairs.map Prod.fst) :=
  quoteIdents_of_escapeRow (accepted_iff.mp h).2

theorem perm (h : Accepted e row pairs) (hperm : row.Perm row') :
    ∃ pairs', Accepted e row' pairs' ∧ pairs'.Perm pairs := by
  obtain ⟨pairs', hwrites, hpairs⟩ := List.perm_comp_forall₂ hperm.symm h.writes
  have hdistinct := (hpairs.map Prod.fst).nodup_iff.mpr h.distinct
  refine ⟨pairs', ⟨?_, hwrites, hdistinct⟩, hpairs⟩
  rintro rfl
  exact h.nonempty (List.perm_nil.mp hperm)

end Accepted

def HasColumn (e : Engine) (row : Row) (column : String) : Prop :=
  ∃ p ∈ row, e.quoteIdent p.1 = .ok column

def Gives (e : Engine) (row : Row) (column text : String) : Prop :=
  ∃ p ∈ row, e.quoteIdent p.1 = .ok column ∧ e.escape p.2 = .ok text

/-- A row that can be inserted by itself. -/
structure Writable (e : Engine) (row : Row) : Prop where
  nonempty : row ≠ []
  named : ∀ p ∈ row, ∃ name, Ident.parse p.1 = .ok name
  distinct : (row.map fun p => e.quoteIdent p.1).Nodup
  valued : ∀ p ∈ row, (∀ items, p.2 ≠ .list items) ∧ ∃ text, e.escape p.2 = .ok text

theorem columnValue_eq_ok_iff {column text : String} {v : Value} :
    columnValue e column v = .ok text ↔ (∀ items, v ≠ .list items) ∧ e.escape v = .ok text := by
  cases v with
  | list items =>
    constructor
    · intro h
      cases h
    · intro h
      exact absurd rfl (h.1 items)
  | _ => simp [columnValue]

theorem Writes.quoted_map (h : Forall₂ (Writes e) row pairs) :
    (row.map fun p => e.quoteIdent p.1) = (pairs.map Prod.fst).map .ok := by
  induction h with
  | nil => rfl
  | cons hwrites _ ih =>
    rw [List.map_cons, List.map_cons, List.map_cons, hwrites.1, ih]

theorem distinct_iff (h : Forall₂ (Writes e) row pairs) :
    (row.map fun p => e.quoteIdent p.1).Nodup ↔ (pairs.map Prod.fst).Nodup := by
  rw [Writes.quoted_map h]
  exact List.nodup_map_iff fun _ _ => Except.ok.inj

theorem writable_iff : Writable e row ↔ ∃ pairs, Accepted e row pairs := by
  constructor
  · intro h
    have hwrites : ∀ p ∈ row, ∃ q, Writes e p q := by
      intro p hp
      obtain ⟨name, hname⟩ := h.named p hp
      obtain ⟨hlist, text, htext⟩ := h.valued p hp
      refine ⟨(name.toSql e.identQuote, text), ?_, columnValue_eq_ok_iff.mpr ⟨hlist, htext⟩⟩
      rw [Engine.quoteIdent, hname]
    obtain ⟨pairs, hpairs⟩ := Outcome.exists_forall₂ hwrites
    exact ⟨pairs, h.nonempty, hpairs, (distinct_iff hpairs).mp h.distinct⟩
  · rintro ⟨pairs, h⟩
    have hwrites : ∀ p ∈ row, ∃ q ∈ pairs, Writes e p q :=
      fun p hp => Outcome.exists_of_mem_left h.writes hp
    refine ⟨h.nonempty, ?_, (distinct_iff h.writes).mpr h.distinct, ?_⟩
    · intro p hp
      obtain ⟨q, -, hname, -⟩ := hwrites p hp
      obtain ⟨name, hparse, -⟩ := Ident.exists_of_quoteIdent hname
      exact ⟨name, hparse⟩
    · intro p hp
      obtain ⟨q, -, -, hvalue⟩ := hwrites p hp
      obtain ⟨hlist, htext⟩ := columnValue_eq_ok_iff.mp hvalue
      exact ⟨hlist, _, htext⟩

theorem Accepted.mem_iff (h : Accepted e row pairs) {column text : String} :
    (column, text) ∈ pairs ↔ Gives e row column text := by
  constructor
  · intro hmem
    obtain ⟨p, hp, hname, hvalue⟩ := Outcome.exists_of_mem_right h.writes hmem
    exact ⟨p, hp, hname, (columnValue_eq_ok_iff.mp hvalue).2⟩
  · rintro ⟨p, hp, hname, htext⟩
    obtain ⟨q, hq, hname', hvalue⟩ := Outcome.exists_of_mem_left h.writes hp
    have hcolumn : q.1 = column := Except.ok.inj (hname'.symm.trans hname)
    have hvalue' : q.2 = text :=
      Except.ok.inj ((columnValue_eq_ok_iff.mp hvalue).2.symm.trans htext)
    exact hcolumn ▸ hvalue' ▸ hq

theorem Accepted.mem_columns_iff (h : Accepted e row pairs) {column : String} :
    column ∈ pairs.map Prod.fst ↔ HasColumn e row column := by
  rw [List.mem_map]
  constructor
  · rintro ⟨q, hq, rfl⟩
    obtain ⟨p, hp, hname, -⟩ := Outcome.exists_of_mem_right h.writes hq
    exact ⟨p, hp, hname⟩
  · rintro ⟨p, hp, hname⟩
    obtain ⟨q, hq, hname', -⟩ := Outcome.exists_of_mem_left h.writes hp
    exact ⟨q, hq, Except.ok.inj (hname'.symm.trans hname)⟩

theorem perm_of_alignRow (hdistinct : (pairs.map Prod.fst).Nodup)
    (h : alignRow columns pairs = .ok values) : (pairs.map Prod.fst).Perm columns := by
  rw [alignRow] at h
  split at h
  · cases h
  rename_i hwidth
  split at h
  · cases h
  rename_i hfind
  have hsub : pairs.map Prod.fst ⊆ columns := by
    intro c hc
    obtain ⟨p, hp, rfl⟩ := List.mem_map.mp hc
    simpa using List.find?_eq_none.mp hfind p hp
  have hlength : columns.length ≤ (pairs.map Prod.fst).length := by simp [not_not.mp hwidth]
  exact (List.subperm_of_subset hdistinct hsub).perm_of_length_le hlength

theorem alignRow_eq_ok_iff (hcolumns : columns.Nodup) (hdistinct : (pairs.map Prod.fst).Nodup) :
    alignRow columns pairs = .ok values ↔
      (∀ c, c ∈ pairs.map Prod.fst ↔ c ∈ columns) ∧
        Forall₂ (fun c v => (c, v) ∈ pairs) columns values := by
  constructor
  · intro h
    refine ⟨fun c => (perm_of_alignRow hdistinct h).mem_iff, ?_⟩
    rw [alignRow] at h
    split at h
    · cases h
    split at h
    · cases h
    refine (Outcome.forall₂_of_mapM_eq_ok h).imp fun c v hv => ?_
    split at hv
    · rename_i value hlookup
      cases hv
      exact (Lookup.lookup_eq_some_iff_mem hdistinct).mp hlookup
    · cases hv
  · rintro ⟨hmem, hvalues⟩
    have hperm := (List.perm_ext_iff_of_nodup hdistinct hcolumns).mpr hmem
    have hwidth : pairs.length = columns.length := by
      rw [← hperm.length_eq, List.length_map]
    have hfind : pairs.find? (fun p => p.1 ∉ columns) = none := by
      rw [List.find?_eq_none]
      intro p hp
      simpa using (hmem p.1).mp (List.mem_map_of_mem hp)
    rw [alignRow, if_neg (not_not.mpr hwidth), hfind]
    refine Outcome.mapM_eq_ok_of_forall₂ (hvalues.imp fun c v hv => ?_)
    rw [(Lookup.lookup_eq_some_iff_mem hdistinct).mpr hv]

/-- The row is accepted, and `values` are what it gives for the columns, which are its own. -/
def Aligned (e : Engine) (columns : List String) (row : Row) (values : List String) : Prop :=
  ∃ pairs, Accepted e row pairs ∧ alignRow columns pairs = .ok values

theorem Accepted.alignRow_self (h : Accepted e row pairs) :
    alignRow (pairs.map Prod.fst) pairs = .ok (pairs.map Prod.snd) := by
  rw [alignRow_eq_ok_iff h.distinct h.distinct]
  refine ⟨fun _ => .rfl, ?_⟩
  rw [List.forall₂_map_left_iff, List.forall₂_map_right_iff, List.forall₂_same]
  exact fun p hp => hp

theorem Accepted.unique (h : Accepted e row pairs) (h' : Accepted e row pairs') :
    pairs = pairs' :=
  Except.ok.inj ((accepted_iff.mp h).2.symm.trans (accepted_iff.mp h').2)

theorem Aligned.perm (hcolumns : columns.Nodup) (h : Aligned e columns row values)
    (hperm : row.Perm row') : Aligned e columns row' values := by
  obtain ⟨pairs, haccepted, halign⟩ := h
  obtain ⟨hmem, hvalues⟩ := (alignRow_eq_ok_iff hcolumns haccepted.distinct).mp halign
  obtain ⟨pairs', haccepted', hpairs⟩ := haccepted.perm hperm
  refine ⟨pairs', haccepted', (alignRow_eq_ok_iff hcolumns haccepted'.distinct).mpr ⟨?_, ?_⟩⟩
  · intro c
    rw [(hpairs.map Prod.fst).mem_iff, hmem]
  · exact hvalues.imp fun c v hv => hpairs.mem_iff.mpr hv

theorem aligned_perm (hcolumns : columns.Nodup) {rows rows' : List Row}
    {tuples : List (List String)} (h : Forall₂ (Aligned e columns) rows tuples)
    (hperm : Forall₂ List.Perm rows rows') : Forall₂ (Aligned e columns) rows' tuples := by
  induction h generalizing rows' with
  | nil =>
    cases hperm
    exact .nil
  | cons haligned _ ih =>
    obtain ⟨row', rows', hrow, hrows, rfl⟩ := List.forall₂_cons_left_iff.mp hperm
    exact .cons (haligned.perm hcolumns hrow) (ih hrows)

theorem Aligned.gives (hcolumns : columns.Nodup) (h : Aligned e columns row values) :
    Forall₂ (Gives e row) columns values := by
  obtain ⟨pairs, haccepted, halign⟩ := h
  obtain ⟨-, hvalues⟩ := (alignRow_eq_ok_iff hcolumns haccepted.distinct).mp halign
  exact hvalues.imp fun _ _ hmem => haccepted.mem_iff.mp hmem

theorem exists_aligned_iff (hcolumns : columns.Nodup) :
    (∃ values, Aligned e columns row values) ↔
      Writable e row ∧ ∀ c, HasColumn e row c ↔ c ∈ columns := by
  constructor
  · rintro ⟨values, pairs, haccepted, halign⟩
    obtain ⟨hmem, -⟩ := (alignRow_eq_ok_iff hcolumns haccepted.distinct).mp halign
    have hwritable : Writable e row := writable_iff.mpr ⟨pairs, haccepted⟩
    exact ⟨hwritable, fun c => haccepted.mem_columns_iff.symm.trans (hmem c)⟩
  · rintro ⟨hwritable, hhas⟩
    obtain ⟨pairs, haccepted⟩ := writable_iff.mp hwritable
    have hmem (c : String) : c ∈ pairs.map Prod.fst ↔ c ∈ columns :=
      haccepted.mem_columns_iff.trans (hhas c)
    have hvalue : ∀ c ∈ columns, ∃ v, (c, v) ∈ pairs := by
      intro c hc
      obtain ⟨⟨c, v⟩, hq, rfl⟩ := List.mem_map.mp ((hmem c).mpr hc)
      exact ⟨v, hq⟩
    obtain ⟨values, hvalues⟩ := Outcome.exists_forall₂ hvalue
    exact ⟨values, pairs, haccepted,
      (alignRow_eq_ok_iff hcolumns haccepted.distinct).mpr ⟨hmem, hvalues⟩⟩

variable {s t : Statement} {rows : List Row}

/-- The statement with some rows for its only ones, lined up with the columns. -/
def withRows (s : Statement) (columns : List String) (tuples : List (List String)) : Statement :=
  { s with
    state := s.state.setClause .insert (.ofText (Engine.commaJoined columns) ::
      tuples.map fun values => .ofText (Engine.commaJoined values))
    insertColumns := columns }

theorem setClause_setClause (view : Snapshot) (c : ClauseKind) (fs gs : List Fragment) :
    (view.setClause c fs).setClause c gs = view.setClause c gs := by
  simp only [Snapshot.setClause]
  cases c <;> rfl

theorem push_withRows (s : Statement) (columns : List String) (tuples : List (List String))
    (values : List String) :
    (s.withRows columns tuples).push .insert (.ofText (Engine.commaJoined values)) =
      s.withRows columns (tuples ++ [values]) := by
  simp only [push, withRows, Snapshot.push, Snapshot.clause_setClause_self, setClause_setClause]
  simp

theorem pushRow_eq_ok_iff : s.pushRow row = .ok t ↔ ∃ pairs values, Accepted s.engine row pairs ∧
    alignRow (s.setColumns (pairs.map Prod.fst)).insertColumns pairs = .ok values ∧
    t = (s.setColumns (pairs.map Prod.fst)).push .insert
      (.ofText (Engine.commaJoined values)) := by
  rw [pushRow]
  constructor
  · intro h
    split at h
    · cases h
    rename_i hrow
    obtain ⟨pairs, hpairs, h⟩ := Outcome.exists_of_bind_eq_ok h
    obtain ⟨values, hvalues, h⟩ := Outcome.exists_of_bind_eq_ok h
    cases h
    exact ⟨pairs, values, accepted_iff.mpr ⟨mt List.isEmpty_iff.mpr hrow, hpairs⟩, hvalues, rfl⟩
  · rintro ⟨pairs, values, haccepted, hvalues, rfl⟩
    obtain ⟨hrow, hpairs⟩ := accepted_iff.mp haccepted
    rw [if_neg (mt List.isEmpty_iff.mp hrow), hpairs]
    simp only [bind, Except.bind, hvalues]
    rfl

theorem pushRow_first (hcolumns : s.insertColumns = []) (hclause : s.state.clause .insert = []) :
    s.pushRow row = .ok t ↔ ∃ pairs, Accepted s.engine row pairs ∧
      t = s.withRows (pairs.map Prod.fst) [pairs.map Prod.snd] := by
  have hset (names : List String) : s.setColumns names = s.withRows names [] := by
    rw [setColumns, if_pos hcolumns]
    simp only [push, withRows, Snapshot.push, hclause]
    rfl
  simp only [pushRow_eq_ok_iff, hset, push_withRows, List.nil_append]
  constructor
  · rintro ⟨pairs, values, haccepted, halign, rfl⟩
    cases haccepted.alignRow_self.symm.trans halign
    exact ⟨pairs, haccepted, rfl⟩
  · rintro ⟨pairs, haccepted, rfl⟩
    exact ⟨pairs, _, haccepted, haccepted.alignRow_self, rfl⟩

def rowFragments (tuples : List (List String)) : List Fragment :=
  tuples.map fun values => .ofText (Engine.commaJoined values)

theorem pushRow_known (hcolumns : s.insertColumns ≠ []) :
    s.pushRow row = .ok t ↔ ∃ values, Aligned s.engine s.insertColumns row values ∧
      t = s.push .insert (.ofText (Engine.commaJoined values)) := by
  have hset (names : List String) : s.setColumns names = s := if_neg hcolumns
  simp only [pushRow_eq_ok_iff, hset]
  constructor
  · rintro ⟨pairs, values, haccepted, halign, rfl⟩
    exact ⟨values, ⟨pairs, haccepted, halign⟩, rfl⟩
  · rintro ⟨values, ⟨pairs, haccepted, halign⟩, rfl⟩
    exact ⟨pairs, values, haccepted, halign, rfl⟩

theorem pushRows_known (hcolumns : s.insertColumns ≠ []) :
    rows.foldlM pushRow s = .ok t ↔ ∃ tuples,
      Forall₂ (Aligned s.engine s.insertColumns) rows tuples ∧
        t = s.pushAll .insert (rowFragments tuples) := by
  induction rows generalizing s with
  | nil =>
    constructor
    · intro h
      cases h
      exact ⟨[], .nil, rfl⟩
    · rintro ⟨tuples, hnil, rfl⟩
      cases hnil
      rfl
  | cons row rows ih =>
    rw [List.foldlM_cons]
    constructor
    · intro h
      obtain ⟨u, hrow, h⟩ := Outcome.exists_of_bind_eq_ok h
      obtain ⟨values, hvalues, rfl⟩ := (pushRow_known hcolumns).mp hrow
      obtain ⟨tuples, htuples, rfl⟩ := (ih (s := s.push .insert _) hcolumns).mp h
      exact ⟨values :: tuples, .cons hvalues htuples, rfl⟩
    · rintro ⟨_, hall, rfl⟩
      obtain ⟨values, tuples, hvalues, htuples, rfl⟩ := List.forall₂_cons_left_iff.mp hall
      rw [(pushRow_known hcolumns).mpr ⟨values, hvalues, rfl⟩]
      exact (ih (s := s.push .insert _) hcolumns).mpr ⟨tuples, htuples, rfl⟩

theorem pushAll_withRows (s : Statement) (columns : List String) (tuples new : List (List String)) :
    (s.withRows columns tuples).pushAll .insert (rowFragments new) =
      s.withRows columns (tuples ++ new) := by
  induction new generalizing tuples with
  | nil => rw [List.append_nil]; rfl
  | cons values new ih =>
    refine (congrArg (pushAll · .insert (rowFragments new))
      (push_withRows s columns tuples values)).trans ?_
    rw [ih, List.append_assoc, List.singleton_append]

theorem pushRows_next (hnonempty : columns ≠ []) {tuples : List (List String)} :
    rows.foldlM pushRow (s.withRows columns tuples) = .ok t ↔
      ∃ new, Forall₂ (Aligned s.engine columns) rows new ∧
        t = s.withRows columns (tuples ++ new) := by
  rw [pushRows_known (s := s.withRows columns tuples) hnonempty]
  simp only [pushAll_withRows]
  rfl

/-- Rows are added to a statement without any when each lines up with the columns of the first. -/
theorem pushRows_first (hcolumns : s.insertColumns = [])
    (hclause : s.state.clause .insert = []) :
    (row :: rows).foldlM pushRow s = .ok t ↔ ∃ pairs tuples, Accepted s.engine row pairs ∧
      Forall₂ (Aligned s.engine (pairs.map Prod.fst)) (row :: rows) tuples ∧
      t = s.withRows (pairs.map Prod.fst) tuples := by
  rw [List.foldlM_cons]
  constructor
  · intro h
    obtain ⟨u, hrow, h⟩ := Outcome.exists_of_bind_eq_ok h
    obtain ⟨pairs, haccepted, rfl⟩ := (pushRow_first hcolumns hclause).mp hrow
    obtain ⟨new, hnew, rfl⟩ := (pushRows_next haccepted.columns_nonempty).mp h
    exact ⟨pairs, _, haccepted, .cons ⟨pairs, haccepted, haccepted.alignRow_self⟩ hnew, rfl⟩
  · rintro ⟨pairs, tuples, haccepted, htuples, rfl⟩
    obtain ⟨values, new, ⟨pairs', haccepted', halign⟩, hnew, rfl⟩ :=
      List.forall₂_cons_left_iff.mp htuples
    obtain rfl := haccepted.unique haccepted'
    cases haccepted.alignRow_self.symm.trans halign
    rw [(pushRow_first hcolumns hclause).mpr ⟨pairs, haccepted, rfl⟩]
    exact (pushRows_next haccepted.columns_nonempty).mpr ⟨new, hnew, rfl⟩

end SqlBuilder.Statement
