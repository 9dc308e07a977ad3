import SqlBuilder.Proofs.Nesting
import SqlBuilder.Proofs.Parentheses

/-!
# The outline of a statement

What a statement is rendered to, with its parentheses kept: those around a nested statement, around
a predicate list and the groups in it, around the columns of an INSERT and around each of its rows.
-/
namespace SqlBuilder

open List (Forall₂)

/-- A fragment of a clause with its nested statements outlined. -/
structure OutlineEntry where
  body : Outline
  op : BoolOp

namespace Outline

def text (s : String) : Node := .piece (.text s)

def commaList (ys : List OutlineEntry) : Outline :=
  [text ", "].intercalate (ys.map OutlineEntry.body)

/-- Where the operator changes, the rest is a group of its own, unless it is only one entry. -/
def predicateTail : List OutlineEntry → Outline
  | [] => []
  | [y] => y.body
  | y :: z :: rest => y.body ++ text (" " ++ y.op.keyword ++ " ") ::
    if y.op ≠ z.op && !rest.isEmpty then [.paren (predicateTail (z :: rest))]
    else predicateTail (z :: rest)

def keywordList (keyword : String) (ys : List OutlineEntry) : List Outline :=
  if ys.isEmpty then [] else [text (keyword ++ " ") :: commaList ys]

def keywordPredicates (keyword : String) (ys : List OutlineEntry) : List Outline :=
  if ys.isEmpty then [] else [[text (keyword ++ " "), .paren (predicateTail ys)]]

def ending (d : PerClause (List OutlineEntry)) : List Outline :=
  keywordList "ORDER BY" d.ordering ++ d.limit.map OutlineEntry.body

def columns (d : PerClause (List OutlineEntry)) : Outline :=
  if d.select.isEmpty && d.aggregate.isEmpty then [text "*"]
  else commaList (d.select ++ d.aggregate)

def source (table : String) (d : PerClause (List OutlineEntry)) : Outline :=
  if d.source.isEmpty then [text table] else commaList d.source

def inserted (table : String) : List OutlineEntry → List Outline
  | [] => []
  | columns :: rows =>
    [[text ("INSERT INTO " ++ table ++ " "), .paren columns.body],
      text "VALUES " :: [text ", "].intercalate (rows.map fun row => [.paren row.body])]

/-- The lines of a statement that has what its kind needs. -/
def lines (kind : Option StatementKind) (table : String) (d : PerClause (List OutlineEntry)) :
    List Outline :=
  match kind.getD .select with
  | .select =>
    [text "SELECT " :: columns d, text "FROM " :: source table d] ++ d.join.map OutlineEntry.body
      ++ keywordPredicates "WHERE" d.filter ++ keywordList "GROUP BY" d.grouping
      ++ keywordPredicates "HAVING" d.having ++ ending d
  | .insert => inserted table d.insert
  | .update =>
    [[text ("UPDATE " ++ table)], text "SET " :: commaList d.update]
      ++ keywordPredicates "WHERE" d.filter ++ ending d
  | .delete => [text ("DELETE FROM " ++ table)] :: keywordPredicates "WHERE" d.filter ++ ending d

def join (depth : Nat) (isSub : Bool) (lines : List Outline) : Outline :=
  let body := [Node.piece (.clause depth)].intercalate lines
  if isSub && 0 < depth then .piece (.edge depth) :: body ++ [.piece (.edge (depth - 1))] else body

end Outline

mutual

def Part.node (depth : Nat) : Part → Node
  | .sql s => Outline.text s
  | .sub s => .paren (s.outline (depth + 1))

def partsOutline (depth : Nat) : List Part → Outline
  | [] => []
  | p :: ps => p.node depth :: partsOutline depth ps

def Fragment.outlineEntry (depth : Nat) : Fragment → OutlineEntry
  | ⟨parts, op⟩ => ⟨partsOutline depth parts, op.getD .and⟩

def fragmentOutlines (depth : Nat) : List Fragment → List OutlineEntry
  | [] => []
  | f :: fs => f.outlineEntry depth :: fragmentOutlines depth fs

def clauseOutlines (depth : Nat) : Option (List Fragment) → List OutlineEntry
  | none => []
  | some fs => fragmentOutlines depth fs

def tableOutlines (depth : Nat) :
    PerClause (Option (List Fragment)) → PerClause (List OutlineEntry)
  | ⟨select, aggregate, source, join, filter, grouping, having, ordering, limit, insert,
      update⟩ =>
    ⟨clauseOutlines depth select, clauseOutlines depth aggregate, clauseOutlines depth source,
     clauseOutlines depth join, clauseOutlines depth filter, clauseOutlines depth grouping,
     clauseOutlines depth having, clauseOutlines depth ordering, clauseOutlines depth limit,
     clauseOutlines depth insert, clauseOutlines depth update⟩

def Snapshot.outline (depth : Nat) : Snapshot → Outline
  | ⟨kind, table, isSub, clauses⟩ =>
    .join depth isSub (Outline.lines kind (table.getD "") (tableOutlines depth clauses))

end

theorem partsOutline_eq_map (depth : Nat) (ps : List Part) :
    partsOutline depth ps = ps.map (Part.node depth) := by
  induction ps with
  | nil => simp [partsOutline]
  | cons p ps ih => simp [partsOutline, ih]

theorem Fragment.outlineEntry_eq (f : Fragment) (depth : Nat) :
    f.outlineEntry depth = ⟨f.parts.map (Part.node depth), f.opOrAnd⟩ := by
  cases f
  rw [outlineEntry, partsOutline_eq_map]
  rfl

theorem fragmentOutlines_eq_map (depth : Nat) (fs : List Fragment) :
    fragmentOutlines depth fs = fs.map (Fragment.outlineEntry depth) := by
  induction fs with
  | nil => simp [fragmentOutlines]
  | cons f fs ih => simp [fragmentOutlines, ih]

theorem get_tableOutlines (s : Snapshot) (depth : Nat) (c : ClauseKind) :
    (tableOutlines depth s.clauses).get c = (s.clause c).map (Fragment.outlineEntry depth) := by
  have hclause (fs : Option (List Fragment)) :
      clauseOutlines depth fs = (fs.getD []).map (Fragment.outlineEntry depth) := by
    cases fs <;> simp [clauseOutlines, fragmentOutlines_eq_map]
  rw [Snapshot.clause]
  cases s.clauses
  cases c <;> exact hclause _

theorem Snapshot.outline_eq (s : Snapshot) (depth : Nat) :
    s.outline depth = .join depth s.isSub
      (Outline.lines s.kind (s.table.getD "") (tableOutlines depth s.clauses)) := by
  cases s
  rfl

/-- The pieces are written as the outline is. -/
def Writes (ps : Pieces) (o : Outline) : Prop :=
  ∀ layout : Layout, (layout.write ps).toList = o.chars layout

/-- Whatever the entry is rendered to, the outline is. -/
structure Draws (x : Entry) (y : OutlineEntry) : Prop where
  op : x.op = y.op
  body : ∀ ps, x.body = .ok ps → Writes ps y.body

namespace Writes

variable {ps qs : Pieces} {o o' : Outline}

theorem nil : Writes [] [] := fun _ => rfl

theorem piece (p : Piece) (h : Writes ps o) : Writes (p :: ps) (.piece p :: o) := by
  intro layout
  rw [Layout.write_cons, String.toList_append, h layout, Outline.chars, Outline.nodeChars]

theorem append (h : Writes ps o) (h' : Writes qs o') : Writes (ps ++ qs) (o ++ o') := by
  intro layout
  rw [Layout.write_append, String.toList_append, h layout, h' layout, Outline.chars_append]

theorem paren (h : Writes ps o) : Writes (.text "(" :: ps ++ [.text ")"]) [.paren o] := by
  intro layout
  rw [List.cons_append, Layout.write_cons, Layout.write_append, Layout.write_singleton,
    String.toList_append, String.toList_append, h layout]
  simp [Outline.chars, Outline.nodeChars, Piece.written]

theorem intercalate (p : Piece) {pss : List Pieces} {os : List Outline}
    (h : Forall₂ Writes pss os) :
    Writes ([p].intercalate pss) ([Node.piece p].intercalate os) := by
  induction h with
  | nil => exact nil
  | @cons ps o pss os hfirst hrest ih =>
    cases hrest with
    | nil =>
      rw [List.intercalate_singleton, List.intercalate_singleton]
      exact hfirst
    | cons _ _ =>
      rw [List.intercalate_cons_cons, List.intercalate_cons_cons, List.append_assoc,
        List.append_assoc]
      exact hfirst.append (ih.piece p)

end Writes

section Lists

variable {xs : List Entry} {ys : List OutlineEntry} {ps : Pieces} {lines : Lines}

theorem writes_commaList (h : Forall₂ Draws xs ys) (hps : Entry.commaList xs = .ok ps) :
    Writes ps (Outline.commaList ys) := by
  induction h generalizing ps with
  | nil =>
    cases hps
    exact .nil
  | cons hxy hrest ih =>
    cases hrest with
    | nil =>
      rw [Outline.commaList, List.map_singleton, List.intercalate_singleton]
      exact hxy.body ps hps
    | cons _ _ =>
      obtain ⟨first, hfirst, hps⟩ := Outcome.exists_of_bind_eq_ok hps
      obtain ⟨rest, hrest, hps⟩ := Outcome.exists_of_bind_eq_ok hps
      cases hps
      rw [Outline.commaList, List.map_cons, List.map_cons, List.intercalate_cons_cons,
        List.append_assoc]
      exact (hxy.body first hfirst).append ((ih hrest).piece (.text ", "))

theorem writes_predicateTail (h : Forall₂ Draws xs ys) (hps : Entry.predicateTail xs = .ok ps) :
    Writes ps (Outline.predicateTail ys) := by
  induction h generalizing ps with
  | nil =>
    cases hps
    exact .nil
  | @cons x y xs ys hxy hrest ih =>
    cases hrest with
    | nil => exact hxy.body ps hps
    | @cons x' y' xs ys hxy' hrest' =>
      obtain ⟨first, hfirst, hps⟩ := Outcome.exists_of_bind_eq_ok hps
      obtain ⟨tail, htail, hps⟩ := Outcome.exists_of_bind_eq_ok hps
      have hbody := hxy.body first hfirst
      dsimp only at hps
      rw [Outline.predicateTail, ← hxy.op, ← hxy'.op, ← Outcome.isEmpty_eq hrest']
      split at hps
      · rename_i hgroup
        cases hps
        rw [if_pos hgroup, List.append_assoc]
        exact hbody.append ((ih htail).paren.piece (.text (" " ++ x.op.keyword ++ " ")))
      · rename_i hgroup
        cases hps
        rw [if_neg hgroup]
        exact hbody.append ((ih htail).piece (.text (" " ++ x.op.keyword ++ " ")))

theorem writes_bodies {pss : List Pieces} (h : Forall₂ Draws xs ys)
    (hps : Entry.bodies xs = .ok pss) : Forall₂ Writes pss (ys.map OutlineEntry.body) := by
  induction h generalizing pss with
  | nil =>
    cases hps
    exact .nil
  | cons hxy _ ih =>
    rw [Entry.bodies, List.mapM_cons] at hps
    obtain ⟨first, hfirst, hps⟩ := Outcome.exists_of_bind_eq_ok hps
    obtain ⟨rest, hrest, hps⟩ := Outcome.exists_of_bind_eq_ok hps
    cases hps
    exact .cons (hxy.body first hfirst) (ih hrest)

theorem writes_keywordList (keyword : String) (h : Forall₂ Draws xs ys)
    (hlines : Lines.keywordList keyword xs = .ok lines) :
    Forall₂ Writes lines (Outline.keywordList keyword ys) := by
  rw [Lines.keywordList] at hlines
  rw [Outline.keywordList, ← Outcome.isEmpty_eq h]
  split at hlines
  · rename_i hempty
    cases hlines
    rw [if_pos hempty]
    exact .nil
  · rename_i hempty
    obtain ⟨list, hlist, rfl⟩ := Outcome.exists_of_map_eq_ok hlines
    rw [if_neg hempty]
    exact .cons ((writes_commaList h hlist).piece _) .nil

theorem writes_keywordPredicates (keyword : String) (h : Forall₂ Draws xs ys)
    (hlines : Lines.keywordPredicates keyword xs = .ok lines) :
    Forall₂ Writes lines (Outline.keywordPredicates keyword ys) := by
  obtain ⟨list, hlist, rfl⟩ := Outcome.exists_of_map_eq_ok hlines
  rw [Entry.predicates] at hlist
  rw [Outline.keywordPredicates, ← Outcome.isEmpty_eq h]
  split at hlist
  · rename_i hempty
    cases hlist
    rw [if_pos hempty]
    exact .nil
  · rename_i hempty
    obtain ⟨tail, htail, rfl⟩ := Outcome.exists_of_map_eq_ok hlist
    rw [if_neg hempty]
    exact .cons ((writes_predicateTail h htail).paren.piece _) .nil

end Lists

section Lines

variable {c : PerClause (List Entry)} {d : PerClause (List OutlineEntry)} {table : Option String}
  {lines : Lines}

theorem writes_tail (h : ∀ k, Forall₂ Draws (c.get k) (d.get k))
    (hlines : Lines.tail c = .ok lines) : Forall₂ Writes lines (Outline.ending d) := by
  obtain ⟨ordering, hordering, hlines⟩ := Outcome.exists_of_bind_eq_ok hlines
  obtain ⟨limits, hlimits, hlines⟩ := Outcome.exists_of_bind_eq_ok hlines
  cases hlines
  exact List.rel_append (writes_keywordList _ (h .ordering) hordering)
    (writes_bodies (h .limit) hlimits)

theorem getD_of_requireTable {name : String} (h : requireTable table = .ok name) :
    table.getD "" = name := by
  cases table with
  | none => cases h
  | some name' =>
    cases h
    rfl

theorem writes_columns (h : ∀ k, Forall₂ Draws (c.get k) (d.get k)) {ps : Pieces}
    (hps : Lines.columns c = .ok ps) : Writes ps (Outline.columns d) := by
  have hselect : c.select.isEmpty = d.select.isEmpty := Outcome.isEmpty_eq (h .select)
  have haggregate : c.aggregate.isEmpty = d.aggregate.isEmpty := Outcome.isEmpty_eq (h .aggregate)
  rw [Outline.columns, ← hselect, ← haggregate]
  rw [Lines.columns] at hps
  split at hps
  · rename_i hempty
    cases hps
    rw [if_pos hempty]
    exact Writes.nil.piece (.text "*")
  · rename_i hempty
    rw [if_neg hempty]
    exact writes_commaList (List.rel_append (h .select) (h .aggregate)) hps

theorem writes_source (h : ∀ k, Forall₂ Draws (c.get k) (d.get k)) {ps : Pieces}
    (hps : Lines.source table c = .ok ps) : Writes ps (Outline.source (table.getD "") d) := by
  have hsource : c.source.isEmpty = d.source.isEmpty := Outcome.isEmpty_eq (h .source)
  rw [Outline.source, ← hsource]
  rw [Lines.source] at hps
  split at hps
  · rename_i hempty
    obtain ⟨name, hname, rfl⟩ := Outcome.exists_of_map_eq_ok hps
    rw [if_pos hempty, getD_of_requireTable hname]
    exact Writes.nil.piece (.text name)
  · rename_i hempty
    rw [if_neg hempty]
    exact writes_commaList (h .source) hps

theorem writes_select (h : ∀ k, Forall₂ Draws (c.get k) (d.get k))
    (hlines : Lines.select table c = .ok lines) :
    Forall₂ Writes lines (Outline.lines (some .select) (table.getD "") d) := by
  rw [Lines.select_eq] at hlines
  obtain ⟨columns, hcolumns, hlines⟩ := Outcome.exists_of_bind_eq_ok hlines
  obtain ⟨source, hsource, hlines⟩ := Outcome.exists_of_bind_eq_ok hlines
  obtain ⟨joins, hjoins, hlines⟩ := Outcome.exists_of_bind_eq_ok hlines
  obtain ⟨filter, hfilter, hlines⟩ := Outcome.exists_of_bind_eq_ok hlines
  obtain ⟨grouping, hgrouping, hlines⟩ := Outcome.exists_of_bind_eq_ok hlines
  obtain ⟨having, hhaving, hlines⟩ := Outcome.exists_of_bind_eq_ok hlines
  obtain ⟨tail, htail, hlines⟩ := Outcome.exists_of_bind_eq_ok hlines
  cases hlines
  have hhead := Forall₂.cons ((writes_columns h hcolumns).piece (.text "SELECT "))
    (.cons ((writes_source h hsource).piece (.text "FROM ")) .nil)
  have hfiltered := List.rel_append (List.rel_append hhead (writes_bodies (h .join) hjoins))
    (writes_keywordPredicates "WHERE" (h .filter) hfilter)
  have hgrouped := List.rel_append
    (List.rel_append hfiltered (writes_keywordList "GROUP BY" (h .grouping) hgrouping))
    (writes_keywordPredicates "HAVING" (h .having) hhaving)
  exact List.rel_append hgrouped (writes_tail h htail)

theorem writes_inserted {name : String} {x : Entry} {y : OutlineEntry} {xs : List Entry}
    {ys : List OutlineEntry} (hxy : Draws x y) (h : Forall₂ Draws xs ys)
    (hlines : Lines.inserted name x xs = .ok lines) :
    Forall₂ Writes lines (Outline.inserted name (y :: ys)) := by
  obtain ⟨rows, hrows, hlines⟩ := Outcome.exists_of_bind_eq_ok hlines
  obtain ⟨columns, hcolumns, hlines⟩ := Outcome.exists_of_bind_eq_ok hlines
  cases hlines
  have htuples : Forall₂ Writes (rows.map fun r => .text "(" :: r ++ [.text ")"])
      (ys.map fun row => [.paren row.body]) := by
    rw [List.forall₂_map_left_iff, List.forall₂_map_right_iff]
    have hbodies := writes_bodies h hrows
    rw [List.forall₂_map_right_iff] at hbodies
    exact hbodies.imp fun r row hrow => hrow.paren
  refine .cons ?_ (.cons ((Writes.intercalate (.text ", ") htuples).piece (.text "VALUES ")) .nil)
  -- The first parenthesis is written together with the name.
  intro layout
  have hparen := (hxy.body columns hcolumns).paren.piece (.text ("INSERT INTO " ++ name ++ " "))
  rw [Outline.text, ← hparen layout]
  simp [Layout.write_cons, Layout.write_append, Piece.written]

theorem writes_insert (h : ∀ k, Forall₂ Draws (c.get k) (d.get k))
    (hlines : Lines.insert table c = .ok lines) :
    Forall₂ Writes lines (Outline.lines (some .insert) (table.getD "") d) := by
  rw [Lines.insert_eq] at hlines
  obtain ⟨name, hname, hlines⟩ := Outcome.exists_of_bind_eq_ok hlines
  have hrows : Forall₂ Draws c.insert d.insert := h .insert
  rw [getD_of_requireTable hname]
  split at hlines
  · cases hlines
  split at hlines
  · rename_i columns row rows hinsert
    rw [hinsert] at hrows
    show Forall₂ Writes lines (Outline.inserted name d.insert)
    cases hd : d.insert with
    | nil =>
      rw [hd] at hrows
      cases hrows
    | cons y ys =>
      rw [hd] at hrows
      cases hrows with | cons hxy hrest =>
      exact writes_inserted hxy hrest hlines
  · cases hlines

theorem writes_update (h : ∀ k, Forall₂ Draws (c.get k) (d.get k))
    (hlines : Lines.update table c = .ok lines) :
    Forall₂ Writes lines (Outline.lines (some .update) (table.getD "") d) := by
  obtain ⟨name, hname, hlines⟩ := Outcome.exists_of_bind_eq_ok hlines
  rw [getD_of_requireTable hname]
  split at hlines
  · cases hlines
  obtain ⟨row, hrow, hlines⟩ := Outcome.exists_of_bind_eq_ok hlines
  obtain ⟨filter, hfilter, hlines⟩ := Outcome.exists_of_bind_eq_ok hlines
  obtain ⟨tail, htail, hlines⟩ := Outcome.exists_of_bind_eq_ok hlines
  cases hlines
  have hhead := Forall₂.cons (Writes.nil.piece (.text ("UPDATE " ++ name)))
    (.cons ((writes_commaList (h .update) hrow).piece (.text "SET ")) .nil)
  exact List.rel_append
    (List.rel_append hhead (writes_keywordPredicates "WHERE" (h .filter) hfilter))
    (writes_tail h htail)

theorem writes_delete (h : ∀ k, Forall₂ Draws (c.get k) (d.get k))
    (hlines : Lines.delete table c = .ok lines) :
    Forall₂ Writes lines (Outline.lines (some .delete) (table.getD "") d) := by
  obtain ⟨name, hname, hlines⟩ := Outcome.exists_of_bind_eq_ok hlines
  rw [getD_of_requireTable hname]
  obtain ⟨filter, hfilter, hlines⟩ := Outcome.exists_of_bind_eq_ok hlines
  obtain ⟨tail, htail, hlines⟩ := Outcome.exists_of_bind_eq_ok hlines
  cases hlines
  have hhead : Forall₂ Writes [[.text ("DELETE FROM " ++ name)]]
      [[Outline.text ("DELETE FROM " ++ name)]] := .cons (Writes.nil.piece _) .nil
  exact List.rel_append
    (List.rel_append hhead (writes_keywordPredicates "WHERE" (h .filter) hfilter))
    (writes_tail h htail)

theorem writes_ofKind {kind : Option StatementKind}
    (h : ∀ k, Forall₂ Draws (c.get k) (d.get k))
    (hlines : Lines.ofKind kind table c = .ok lines) :
    Forall₂ Writes lines (Outline.lines kind (table.getD "") d) := by
  rw [Lines.ofKind] at hlines
  rw [Outline.lines.eq_def]
  cases hkind : kind.getD .select with
  | select => rw [hkind] at hlines; exact writes_select h hlines
  | insert => rw [hkind] at hlines; exact writes_insert h hlines
  | update => rw [hkind] at hlines; exact writes_update h hlines
  | delete => rw [hkind] at hlines; exact writes_delete h hlines

end Lines

theorem draws_fragment {f : Fragment} {depth : Nat}
    (hsub : ∀ t, .sub t ∈ f.parts → ∀ ps, t.pieces (depth + 1) = .ok ps →
      Writes ps (t.outline (depth + 1))) :
    Draws (f.entry depth) (f.outlineEntry depth) := by
  have hparts (parts : List Part)
      (hsub : ∀ t, .sub t ∈ parts → ∀ ps, t.pieces (depth + 1) = .ok ps →
        Writes ps (t.outline (depth + 1))) (ps : Pieces) (h : partsPieces depth parts = .ok ps) :
      Writes ps (parts.map (Part.node depth)) := by
    induction parts generalizing ps with
    | nil =>
      cases h
      exact .nil
    | cons p parts ih =>
      obtain ⟨first, hfirst, h⟩ := Outcome.exists_of_bind_eq_ok h
      obtain ⟨rest, hrest, h⟩ := Outcome.exists_of_bind_eq_ok h
      cases h
      have hrest' := ih (fun t ht => hsub t (List.mem_cons_of_mem p ht)) rest hrest
      cases p with
      | sql text =>
        cases hfirst
        exact hrest'.piece (.text text)
      | sub t =>
        obtain ⟨inner, hinner, hfirst⟩ := Outcome.exists_of_bind_eq_ok hfirst
        cases hfirst
        exact (hsub t List.mem_cons_self inner hinner).paren.append hrest'
  rw [f.outlineEntry_eq depth]
  cases f with | mk parts op =>
  exact ⟨rfl, hparts parts hsub⟩

/-- Whatever a statement is rendered to, its outline is. -/
theorem Snapshot.writes_outline (s : Snapshot) (depth : Nat) (ps : Pieces)
    (h : s.pieces depth = .ok ps) : Writes ps (s.outline depth) := by
  induction s using nesting_induction generalizing depth ps with
  | step s ih =>
    have hdraws (k : ClauseKind) : Forall₂ Draws ((tableEntries depth s.clauses).get k)
        ((tableOutlines depth s.clauses).get k) := by
      rw [get_tableEntries, get_tableOutlines, List.forall₂_map_left_iff,
        List.forall₂_map_right_iff, List.forall₂_same]
      intro f hf
      exact draws_fragment fun t ht => ih k f hf t ht (depth + 1)
    rw [pieces_eq] at h
    obtain ⟨lines, hlines, rfl⟩ := Outcome.exists_of_map_eq_ok h
    have hbody := Writes.intercalate (.clause depth) (writes_ofKind hdraws hlines)
    rw [outline_eq, Lines.join, Outline.join]
    split
    · exact (hbody.append (Writes.nil.piece (.edge (depth - 1)))).piece (.edge depth)
    · exact hbody

end SqlBuilder
