import SqlBuilder.Proofs.Render
import SqlBuilder.Proofs.Payload.Pieces

/-!
# Rendering statements with other payloads

Snapshots whose fragments are alike render alike at every depth. Which clauses a kind
renders or refuses depends on how many fragments they hold, never on their text.
-/
namespace SqlBuilder.Payload

open Lexer
open List (Forall₂)
open Outcome (isEmpty_eq)

variable {R : List Char → List Char → Prop} {e : Engine}

structure FragmentAlike (R : List Char → List Char → Prop) (e : Engine) (f g : Fragment) :
    Prop where
  op : f.op = g.op
  hasSub : f.hasSub = g.hasSub
  pieces : ∀ depth, Outcome.Alike (PiecesAlike R e) (f.pieces depth) (g.pieces depth)

structure SnapshotAlike (R : List Char → List Char → Prop) (e : Engine) (a b : Snapshot) :
    Prop where
  kind : a.kind = b.kind
  table : a.table = b.table
  isSub : a.isSub = b.isSub
  closed : ∀ name, a.table = some name → Closed e name.toList
  clause : ∀ c, Forall₂ (FragmentAlike R e) (a.clause c) (b.clause c)

structure EntryAlike (R : List Char → List Char → Prop) (e : Engine) (x y : Entry) : Prop where
  op : x.op = y.op
  body : Outcome.Alike (PiecesAlike R e) x.body y.body

def TableAlike (R : List Char → List Char → Prop) (e : Engine)
    (c d : PerClause (List Entry)) : Prop :=
  ∀ k, Forall₂ (EntryAlike R e) (c.get k) (d.get k)

theorem commaList_alike {xs ys : List Entry} (h : Forall₂ (EntryAlike R e) xs ys) :
    Outcome.Alike (PiecesAlike R e) (Entry.commaList xs) (Entry.commaList ys) := by
  have hcomma : Separating e (.text ", ") := separating_text (by cases e <;> decide)
  induction h with
  | nil => exact .ok .nil
  | cons hxy hrest ih =>
    cases hrest with
    | nil => exact hxy.body
    | cons _ _ =>
      apply hxy.body.bind
      intro a b hab
      exact ih.bind fun as bs hs => .ok (hab.separated hcomma hs)

theorem separating_op (op : BoolOp) : Separating e (.text (" " ++ op.keyword ++ " ")) := by
  cases op <;> exact separating_text (by cases e <;> decide)

theorem predicateTail_alike {xs ys : List Entry} (h : Forall₂ (EntryAlike R e) xs ys) :
    Outcome.Alike (PiecesAlike R e) (Entry.predicateTail xs) (Entry.predicateTail ys) := by
  induction h with
  | nil => exact .ok .nil
  | @cons x y xs ys hxy hrest ih =>
    cases hrest with
    | nil => exact hxy.body
    | @cons x' y' xs ys hxy' hrest =>
      apply hxy.body.bind
      intro a b hab
      apply ih.bind
      intro as bs hs
      have hsep := separating_op (e := e) x.op
      rw [← hxy.op, ← hxy'.op, ← isEmpty_eq hrest]
      by_cases hgroup : (x.op ≠ x'.op && !xs.isEmpty) = true
      · simp only [hgroup, if_true]
        refine .ok ?_
        simpa using hab.separated hsep hs.parenthesised
      · simp only [hgroup]
        exact .ok (hab.separated hsep hs)

theorem predicates_alike {xs ys : List Entry} (h : Forall₂ (EntryAlike R e) xs ys) :
    Outcome.Alike (Option.Rel (PiecesAlike R e)) (Entry.predicates xs)
      (Entry.predicates ys) := by
  simp only [Entry.predicates]
  rw [← isEmpty_eq h]
  split
  · exact .ok .none
  · exact (predicateTail_alike h).map fun a b hab => .some hab.parenthesised

theorem bodies_alike {xs ys : List Entry} (h : Forall₂ (EntryAlike R e) xs ys) :
    Outcome.Alike (Forall₂ (PiecesAlike R e)) (Entry.bodies xs) (Entry.bodies ys) :=
  Outcome.Alike.mapM h fun _ _ hxy => hxy.body

/-- Lines with the same number of pieces, line by line alike. -/
abbrev LinesAlike (R : List Char → List Char → Prop) (e : Engine) :
    Outcome Lines → Outcome Lines → Prop :=
  Outcome.Alike (Forall₂ (PiecesAlike R e))

/-- A keyword of a clause, with the space behind it. -/
def Leading (keyword : String) : Prop := ∀ e, Opens e (keyword ++ " ").toList

theorem keywordList_alike {keyword : String} (hk : Leading keyword) {xs ys : List Entry}
    (h : Forall₂ (EntryAlike R e) xs ys) :
    LinesAlike R e (Lines.keywordList keyword xs) (Lines.keywordList keyword ys) := by
  simp only [Lines.keywordList]
  rw [← isEmpty_eq h]
  split
  · exact .ok .nil
  · exact (commaList_alike h).map fun a b hab => .cons (hab.opened (opening_text (hk e))) .nil

theorem keywordPredicates_alike {keyword : String} (hk : Leading keyword) {xs ys : List Entry}
    (h : Forall₂ (EntryAlike R e) xs ys) :
    LinesAlike R e (Lines.keywordPredicates keyword xs) (Lines.keywordPredicates keyword ys) := by
  apply (predicates_alike h).map
  intro a b hab
  cases hab with
  | none => exact .nil
  | some hab => exact .cons (hab.opened (opening_text (hk e))) .nil

variable {table : Option String} {c d : PerClause (List Entry)}

theorem columns_alike (h : TableAlike R e c d) :
    Outcome.Alike (PiecesAlike R e) (Lines.columns c) (Lines.columns d) := by
  have hs : c.select.isEmpty = d.select.isEmpty := isEmpty_eq (h .select)
  have ha : c.aggregate.isEmpty = d.aggregate.isEmpty := isEmpty_eq (h .aggregate)
  simp only [Lines.columns]
  rw [← hs, ← ha]
  split
  · exact .ok (.text (.refl (closed_of_quoteFree e (by decide))))
  · exact commaList_alike (List.rel_append (h .select) (h .aggregate))

theorem requireTable_alike (hclosed : ∀ name, table = some name → Closed e name.toList) :
    Outcome.Alike (fun a b => a = b ∧ Closed e a.toList) (requireTable table)
      (requireTable table) := by
  cases table with
  | none => exact .error rfl
  | some name => exact .ok ⟨rfl, hclosed name rfl⟩

theorem source_alike (hclosed : ∀ name, table = some name → Closed e name.toList)
    (h : TableAlike R e c d) :
    Outcome.Alike (PiecesAlike R e) (Lines.source table c) (Lines.source table d) := by
  have hs : c.source.isEmpty = d.source.isEmpty := isEmpty_eq (h .source)
  simp only [Lines.source]
  rw [← hs]
  split
  · apply (requireTable_alike hclosed).map
    rintro a b ⟨rfl, hc⟩
    exact .text (.refl hc)
  · exact commaList_alike (h .source)

theorem tail_alike (h : TableAlike R e c d) : LinesAlike R e (Lines.tail c) (Lines.tail d) := by
  have hk : Leading "ORDER BY" := fun e => by cases e <;> decide
  apply (keywordList_alike hk (h .ordering)).bind
  intro a b hab
  exact (bodies_alike (h .limit)).bind fun as bs hs => .ok (List.rel_append hab hs)

theorem leading_where : Leading "WHERE" := fun e => by cases e <;> decide

theorem select_alike (hclosed : ∀ name, table = some name → Closed e name.toList)
    (h : TableAlike R e c d) : LinesAlike R e (Lines.select table c) (Lines.select table d) := by
  have hgroup : Leading "GROUP BY" := fun e => by cases e <;> decide
  have hhaving : Leading "HAVING" := fun e => by cases e <;> decide
  have hselect : Opening e (.text "SELECT ") := opening_text (by cases e <;> decide)
  have hfrom : Opening e (.text "FROM ") := opening_text (by cases e <;> decide)
  rw [Lines.select_eq, Lines.select_eq]
  apply (columns_alike h).bind
  intro columns columns' hcolumns
  apply (source_alike hclosed h).bind
  intro source source' hsource
  apply (bodies_alike (h .join)).bind
  intro joins joins' hjoins
  apply (keywordPredicates_alike leading_where (h .filter)).bind
  intro filter filter' hfilter
  apply (keywordList_alike hgroup (h .grouping)).bind
  intro grouping grouping' hgrouping
  apply (keywordPredicates_alike hhaving (h .having)).bind
  intro having having' hhaving
  refine (tail_alike h).bind fun tail tail' htail => .ok ?_
  have hhead : Forall₂ (PiecesAlike R e) [.text "SELECT " :: columns, .text "FROM " :: source]
      [.text "SELECT " :: columns', .text "FROM " :: source'] :=
    .cons (hcolumns.opened hselect) (.cons (hsource.opened hfrom) .nil)
  have hbody := List.rel_append (List.rel_append hhead hjoins) hfilter
  exact List.rel_append (List.rel_append (List.rel_append hbody hgrouping) hhaving) htail

theorem opening_name {g g' name : String} (hg : Opens e g.toList) (hn : Closed e name.toList)
    (hg' : Separates e g'.toList) : Opening e (.text (g ++ name ++ g')) := by
  apply opening_text
  rw [String.toList_append, String.toList_append]
  exact opens_append_separates (closed_append_of_opens hg hn) hg'

theorem inserted_alike {x y : Entry} {xs ys : List Entry} {name : String}
    (hn : Closed e name.toList) (hxy : EntryAlike R e x y) (h : Forall₂ (EntryAlike R e) xs ys) :
    LinesAlike R e (Lines.inserted name x xs) (Lines.inserted name y ys) := by
  have hinto : Opening e (.text ("INSERT INTO " ++ name ++ " (")) :=
    opening_name (by cases e <;> decide) hn (by cases e <;> decide)
  have hclose : Separating e (.text ")") := separating_text (by cases e <;> decide)
  have hvalues : Opening e (.text "VALUES ") := opening_text (by cases e <;> decide)
  have hcomma : Separating e (.text ", ") := separating_text (by cases e <;> decide)
  apply (bodies_alike h).bind
  intro rows rows' hrows
  refine hxy.body.bind fun columns columns' hcolumns => .ok ?_
  have htuples : Forall₂ (PiecesAlike R e) (rows.map fun r => .text "(" :: r ++ [.text ")"])
      (rows'.map fun r => .text "(" :: r ++ [.text ")"]) := by
    rw [List.forall₂_map_left_iff, List.forall₂_map_right_iff]
    exact hrows.imp fun _ _ hr => hr.parenthesised
  refine .cons ?_ (.cons ((PiecesAlike.intercalate hcomma htuples).opened hvalues) .nil)
  exact (hcolumns.opened hinto).ended hclose

theorem insert_alike (hclosed : ∀ name, table = some name → Closed e name.toList)
    (h : TableAlike R e c d) : LinesAlike R e (Lines.insert table c) (Lines.insert table d) := by
  have hrows : Forall₂ (EntryAlike R e) c.insert d.insert := h .insert
  rw [Lines.insert_eq, Lines.insert_eq]
  apply (requireTable_alike hclosed).bind
  rintro name _ ⟨rfl, hn⟩
  rw [← PerClause.foreign?_congr fun k => isEmpty_eq (h k)]
  cases c.foreign? with
  | some k => exact .error rfl
  | none =>
    generalize c.insert = xs at hrows
    generalize d.insert = ys at hrows
    cases hrows with
    | nil => exact .error rfl
    | cons hxy hrows =>
      cases hrows with
      | nil => exact .error rfl
      | cons hxy' hrows => exact inserted_alike hn hxy (.cons hxy' hrows)

theorem update_alike (hclosed : ∀ name, table = some name → Closed e name.toList)
    (h : TableAlike R e c d) : LinesAlike R e (Lines.update table c) (Lines.update table d) := by
  have hrows : Forall₂ (EntryAlike R e) c.update d.update := h .update
  have hset : Opening e (.text "SET ") := opening_text (by cases e <;> decide)
  rw [Lines.update]
  apply (requireTable_alike hclosed).bind
  rintro name _ ⟨rfl, hn⟩
  rw [← isEmpty_eq hrows]
  split
  · exact .error rfl
  · apply (commaList_alike hrows).bind
    intro row row' hrow
    apply (keywordPredicates_alike leading_where (h .filter)).bind
    intro filter filter' hfilter
    refine (tail_alike h).bind fun tail tail' htail => .ok ?_
    have hname : Closed e ("UPDATE " ++ name).toList := by
      rw [String.toList_append]
      exact closed_append_of_opens (by cases e <;> decide) hn
    have hhead : Forall₂ (PiecesAlike R e) [[.text ("UPDATE " ++ name)], .text "SET " :: row]
        [[.text ("UPDATE " ++ name)], .text "SET " :: row'] :=
      .cons (.text (.refl hname)) (.cons (hrow.opened hset) .nil)
    exact List.rel_append (List.rel_append hhead hfilter) htail

theorem delete_alike (hclosed : ∀ name, table = some name → Closed e name.toList)
    (h : TableAlike R e c d) : LinesAlike R e (Lines.delete table c) (Lines.delete table d) := by
  rw [Lines.delete]
  apply (requireTable_alike hclosed).bind
  rintro name _ ⟨rfl, hn⟩
  apply (keywordPredicates_alike leading_where (h .filter)).bind
  intro filter filter' hfilter
  refine (tail_alike h).bind fun tail tail' htail => .ok ?_
  have hname : Closed e ("DELETE FROM " ++ name).toList := by
    rw [String.toList_append]
    exact closed_append_of_opens (by cases e <;> decide) hn
  exact List.rel_append (.cons (.text (.refl hname)) hfilter) htail

theorem ofKind_alike (kind : Option StatementKind)
    (hclosed : ∀ name, table = some name → Closed e name.toList) (h : TableAlike R e c d) :
    LinesAlike R e (Lines.ofKind kind table c) (Lines.ofKind kind table d) := by
  simp only [Lines.ofKind]
  cases kind.getD .select with
  | select => exact select_alike hclosed h
  | insert => exact insert_alike hclosed h
  | update => exact update_alike hclosed h
  | delete => exact delete_alike hclosed h

theorem join_alike {xs ys : Lines} (h : Forall₂ (PiecesAlike R e) xs ys) (depth : Nat)
    (isSub : Bool) : PiecesAlike R e (Lines.join depth isSub xs) (Lines.join depth isSub ys) := by
  have hbody := PiecesAlike.intercalate (separating_clause (e := e) depth) h
  simp only [Lines.join]
  by_cases hsub : (isSub && decide (0 < depth)) = true
  · simp only [hsub, if_true]
    intro layout
    cases layout with
    | compact => simpa [Layout.toList_write, Piece.written] using hbody .compact
    | pretty =>
      have hb := (hbody .pretty).append_separator (separates_lineBreak (depth - 1))
      have ho := hb.append_of_opens (separates_lineBreak depth).opens
      simpa [Layout.toList_write, Piece.written] using ho
  · simp only [hsub]
    exact hbody

theorem tableEntries_alike {a b : Snapshot} (h : SnapshotAlike R e a b) (depth : Nat) :
    TableAlike R e (tableEntries depth a.clauses) (tableEntries depth b.clauses) := by
  intro k
  rw [get_tableEntries, get_tableEntries, List.forall₂_map_left_iff, List.forall₂_map_right_iff]
  refine (h.clause k).imp fun f g hfg => ⟨?_, hfg.pieces depth⟩
  have hop := hfg.op
  cases f
  cases g
  exact congrArg (Option.getD · .and) hop

theorem pieces_alike {a b : Snapshot} (h : SnapshotAlike R e a b) (depth : Nat) :
    Outcome.Alike (PiecesAlike R e) (a.pieces depth) (b.pieces depth) := by
  rw [Snapshot.pieces_eq, Snapshot.pieces_eq, ← h.kind, ← h.table, ← h.isSub]
  have hlines := ofKind_alike a.kind h.closed (tableEntries_alike h depth)
  exact hlines.map fun xs ys hs => join_alike hs depth a.isSub

theorem render_alike {a b : Snapshot} (h : SnapshotAlike R e a b) (layout : Layout) :
    Outcome.Alike (fun s t => TextAlike R e s.toList t.toList) (a.render layout)
      (b.render layout) := by
  rw [Snapshot.render_eq, Snapshot.render_eq]
  exact (pieces_alike h 0).map fun _ _ hs => hs layout

end SqlBuilder.Payload
