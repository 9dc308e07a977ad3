import SqlBuilder.Proofs.Layout
import SqlBuilder.Proofs.Nesting

/-!
# The text of the pieces

Rendering hands the layout down to every fragment. The text it gives is that of the pieces, written
in this layout: each renderer of clauses commutes with the writing, and so does a statement once
the statements nested in it do.
-/
namespace SqlBuilder

open List (Forall₂)
open Outcome (Same isEmpty_eq)

def Layout.Writes (layout : Layout) (ps : Pieces) (text : String) : Prop := layout.write ps = text

/-- The entry and the rendering of one fragment. -/
structure Entry.WrittenBy (layout : Layout) (depth : Nat) (x : Entry) (f : Rendering) : Prop where
  text : Same layout.Writes x.body (f.text layout depth)
  op : x.op = f.op

namespace Layout.Writes

variable {layout : Layout} {ps : Pieces} {text : String}

theorem cons (p : Piece) (h : layout.Writes ps text) :
    layout.Writes (p :: ps) (p.written layout ++ text) := by
  rw [Writes, write_cons, show layout.write ps = text from h]

theorem append {qs : Pieces} {more : String} (h : layout.Writes ps text)
    (hmore : layout.Writes qs more) : layout.Writes (ps ++ qs) (text ++ more) := by
  rw [Writes, write_append, show layout.write ps = text from h,
    show layout.write qs = more from hmore]

theorem single (p : Piece) : layout.Writes [p] (p.written layout) := write_singleton layout p

theorem parenthesised (h : layout.Writes ps text) :
    layout.Writes (.text "(" :: ps ++ [.text ")"]) ("(" ++ text ++ ")") :=
  (h.cons (.text "(")).append (single (.text ")"))

theorem intercalate {lines : Lines} {texts : List String} (sep : Piece)
    (h : Forall₂ layout.Writes lines texts) :
    layout.Writes ([sep].intercalate lines) ((sep.written layout).intercalate texts) := by
  have htexts : lines.map layout.write = texts := by
    induction h with
    | nil => rfl
    | cons hline _ ih => rw [List.map_cons, ih, show layout.write _ = _ from hline]
  rw [Writes, write_intercalate, htexts]

end Layout.Writes

namespace Rendering

variable {layout : Layout} {depth : Nat} {xs : List Entry} {fs : List Rendering}

theorem texts_written (h : Forall₂ (Entry.WrittenBy layout depth) xs fs) :
    Same (Forall₂ layout.Writes) (Entry.bodies xs) (texts layout depth fs) :=
  Same.mapM h fun _ _ hx => hx.text

theorem list_written (h : Forall₂ (Entry.WrittenBy layout depth) xs fs) :
    Same layout.Writes (Entry.commaList xs) (list layout depth ", " fs) := by
  induction h with
  | nil => exact .ok rfl
  | cons hx hrest ih =>
    cases hrest with
    | nil => exact hx.text
    | cons _ _ =>
      apply hx.text.bind
      intro first text hfirst
      refine ih.bind fun rest more hmore => .ok ?_
      rw [String.append_assoc]
      exact hfirst.append (hmore.cons (.text ", "))

theorem closing_succ (pending : Nat) : closing (pending + 1) = ")" ++ closing pending := by
  rw [closing, closing, List.replicate_succ, ← List.singleton_append, String.ofList_append]

/-- The groups that are open close behind all entries, where the pieces close each group right
behind its own. -/
theorem entries_written (h : Forall₂ (Entry.WrittenBy layout depth) xs fs) (pending : Nat) :
    Same (fun ps text => layout.write ps ++ closing pending = text)
      (Entry.predicateTail xs) (entries layout depth pending fs) := by
  induction h generalizing pending with
  | nil => exact .ok String.empty_append
  | @cons x f xs fs hx hrest ih =>
    cases hrest with
    | nil =>
      rw [Entry.predicateTail, entries, ← bind_pure x.body]
      exact hx.text.bind fun first text hfirst => .ok (congrArg (· ++ closing pending) hfirst)
    | @cons y g xs fs hy hrest =>
      rw [Entry.predicateTail, entries, hx.op, hy.op, isEmpty_eq hrest]
      apply hx.text.bind
      rintro first _ rfl
      by_cases hgroup : (f.op ≠ g.op && !fs.isEmpty) = true
      · simp only [hgroup, if_true]
        refine (ih (pending + 1)).bind ?_
        rintro tail _ rfl
        refine .ok ?_
        simp only [Layout.write_append, Layout.write_cons, Layout.write_nil, Piece.written,
          closing_succ, String.append_assoc, String.append_empty]
      · simp only [hgroup]
        refine (ih pending).bind ?_
        rintro tail _ rfl
        refine .ok ?_
        simp only [Layout.write_append, Layout.write_cons, Piece.written, String.append_assoc]

theorem predicates_written (h : Forall₂ (Entry.WrittenBy layout depth) xs fs) :
    Same (Option.Rel layout.Writes) (Entry.predicates xs) (predicates layout depth fs) := by
  rw [Entry.predicates, predicates, isEmpty_eq h]
  split
  · exact .ok .none
  · refine (entries_written h 0).bind fun ps text hps => .ok (.some ?_)
    have htext : layout.Writes ps text := String.append_empty.symm.trans hps
    exact htext.parenthesised

theorem keywordList_written (keyword : String) (h : Forall₂ (Entry.WrittenBy layout depth) xs fs) :
    Same (Forall₂ layout.Writes) (Lines.keywordList keyword xs)
      (keywordList layout depth keyword fs) := by
  rw [Lines.keywordList, keywordList, listed, isEmpty_eq h]
  split
  · exact .ok .nil
  · rw [bind_assoc]
    refine (list_written h).bind fun list text hlist => .ok (.cons ?_ .nil)
    exact hlist.cons (.text (keyword ++ " "))

theorem keywordPredicates_written (keyword : String)
    (h : Forall₂ (Entry.WrittenBy layout depth) xs fs) :
    Same (Forall₂ layout.Writes) (Lines.keywordPredicates keyword xs)
      (keywordPredicates layout depth keyword fs) := by
  refine (predicates_written h).bind fun list text hlist => ?_
  cases hlist with
  | none => exact .ok .nil
  | some hlist => exact .ok (.cons (hlist.cons (.text (keyword ++ " "))) .nil)

/-- Every clause holds the entries and the renderings of the same fragments. -/
def ClausesWritten (layout : Layout) (depth : Nat) (c : PerClause (List Entry))
    (d : PerClause (List Rendering)) : Prop :=
  ∀ k, Forall₂ (Entry.WrittenBy layout depth) (c.get k) (d.get k)

section Lines

variable {table : Option String} {c : PerClause (List Entry)} {d : PerClause (List Rendering)}

theorem tail_written (h : ClausesWritten layout depth c d) :
    Same (Forall₂ layout.Writes) (Lines.tail c) (tail layout depth d) :=
  (keywordList_written "ORDER BY" (h .ordering)).bind fun _ _ hordering =>
    (texts_written (h .limit)).bind fun _ _ hlimit => .ok (List.rel_append hordering hlimit)

theorem list_cons_cons (f g : Rendering) (fs : List Rendering) :
    list layout depth ", " (f :: g :: fs) = (do
      let first ← f.text layout depth
      let more ← list layout depth ", " (g :: fs)
      return first ++ ", " ++ more) := rfl

theorem list_append {fs gs : List Rendering} (hfs : fs ≠ []) (hgs : gs ≠ []) :
    list layout depth ", " (fs ++ gs) = (do
      let first ← list layout depth ", " fs
      let rest ← list layout depth ", " gs
      return first ++ ", " ++ rest) := by
  induction fs with
  | nil => exact absurd rfl hfs
  | cons f fs ih =>
    obtain ⟨g, gs, rfl⟩ := List.exists_cons_of_ne_nil hgs
    cases fs with
    | nil => rfl
    | cons f' fs =>
      have hmore := ih (List.cons_ne_nil f' fs)
      rw [List.cons_append] at hmore
      rw [List.cons_append, List.cons_append, list_cons_cons, hmore, list_cons_cons]
      simp only [bind_assoc, pure_bind, String.append_assoc]

theorem columns_eq (d : PerClause (List Rendering)) :
    columns layout depth d =
      if d.select.isEmpty && d.aggregate.isEmpty then .ok "*"
      else list layout depth ", " (d.select ++ d.aggregate) := by
  rw [columns, listed, listed]
  cases d.select with
  | nil =>
    cases d.aggregate with
    | nil => rfl
    | cons g gs =>
      show _ = list layout depth ", " (g :: gs)
      simp only [List.isEmpty_cons, List.isEmpty_nil, Bool.false_eq_true, if_true, if_false]
      cases list layout depth ", " (g :: gs) <;> rfl
  | cons f fs =>
    cases d.aggregate with
    | nil =>
      rw [List.append_nil]
      show _ = list layout depth ", " (f :: fs)
      simp only [List.isEmpty_cons, List.isEmpty_nil, Bool.false_eq_true, if_true, if_false]
      cases list layout depth ", " (f :: fs) <;> rfl
    | cons g gs =>
      rw [list_append (List.cons_ne_nil f fs) (List.cons_ne_nil g gs)]
      simp only [List.isEmpty_cons, Bool.false_eq_true, if_false]
      cases list layout depth ", " (f :: fs) with
      | error e => rfl
      | ok first => cases list layout depth ", " (g :: gs) <;> rfl

theorem columns_written (h : ClausesWritten layout depth c d) :
    Same layout.Writes (Lines.columns c) (columns layout depth d) := by
  have hs : c.select.isEmpty = d.select.isEmpty := isEmpty_eq (h .select)
  have ha : c.aggregate.isEmpty = d.aggregate.isEmpty := isEmpty_eq (h .aggregate)
  rw [Lines.columns, columns_eq, hs, ha]
  split
  · exact .ok (.single (.text "*"))
  · exact list_written (List.rel_append (h .select) (h .aggregate))

theorem source_written (h : ClausesWritten layout depth c d) :
    Same layout.Writes (Lines.source table c) (source layout depth table d) := by
  have hs : c.source.isEmpty = d.source.isEmpty := isEmpty_eq (h .source)
  rw [Lines.source, source, hs]
  split
  · cases table with
    | none => exact .error _
    | some name => exact .ok (.single (.text name))
  · exact list_written (h .source)

theorem select_written (h : ClausesWritten layout depth c d) :
    Same (Forall₂ layout.Writes) (Lines.select table c) (select layout depth table d) := by
  rw [Lines.select_eq]
  apply (columns_written h).bind
  intro columns columnsText hcolumns
  apply (source_written h).bind
  intro source sourceText hsource
  apply (texts_written (h .join)).bind
  intro joins joinTexts hjoins
  apply (keywordPredicates_written "WHERE" (h .filter)).bind
  intro filter filterTexts hfilter
  apply (keywordList_written "GROUP BY" (h .grouping)).bind
  intro grouping groupingTexts hgrouping
  apply (keywordPredicates_written "HAVING" (h .having)).bind
  intro having havingTexts hhaving
  refine (tail_written h).bind fun tail tailTexts htail => .ok ?_
  have hhead : Forall₂ layout.Writes [.text "SELECT " :: columns, .text "FROM " :: source]
      ["SELECT " ++ columnsText, "FROM " ++ sourceText] :=
    .cons (hcolumns.cons (.text "SELECT ")) (.cons (hsource.cons (.text "FROM ")) .nil)
  have hfiltered := List.rel_append (List.rel_append hhead hjoins) hfilter
  exact List.rel_append (List.rel_append (List.rel_append hfiltered hgrouping) hhaving) htail

theorem inserted_written {x : Entry} {f : Rendering} (name : String)
    (hcolumns : x.WrittenBy layout depth f) (h : Forall₂ (Entry.WrittenBy layout depth) xs fs) :
    Same (Forall₂ layout.Writes) (Lines.inserted name x xs)
      (inserted layout depth name f fs) := by
  apply (texts_written h).bind
  intro rows rowTexts hrows
  refine hcolumns.text.bind fun columns columnsText hcolumns => .ok ?_
  have htuples : Forall₂ layout.Writes (rows.map fun r => .text "(" :: r ++ [.text ")"])
      (rowTexts.map fun row => "(" ++ row ++ ")") := by
    rw [List.forall₂_map_left_iff, List.forall₂_map_right_iff]
    exact hrows.imp fun _ _ hrow => hrow.parenthesised
  have hvalues := (Layout.Writes.intercalate (.text ", ") htuples).cons (.text "VALUES ")
  exact .cons ((hcolumns.cons (.text _)).append (.single (.text ")"))) (.cons hvalues .nil)

theorem insert_written (h : ClausesWritten layout depth c d) :
    Same (Forall₂ layout.Writes) (Lines.insert table c) (insert layout depth table d) := by
  have hrows : Forall₂ (Entry.WrittenBy layout depth) c.insert d.insert := h .insert
  rw [Lines.insert_eq, insert]
  refine Same.bind_left _ fun name _ => ?_
  rw [PerClause.foreign?_congr fun k => isEmpty_eq (h k)]
  cases d.foreign? with
  | some k => exact .error _
  | none =>
    generalize c.insert = xs at hrows
    generalize d.insert = fs at hrows
    cases hrows with
    | nil => exact .error _
    | cons hcolumns hrows =>
      cases hrows with
      | nil => exact .error _
      | cons hrow hrows => exact inserted_written name hcolumns (.cons hrow hrows)

theorem update_written (h : ClausesWritten layout depth c d) :
    Same (Forall₂ layout.Writes) (Lines.update table c) (update layout depth table d) := by
  rw [Lines.update, update]
  refine Same.bind_left _ fun name _ => ?_
  have hrows : c.update.isEmpty = d.update.isEmpty := isEmpty_eq (h .update)
  rw [hrows]
  split
  · exact .error _
  · apply (list_written (h .update)).bind
    intro row rowText hrow
    apply (keywordPredicates_written "WHERE" (h .filter)).bind
    intro filter filterTexts hfilter
    refine (tail_written h).bind fun tail tailTexts htail => .ok ?_
    have hhead : Forall₂ layout.Writes [[.text ("UPDATE " ++ name)], .text "SET " :: row]
        ["UPDATE " ++ name, "SET " ++ rowText] :=
      .cons (.single (.text _)) (.cons (hrow.cons (.text "SET ")) .nil)
    exact List.rel_append (List.rel_append hhead hfilter) htail

theorem delete_written (h : ClausesWritten layout depth c d) :
    Same (Forall₂ layout.Writes) (Lines.delete table c) (delete layout depth table d) := by
  rw [Lines.delete, delete]
  refine Same.bind_left _ fun name _ => ?_
  apply (keywordPredicates_written "WHERE" (h .filter)).bind
  intro filter filterTexts hfilter
  refine (tail_written h).bind fun tail tailTexts htail => .ok ?_
  exact List.rel_append (.cons (.single (.text ("DELETE FROM " ++ name))) hfilter) htail

theorem lines_written (kind : Option StatementKind) (h : ClausesWritten layout depth c d) :
    Same (Forall₂ layout.Writes) (Lines.ofKind kind table c) (lines layout depth table d kind) := by
  rw [Lines.ofKind, lines]
  cases kind.getD .select with
  | select => exact select_written h
  | insert => exact insert_written h
  | update => exact update_written h
  | delete => exact delete_written h

end Lines

theorem joined_written {lines : Lines} {texts : List String} (depth : Nat) (isSub : Bool)
    (h : Forall₂ layout.Writes lines texts) :
    layout.Writes (Lines.join depth isSub lines) (joined layout depth isSub texts) := by
  have hbody := Layout.Writes.intercalate (.clause depth) h
  have hedges := (hbody.cons (.edge depth)).append (.single (.edge (depth - 1)))
  rw [Lines.join]
  cases layout with
  | compact =>
    show Layout.Writes _ _ (" ".intercalate texts)
    split
    · simpa only [Piece.written, String.empty_append, String.append_empty] using hedges
    · exact hbody
  | pretty =>
    rw [joined]
    split
    · exact hedges
    · exact hbody

end Rendering

theorem renderParts_written (layout : Layout) (depth : Nat) {ps : List Part}
    (hsub : ∀ t, .sub t ∈ ps →
      Same layout.Writes (t.pieces (depth + 1)) (t.renderNested layout (depth + 1))) :
    Same layout.Writes (partsPieces depth ps) (renderParts ps layout depth) := by
  induction ps with
  | nil => exact .ok rfl
  | cons p ps ih =>
    rw [partsPieces, renderParts]
    have hfirst : Same layout.Writes (p.pieces depth) (p.render layout depth) := by
      cases p with
      | sql text => exact .ok (.single (.text text))
      | sub t =>
        exact (hsub t List.mem_cons_self).bind fun _ _ h => .ok h.parenthesised
    have hrest := ih fun t ht => hsub t (List.mem_cons_of_mem p ht)
    exact hfirst.bind fun _ _ hfirst => hrest.bind fun _ _ hrest => .ok (hfirst.append hrest)

theorem get_tableRenderings (s : Snapshot) (c : ClauseKind) :
    (tableRenderings s.clauses).get c = (s.clause c).map Fragment.rendering := by
  rw [tableRenderings_eq_map, PerClause.get_map, Snapshot.clause]

theorem Fragment.writtenBy (layout : Layout) (depth : Nat) (f : Fragment)
    (hsub : ∀ t, .sub t ∈ f.parts →
      Same layout.Writes (t.pieces (depth + 1)) (t.renderNested layout (depth + 1))) :
    (f.entry depth).WrittenBy layout depth f.rendering := by
  cases f
  exact ⟨renderParts_written layout depth hsub, rfl⟩

namespace Snapshot

theorem renderNested_written (layout : Layout) (s : Snapshot) (depth : Nat) :
    Same layout.Writes (s.pieces depth) (s.renderNested layout depth) := by
  -- On what is nested in the statement; it is rendered one level deeper.
  induction s using nesting_induction generalizing depth with
  | step s ih =>
    have hclauses : Rendering.ClausesWritten layout depth (tableEntries depth s.clauses)
        (tableRenderings s.clauses) := by
      intro c
      rw [get_tableEntries, get_tableRenderings, List.forall₂_map_left_iff,
        List.forall₂_map_right_iff, List.forall₂_same]
      intro f hf
      exact f.writtenBy layout depth fun t ht => ih c f hf t ht (depth + 1)
    cases s
    exact (Rendering.lines_written _ hclauses).map fun lines texts h =>
      Rendering.joined_written depth _ h

/-- A rendered statement is its pieces, written in the layout. -/
theorem renderNested_eq (s : Snapshot) (layout : Layout) (depth : Nat) :
    s.renderNested layout depth = (s.pieces depth).map layout.write :=
  (renderNested_written layout s depth).eq_map fun _ _ h => h

theorem render_eq (s : Snapshot) (layout : Layout) :
    s.render layout = (s.pieces 0).map layout.write :=
  s.renderNested_eq layout 0

theorem exists_pieces {s : Snapshot} {layout : Layout} {text : String}
    (h : s.render layout = .ok text) : ∃ ps, s.pieces 0 = .ok ps ∧ layout.write ps = text := by
  rw [render_eq] at h
  exact Outcome.exists_of_map_eq_ok h

end Snapshot

namespace Fragment

theorem render_eq (f : Fragment) (layout : Layout) (depth : Nat) :
    f.render layout depth = (f.pieces depth).map layout.write :=
  (f.writtenBy layout depth fun t _ =>
    t.renderNested_written layout (depth + 1)).text.eq_map fun _ _ h => h

theorem exists_pieces {f : Fragment} {layout : Layout} {depth : Nat} {text : String}
    (h : f.render layout depth = .ok text) :
    ∃ ps, f.pieces depth = .ok ps ∧ layout.write ps = text := by
  rw [render_eq] at h
  exact Outcome.exists_of_map_eq_ok h

end Fragment

theorem renderPredicates_eq (fs : List Fragment) (layout : Layout) (depth : Nat) :
    renderPredicates fs layout depth =
      (Entry.predicates (fragmentEntries depth fs)).map fun list => list.map layout.write := by
  have hfragments : Forall₂ (Entry.WrittenBy layout depth) (fragmentEntries depth fs)
      (fragmentRenderings fs) := by
    rw [fragmentEntries_eq_map, fragmentRenderings_eq_map, List.forall₂_map_left_iff,
      List.forall₂_map_right_iff, List.forall₂_same]
    exact fun f _ => f.writtenBy layout depth fun t _ => t.renderNested_written layout (depth + 1)
  refine (Rendering.predicates_written hfragments).eq_map fun list text h => ?_
  cases h with
  | none => rfl
  | some h => exact congrArg some h

end SqlBuilder
