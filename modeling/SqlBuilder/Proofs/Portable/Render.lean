import SqlBuilder.Proofs.Portable.Shape

/-!
# Rendering one shape

Snapshots of one shape either both render or both fail with the same kind of error. What a kind
of statement refuses depends on which clauses hold fragments and on whether it has a target.
-/
namespace SqlBuilder.Portable

open List (Forall₂)
open Outcome (SameEnd isEmpty_eq)

/-- Entries that can both be written, or fail alike. -/
def SameBody (x y : Entry) : Prop := SameEnd x.body y.body

section Entries

variable {xs ys : List Entry}

theorem commaList_end (h : Forall₂ SameBody xs ys) :
    SameEnd (Entry.commaList xs) (Entry.commaList ys) := by
  induction h with
  | nil => exact .ok trivial
  | cons hxy hrest ih =>
    cases hrest with
    | nil => exact hxy
    | cons _ _ => exact hxy.bind fun _ _ _ => ih.bind fun _ _ _ => .ok trivial

theorem predicateTail_end (h : Forall₂ SameBody xs ys) :
    SameEnd (Entry.predicateTail xs) (Entry.predicateTail ys) := by
  induction h with
  | nil => exact .ok trivial
  | cons hxy hrest ih =>
    cases hrest with
    | nil => exact hxy
    | cons _ _ =>
      apply hxy.bind
      intro first first' _
      apply ih.bind
      intro tail tail' _
      dsimp only
      -- Parentheses do not decide whether there is a text.
      split <;> split <;> exact .ok trivial

theorem predicates_end (h : Forall₂ SameBody xs ys) :
    SameEnd (Entry.predicates xs) (Entry.predicates ys) := by
  simp only [Entry.predicates]
  rw [← isEmpty_eq h]
  split
  · exact .ok trivial
  · exact (predicateTail_end h).map fun _ _ _ => trivial

theorem bodies_end (h : Forall₂ SameBody xs ys) :
    SameEnd (Entry.bodies xs) (Entry.bodies ys) :=
  (Outcome.Alike.mapM h fun _ _ hxy => hxy).sameEnd

theorem keywordList_end (keyword : String) (h : Forall₂ SameBody xs ys) :
    SameEnd (Lines.keywordList keyword xs) (Lines.keywordList keyword ys) := by
  simp only [Lines.keywordList]
  rw [← isEmpty_eq h]
  split
  · exact .ok trivial
  · exact (commaList_end h).map fun _ _ _ => trivial

theorem keywordPredicates_end (keyword : String) (h : Forall₂ SameBody xs ys) :
    SameEnd (Lines.keywordPredicates keyword xs) (Lines.keywordPredicates keyword ys) :=
  (predicates_end h).map fun _ _ _ => trivial

end Entries

section Lines

variable {table table' : Option String} {c d : PerClause (List Entry)}

theorem requireTable_end (h : table.isSome = table'.isSome) :
    SameEnd (requireTable table) (requireTable table') := by
  cases table with
  | none =>
    cases table' with
    | none => exact .error rfl
    | some name => cases h
  | some name =>
    cases table' with
    | none => cases h
    | some name' => exact .ok trivial

/-- The same number of fragments in every clause, each written or failing like the other. -/
abbrev SameBodies (c d : PerClause (List Entry)) : Prop :=
  ∀ k, Forall₂ SameBody (c.get k) (d.get k)

theorem columns_end (h : SameBodies c d) : SameEnd (Lines.columns c) (Lines.columns d) := by
  have hs : c.select.isEmpty = d.select.isEmpty := isEmpty_eq (h .select)
  have ha : c.aggregate.isEmpty = d.aggregate.isEmpty := isEmpty_eq (h .aggregate)
  simp only [Lines.columns]
  rw [← hs, ← ha]
  split
  · exact .ok trivial
  · exact commaList_end (List.rel_append (h .select) (h .aggregate))

theorem source_end (htable : table.isSome = table'.isSome) (h : SameBodies c d) :
    SameEnd (Lines.source table c) (Lines.source table' d) := by
  have hs : c.source.isEmpty = d.source.isEmpty := isEmpty_eq (h .source)
  simp only [Lines.source]
  rw [← hs]
  split
  · exact (requireTable_end htable).map fun _ _ _ => trivial
  · exact commaList_end (h .source)

theorem tail_end (h : SameBodies c d) : SameEnd (Lines.tail c) (Lines.tail d) :=
  (keywordList_end "ORDER BY" (h .ordering)).bind fun _ _ _ =>
    (bodies_end (h .limit)).bind fun _ _ _ => .ok trivial

theorem select_end (htable : table.isSome = table'.isSome) (h : SameBodies c d) :
    SameEnd (Lines.select table c) (Lines.select table' d) := by
  rw [Lines.select_eq, Lines.select_eq]
  apply (columns_end h).bind
  intro _ _ _
  apply (source_end htable h).bind
  intro _ _ _
  apply (bodies_end (h .join)).bind
  intro _ _ _
  apply (keywordPredicates_end "WHERE" (h .filter)).bind
  intro _ _ _
  apply (keywordList_end "GROUP BY" (h .grouping)).bind
  intro _ _ _
  apply (keywordPredicates_end "HAVING" (h .having)).bind
  intro _ _ _
  exact (tail_end h).bind fun _ _ _ => .ok trivial

theorem inserted_end {x y : Entry} {xs ys : List Entry} {name name' : String}
    (hxy : SameBody x y) (h : Forall₂ SameBody xs ys) :
    SameEnd (Lines.inserted name x xs) (Lines.inserted name' y ys) :=
  (bodies_end h).bind fun _ _ _ => hxy.bind fun _ _ _ => .ok trivial

theorem insert_end (htable : table.isSome = table'.isSome) (h : SameBodies c d) :
    SameEnd (Lines.insert table c) (Lines.insert table' d) := by
  have hrows : Forall₂ SameBody c.insert d.insert := h .insert
  rw [Lines.insert_eq, Lines.insert_eq]
  apply (requireTable_end htable).bind
  intro _ _ _
  rw [← PerClause.foreign?_congr fun k => isEmpty_eq (h k)]
  cases c.foreign? with
  | some k => exact .error rfl
  | none =>
    generalize c.insert = xs at hrows
    generalize d.insert = ys at hrows
    cases hrows with
    | nil => exact .error rfl
    | cons hxy hrows =>
      cases hrows with
      | nil => exact .error rfl
      | cons hxy' hrows => exact inserted_end hxy (.cons hxy' hrows)

theorem update_end (htable : table.isSome = table'.isSome) (h : SameBodies c d) :
    SameEnd (Lines.update table c) (Lines.update table' d) := by
  have hrows : Forall₂ SameBody c.update d.update := h .update
  rw [Lines.update, Lines.update]
  apply (requireTable_end htable).bind
  intro _ _ _
  rw [← isEmpty_eq hrows]
  split
  · exact .error rfl
  · apply (commaList_end hrows).bind
    intro _ _ _
    apply (keywordPredicates_end "WHERE" (h .filter)).bind
    intro _ _ _
    exact (tail_end h).bind fun _ _ _ => .ok trivial

theorem delete_end (htable : table.isSome = table'.isSome) (h : SameBodies c d) :
    SameEnd (Lines.delete table c) (Lines.delete table' d) := by
  rw [Lines.delete, Lines.delete]
  apply (requireTable_end htable).bind
  intro _ _ _
  apply (keywordPredicates_end "WHERE" (h .filter)).bind
  intro _ _ _
  exact (tail_end h).bind fun _ _ _ => .ok trivial

theorem ofKind_end (kind : Option StatementKind) (htable : table.isSome = table'.isSome)
    (h : SameBodies c d) : SameEnd (Lines.ofKind kind table c) (Lines.ofKind kind table' d) := by
  simp only [Lines.ofKind]
  cases kind.getD .select with
  | select => exact select_end htable h
  | insert => exact insert_end htable h
  | update => exact update_end htable h
  | delete => exact delete_end htable h

end Lines

theorem partsPieces_end (depth : Nat) {ps qs : List Part} (h : Forall₂ Part.SameShape ps qs)
    (hsub : ∀ a b, .sub a ∈ ps → a.SameShape b →
      SameEnd (a.pieces (depth + 1)) (b.pieces (depth + 1))) :
    SameEnd (partsPieces depth ps) (partsPieces depth qs) := by
  induction h with
  | nil => exact .ok trivial
  | @cons p q ps qs hpq _ ih =>
    rw [partsPieces, partsPieces]
    have hfirst : SameEnd (p.pieces depth) (q.pieces depth) := by
      cases hpq with
      | sql s t => exact .ok trivial
      | sub hab => exact (hsub _ _ List.mem_cons_self hab).bind fun _ _ _ => .ok trivial
    have hrest := ih fun a b ha => hsub a b (List.mem_cons_of_mem p ha)
    exact hfirst.bind fun _ _ _ => hrest.bind fun _ _ _ => .ok trivial

theorem pieces_end (a : Snapshot) :
    ∀ b, a.SameShape b → ∀ depth, SameEnd (a.pieces depth) (b.pieces depth) := by
  -- On what is nested in `a`; what stands in its places in `b` is rendered one level deeper too.
  induction a using Snapshot.nesting_induction with
  | step a ih =>
    intro b h depth
    rw [Snapshot.pieces_eq, Snapshot.pieces_eq, ← h.kind]
    have hbodies : SameBodies (tableEntries depth a.clauses) (tableEntries depth b.clauses) := by
      intro c
      rw [get_tableEntries, get_tableEntries, List.forall₂_map_left_iff,
        List.forall₂_map_right_iff]
      have hmem : Forall₂ (fun f g => f ∈ a.clause c ∧ f.SameShape g) (a.clause c) (b.clause c) :=
        (List.forall₂_and_left _ _).mpr ⟨fun _ hf => hf, h.clause c⟩
      refine hmem.imp fun f g hfg => ?_
      obtain ⟨hf, hshape⟩ := hfg
      have hparts := partsPieces_end depth hshape.parts fun t t' ht hshape' =>
        ih c f hf t ht t' hshape' (depth + 1)
      rw [← Fragment.pieces_eq, ← Fragment.pieces_eq] at hparts
      exact hparts
    exact (ofKind_end a.kind h.table hbodies).map fun _ _ _ => trivial

theorem render_end {a b : Snapshot} (h : a.SameShape b) (layout : Layout) :
    SameEnd (a.render layout) (b.render layout) := by
  rw [Snapshot.render_eq, Snapshot.render_eq]
  exact (pieces_end a b h 0).map fun _ _ _ => trivial

theorem fragment_end {f g : Fragment} (h : f.SameShape g) (layout : Layout) (depth : Nat) :
    SameEnd (f.render layout depth) (g.render layout depth) := by
  have hparts := partsPieces_end depth h.parts fun a b _ hab =>
    pieces_end a b hab (depth + 1)
  rw [← Fragment.pieces_eq, ← Fragment.pieces_eq] at hparts
  rw [Fragment.render_eq, Fragment.render_eq]
  exact hparts.map fun _ _ _ => trivial

end SqlBuilder.Portable
