import SqlBuilder.Statement.Build
import SqlBuilder.Proofs.Portable.Text

/-!
# Rows in two engines

Rows are matched by their quoted columns. Since a quoted name stands for one identifier in
either engine, two columns are told apart in one engine exactly when they are in the other.
-/
namespace SqlBuilder.Portable

open List (Forall₂)
open Outcome (Alike SameEnd)

variable {e e' : Engine} {columns columns' : List String} {ps qs : List (String × String)}

/-- Columns that stand for one identifier; the values may be any. -/
def SameColumn (e e' : Engine) (p q : String × String) : Prop := SameName e e' p.1 q.1

theorem mem_iff {a b : String} (hab : SameName e e' a b)
    (h : Forall₂ (SameName e e') columns columns') : a ∈ columns ↔ b ∈ columns' :=
  List.rel_mem (biUnique_sameName e e') hab h

theorem eq_iff {a b c d : String} (hab : SameName e e' a b) (hcd : SameName e e' c d) :
    a = c ↔ b = d :=
  Relator.rel_eq (biUnique_sameName e e') hab hcd

theorem names_of_columns (h : Forall₂ (SameColumn e e') ps qs) :
    Forall₂ (SameName e e') (ps.map Prod.fst) (qs.map Prod.fst) := by
  rw [List.forall₂_map_left_iff, List.forall₂_map_right_iff]
  exact h

theorem columnValue_end (e e' : Engine) (column : String) (v : Value) :
    SameEnd (Statement.columnValue e column v) (Statement.columnValue e' column v) := by
  have hescape := escape_end e e' v
  cases v with
  | list items => exact .error rfl
  | _ => exact hescape

theorem escapeRow_alike (row : Row) {seen seen' : List String}
    (h : Forall₂ (SameName e e') seen seen') :
    Alike (Forall₂ (SameColumn e e')) (Statement.escapeRow e seen row)
      (Statement.escapeRow e' seen' row) := by
  induction row generalizing seen seen' with
  | nil => exact .ok .nil
  | cons entry row ih =>
    obtain ⟨column, v⟩ := entry
    rw [Statement.escapeRow, Statement.escapeRow]
    apply (quoteIdent_alike e e' column).bind
    intro name name' hname
    -- A repeated column shows in both engines, as the columns before it correspond one by one.
    have hseen := mem_iff hname h
    by_cases hmem : name ∈ seen
    · rw [if_pos hmem, if_pos (hseen.mp hmem)]
      exact .error rfl
    · rw [if_neg hmem, if_neg (fun hmem' => hmem (hseen.mpr hmem'))]
      apply (columnValue_end e e' column v).bind
      intro value value' _
      exact (ih (.cons hname h)).bind fun _ _ hs => .ok (.cons hname hs)

theorem find?_unknown (h : Forall₂ (SameColumn e e') ps qs)
    (hcolumns : Forall₂ (SameName e e') columns columns') :
    Option.Rel (SameColumn e e') (ps.find? fun p => p.1 ∉ columns)
      (qs.find? fun q => q.1 ∉ columns') := by
  induction h with
  | nil => exact .none
  | @cons p q ps qs hpq _ ih =>
    have hmem := mem_iff hpq hcolumns
    by_cases hp : p.1 ∈ columns
    · have hq := hmem.mp hp
      simp only [List.find?_cons, hp, hq, not_true_eq_false, decide_false]
      exact ih
    · have hq : q.1 ∉ columns' := fun hq => hp (hmem.mpr hq)
      simp only [List.find?_cons, hp, hq, not_false_eq_true, decide_true]
      exact .some hpq

theorem lookup_alike (h : Forall₂ (SameColumn e e') ps qs) {a b : String}
    (hab : SameName e e' a b) :
    Option.Rel (fun _ _ => True) (ps.lookup a) (qs.lookup b) := by
  induction h with
  | nil => exact .none
  | @cons p q ps qs hpq _ ih =>
    have heq := eq_iff hab hpq
    rw [List.lookup_cons, List.lookup_cons]
    by_cases hp : a = p.1
    · rw [beq_iff_eq.mpr hp, beq_iff_eq.mpr (heq.mp hp)]
      exact .some trivial
    · have hq : b ≠ q.1 := fun hq => hp (heq.mpr hq)
      rw [beq_eq_false_iff_ne.mpr hp, beq_eq_false_iff_ne.mpr hq]
      exact ih

theorem alignRow_end (h : Forall₂ (SameColumn e e') ps qs)
    (hcolumns : Forall₂ (SameName e e') columns columns') :
    SameEnd (Statement.alignRow columns ps) (Statement.alignRow columns' qs) := by
  have hfind := find?_unknown h hcolumns
  rw [Statement.alignRow, Statement.alignRow, ← h.length_eq, ← hcolumns.length_eq]
  split
  · exact .error rfl
  generalize (ps.find? fun p => p.1 ∉ columns) = x at hfind
  generalize (qs.find? fun q => q.1 ∉ columns') = y at hfind
  cases hfind with
  | some _ => exact .error rfl
  | none =>
    refine (Alike.mapM (Q := fun _ _ => True) hcolumns fun a b hab => ?_).sameEnd
    have hlookup := lookup_alike h hab
    generalize ps.lookup a = x at hlookup
    generalize qs.lookup b = y at hlookup
    cases hlookup with
    | none => exact .error rfl
    | some _ => exact .ok trivial

end SqlBuilder.Portable
