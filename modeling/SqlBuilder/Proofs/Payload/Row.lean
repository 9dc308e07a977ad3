import SqlBuilder.Proofs.Payload.Field

/-!
# Rows with other payloads

The columns of two rows alike are the same, so the rows are refused for the same reasons,
and their values line up in the same order.
-/
namespace SqlBuilder.Payload

open Lexer
open List (Forall₂)

variable {R : List Char → List Char → Prop} {e : Engine}

/-- The same columns in the same order, with values alike. -/
def RowAlike (R : List Char → List Char → Prop) : Row → Row → Prop :=
  Forall₂ fun p q => p.1 = q.1 ∧ ValueAlike R p.2 q.2

/-- Quoted columns that are the same, with written values alike. -/
structure PairAlike (R : List Char → List Char → Prop) (e : Engine) (p q : String × String) :
    Prop where
  column : p.1 = q.1
  closed : Closed e p.1.toList
  value : TextAlike R e p.2.toList q.2.toList

variable {ps qs : List (String × String)}

theorem columns_eq (h : Forall₂ (PairAlike R e) ps qs) : ps.map Prod.fst = qs.map Prod.fst := by
  induction h with
  | nil => rfl
  | cons hpq _ ih => rw [List.map_cons, List.map_cons, hpq.column, ih]

theorem columns_closed (h : Forall₂ (PairAlike R e) ps qs) :
    ∀ column ∈ ps.map Prod.fst, Closed e column.toList := by
  induction h with
  | nil =>
    intro _ hc
    exact absurd hc List.not_mem_nil
  | cons hpq _ ih =>
    intro column hc
    rcases List.mem_cons.mp hc with rfl | hc
    · exact hpq.closed
    · exact ih column hc

theorem columnValue_alike {column : String} {v w : Value} (h : ValueAlike R v w) :
    WrittenAlike R e (Statement.columnValue e column v) (Statement.columnValue e column w) := by
  have hescape := escape_alike (e := e) h
  cases h with
  | list _ => exact .error rfl
  | _ => exact hescape

theorem escapeRow_alike {row row' : Row} (h : RowAlike R row row') (seen : List String) :
    Outcome.Alike (Forall₂ (PairAlike R e)) (Statement.escapeRow e seen row)
      (Statement.escapeRow e seen row') := by
  induction h generalizing seen with
  | nil => exact .ok .nil
  | @cons p q row row' hpq _ ih =>
    obtain ⟨column, v⟩ := p
    obtain ⟨_, w⟩ := q
    obtain ⟨rfl, hv⟩ := hpq
    have hname : Outcome.Alike (fun s t => s = t ∧ Closed e s.toList) (e.quoteIdent column)
        (e.quoteIdent column) := .refl _ fun text ht => ⟨rfl, closed_quoteIdent ht⟩
    apply hname.bind
    rintro name _ ⟨rfl, hclosed⟩
    by_cases hseen : name ∈ seen
    · simp only [hseen, if_true]
      exact .error rfl
    · simp only [hseen, if_false]
      apply (columnValue_alike hv).bind
      intro a b hab
      exact (ih _).bind fun as bs hs => .ok (.cons ⟨rfl, hclosed, hab.textAlike⟩ hs)

theorem find?_alike (h : Forall₂ (PairAlike R e) ps qs) (columns : List String) :
    (ps.find? fun p => p.1 ∉ columns).map Prod.fst =
      (qs.find? fun p => p.1 ∉ columns).map Prod.fst := by
  induction h with
  | nil => rfl
  | @cons p q ps qs hpq _ ih =>
    have hcolumn := hpq.column
    by_cases hp : p.1 ∈ columns
    · have hq : q.1 ∈ columns := hcolumn ▸ hp
      simp only [List.find?_cons, hp, hq, not_true_eq_false, decide_false, ih]
    · have hq : q.1 ∉ columns := hcolumn ▸ hp
      simp only [List.find?_cons, hq, not_false_eq_true, decide_true, Option.map_some, hcolumn]

theorem lookup_alike (h : Forall₂ (PairAlike R e) ps qs) (column : String) :
    Option.Rel (fun s t => TextAlike R e s.toList t.toList) (ps.lookup column)
      (qs.lookup column) := by
  induction h with
  | nil => exact .none
  | @cons p q ps qs hpq _ ih =>
    rw [List.lookup_cons, List.lookup_cons, ← hpq.column]
    by_cases hc : (column == p.1) = true
    · simp only [hc]
      exact .some hpq.value
    · simp only [hc]
      exact ih

theorem alignRow_alike (h : Forall₂ (PairAlike R e) ps qs) (columns : List String) :
    Outcome.Alike (Forall₂ fun s t => TextAlike R e s.toList t.toList)
      (Statement.alignRow columns ps) (Statement.alignRow columns qs) := by
  have hfind := find?_alike h columns
  simp only [Statement.alignRow]
  rw [← h.length_eq]
  split
  · exact .error rfl
  cases hp : ps.find? fun p => p.1 ∉ columns with
  | some p =>
    rw [hp] at hfind
    obtain ⟨q, hq, -⟩ := Option.map_eq_some_iff.mp hfind.symm
    rw [hq]
    exact .error rfl
  | none =>
    rw [hp] at hfind
    rw [Option.map_eq_none_iff.mp hfind.symm]
    apply Outcome.Alike.mapM_same
    intro column _
    have hlookup := lookup_alike h column
    generalize ps.lookup column = x at hlookup
    generalize qs.lookup column = y at hlookup
    cases hlookup with
    | none => exact .error rfl
    | some hv => exact .ok hv

end SqlBuilder.Payload
