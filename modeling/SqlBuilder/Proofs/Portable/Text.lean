import Mathlib.Logic.Relator
import SqlBuilder.JsonSpec.Compile
import SqlBuilder.Proofs.Ident
import SqlBuilder.Proofs.Template.Holes

/-!
# Texts in two engines

What one engine refuses to write the other refuses too, and for the same kind of reason: a name
is read before it is quoted, a value is checked before it is written, and a template is cut
before it is filled. Two names are quoted alike in one engine exactly when they are in the other.
-/
namespace SqlBuilder.Portable

open List (Forall₂)
open Outcome (Alike SameEnd)
open Template (holes segments fillings)

variable (e e' : Engine)

/-- One identifier as two engines quote it. -/
def SameName (a b : String) : Prop :=
  ∃ i : Ident, i.WellFormed ∧ a = i.toSql e.identQuote ∧ b = i.toSql e'.identQuote

/-- A quoted name can be read back, so a name has one counterpart in the other engine. -/
theorem biUnique_sameName : Relator.BiUnique (SameName e e') := by
  constructor
  · rintro a b c ⟨i, hi, rfl, rfl⟩ ⟨j, hj, rfl, hij⟩
    have hread := Ident.parse_toSql (Ident.isQuote_identQuote e') hi
    rw [hij, Ident.parse_toSql (Ident.isQuote_identQuote e') hj] at hread
    cases hread
    rfl
  · rintro a b c ⟨i, hi, rfl, rfl⟩ ⟨j, hj, hij, rfl⟩
    have hread := Ident.parse_toSql (Ident.isQuote_identQuote e) hi
    rw [hij, Ident.parse_toSql (Ident.isQuote_identQuote e) hj] at hread
    cases hread
    rfl

theorem quoteIdent_alike (name : String) :
    Alike (SameName e e') (e.quoteIdent name) (e'.quoteIdent name) := by
  rw [Engine.quoteIdent, Engine.quoteIdent]
  cases hparse : Ident.parse name with
  | error fault => exact .error rfl
  | ok i => exact .ok ⟨i, Ident.wellFormed_of_parse hparse, rfl, rfl⟩

theorem quoteIdent_end (name : String) : SameEnd (e.quoteIdent name) (e'.quoteIdent name) :=
  (quoteIdent_alike e e' name).sameEnd

theorem escapeScalar_end (v : Value) : SameEnd (e.escapeScalar v) (e'.escapeScalar v) := by
  cases v with
  | float x =>
    by_cases hx : Decimal.isFinite x = true
    · rw [Engine.escapeScalar, Engine.escapeScalar, if_pos hx]
      exact .ok trivial
    · rw [Engine.escapeScalar, Engine.escapeScalar, if_neg hx]
      exact .error rfl
  | null | bool _ | int _ | text _ => exact .ok trivial
  | list _ | ident _ | raw _ => exact .error rfl

theorem escape_end (v : Value) : SameEnd (e.escape v) (e'.escape v) := by
  cases v with
  | list items =>
    exact (Alike.mapM_same items fun v _ => escapeScalar_end e e' v).map fun _ _ _ => trivial
  | ident name => exact quoteIdent_end e e' name
  | raw sql => exact .ok trivial
  | null => exact escapeScalar_end e e' .null
  | bool b => exact escapeScalar_end e e' (.bool b)
  | int n => exact escapeScalar_end e e' (.int n)
  | float x => exact escapeScalar_end e e' (.float x)
  | text s => exact escapeScalar_end e e' (.text s)

mutual

theorem fillIdent_end (v : Value) : SameEnd (e.fillIdent v) (e'.fillIdent v) := by
  cases v with
  | text name => exact quoteIdent_end e e' name
  | ident name => exact quoteIdent_end e e' name
  | list vs =>
    rw [Engine.fillIdent, Engine.fillIdent]
    exact (fillIdents_end vs).map fun _ _ _ => trivial
  | null | bool _ | int _ | float _ | raw _ => exact .error rfl

theorem fillIdents_end (vs : List Value) : SameEnd (e.fillIdents vs) (e'.fillIdents vs) := by
  cases vs with
  | nil => exact .ok trivial
  | cons v vs =>
    rw [Engine.fillIdents, Engine.fillIdents]
    exact (fillIdent_end v).bind fun _ _ _ => (fillIdents_end vs).bind fun _ _ _ => .ok trivial

end

theorem fillList_end (v : Value) : SameEnd (e.fillList v) (e'.fillList v) := by
  by_cases hv : v = .list []
  · subst hv
    exact .ok trivial
  · have hescape := escape_end e e' v
    cases v with
    | list items =>
      obtain ⟨item, items, rfl⟩ := List.exists_cons_of_ne_nil fun h => hv (congrArg _ h)
      exact hescape
    | _ => exact hescape

theorem fillOne_end (form : PlaceholderForm) (v : Value) :
    SameEnd (e.fillOne form v) (e'.fillOne form v) := by
  cases form with
  | list => exact (fillList_end e e' v).map fun _ _ _ => trivial
  | ident => exact fillIdent_end e e' v
  | literal => exact escape_end e e' v

theorem fillings_end (t : Template) (forms : List PlaceholderForm) (params : List Value) :
    SameEnd (t.fillings e forms params) (t.fillings e' forms params) := by
  induction forms generalizing params with
  | nil => exact .ok trivial
  | cons form forms ih =>
    cases params with
    | nil => exact .error rfl
    | cons v params =>
      rw [fillings, fillings]
      exact (fillOne_end e e' form v).bind fun _ _ _ => (ih params).bind fun _ _ _ => .ok trivial

theorem prepare_end (template : String) (params : List Value) :
    SameEnd (e.prepare template params) (e'.prepare template params) := by
  rw [Template.prepare_eq, Template.prepare_eq]
  exact (fillings_end e e' ⟨template, params⟩ (holes (segments template.toList)) params).map
    fun _ _ _ => trivial

theorem fulltext_end {columns columns' : List String}
    (h : Forall₂ (fun _ _ => True) columns columns') (term : String) :
    SameEnd (e.fulltext columns term) (e'.fulltext columns' term) := by
  have hnil : (columns = []) = (columns' = []) := by cases h <;> simp
  simp only [Engine.fulltext]
  simp only [hnil]
  split
  · exact .error rfl
  · cases e <;> cases e' <;> exact .ok trivial

section Json

open JsonSpec

mutual

theorem textExpr_end (cs : List Char) : SameEnd (textExpr e cs) (textExpr e' cs) := by
  rw [textExpr, textExpr]
  by_cases hcolon : hasTop ':' (Text.trim cs) = true
  · rw [if_pos hcolon, if_pos hcolon]
    refine (Alike.mapM_same (Q := fun _ _ => True) _ fun item _ => ?_).map fun _ _ _ => trivial
    have := length_of_mem_items_le item.2
    have := Text.length_trim_le cs
    exact itemPair_end item.1
  rw [if_neg hcolon, if_neg hcolon]
  by_cases hcomma : hasTop ',' (Text.trim cs) = true
  · rw [if_pos hcomma, if_pos hcomma]
    refine (Alike.mapM_same (Q := fun _ _ => True) _ fun item _ => ?_).map fun _ _ _ => trivial
    have := length_of_mem_items item.2
    have := Text.length_trim_le cs
    have : 1 < (Text.splitTop ',' (Text.trim cs)).length := of_decide_eq_true hcomma
    exact textExpr_end item.1
  rw [if_neg hcomma, if_neg hcomma]
  split
  · exact .error rfl
  · exact (quoteIdent_end e e' _).map fun _ _ _ => trivial
termination_by 2 * cs.length + 1

theorem itemPair_end (item : List Char) : SameEnd (itemPair e item) (itemPair e' item) := by
  rw [itemPair, itemPair]
  split
  · exact .error rfl
  · rename_i name value hsplit
    apply Alike.bind_left
    intro name
    have := length_of_splitPair hsplit
    exact (textExpr_end value).bind fun _ _ _ => .ok trivial
termination_by 2 * item.length

end

theorem literalExpr_end (v : Value) : SameEnd (literalExpr e v) (literalExpr e' v) :=
  (escape_end e e' v).map fun _ _ _ => trivial

/-- As many results, or failures of one kind. -/
abbrev SameNumber {α β : Type} : Outcome (List α) → Outcome (List β) → Prop :=
  Alike (Forall₂ fun _ _ => True)

mutual

theorem objectPairs_alike (spec : JsonSpec) :
    SameNumber (objectPairs e spec) (objectPairs e' spec) := by
  cases spec with
  | text s =>
    rw [objectPairs, objectPairs]
    exact Alike.mapM_same _ fun item _ => itemPair_end e e' item
  | list elements =>
    rw [objectPairs, objectPairs]
    exact elementPairs_alike elements
  | map pairs =>
    rw [objectPairs, objectPairs]
    exact mapPairs_alike pairs
  | literal v => exact .error rfl

theorem elementPairs_alike (specs : List JsonSpec) :
    SameNumber (elementPairs e specs) (elementPairs e' specs) := by
  cases specs with
  | nil => exact .ok .nil
  | cons spec specs =>
    have hhead := objectPairs_alike spec
    have htail := elementPairs_alike specs
    have hboth := hhead.bind fun _ _ hs => htail.bind fun _ _ hs' => .ok (List.rel_append hs hs')
    cases spec with
    | list items => exact .error rfl
    | literal v => exact .error rfl
    | text s => exact hboth
    | map pairs => exact hboth

theorem mapPairs_alike (pairs : List (String × JsonSpec)) :
    SameNumber (mapPairs e pairs) (mapPairs e' pairs) := by
  cases pairs with
  | nil => exact .ok .nil
  | cons pair pairs =>
    rw [mapPairs, mapPairs]
    apply Alike.bind_left
    intro name
    apply (valueExpr_end pair.2).bind
    intro _ _ _
    exact (mapPairs_alike pairs).bind fun _ _ hs => .ok (.cons trivial hs)

theorem valueExpr_end (spec : JsonSpec) : SameEnd (valueExpr e spec) (valueExpr e' spec) := by
  cases spec with
  | text s => exact textExpr_end e e' s.toList
  | list items =>
    rw [valueExpr, valueExpr]
    exact (valueExprs_alike items).map fun _ _ _ => trivial
  | map pairs =>
    rw [valueExpr, valueExpr]
    exact (mapPairs_alike pairs).map fun _ _ _ => trivial
  | literal v => exact literalExpr_end e e' v

theorem valueExprs_alike (specs : List JsonSpec) :
    SameNumber (valueExprs e specs) (valueExprs e' specs) := by
  cases specs with
  | nil => exact .ok .nil
  | cons spec specs =>
    rw [valueExprs, valueExprs]
    apply (valueExpr_end spec).bind
    intro _ _ _
    exact (valueExprs_alike specs).bind fun _ _ hs => .ok (.cons trivial hs)

end

theorem arrayItems_alike (spec : JsonSpec) :
    SameNumber (arrayItems e spec) (arrayItems e' spec) := by
  cases spec with
  | text s => exact Alike.mapM_same _ fun item _ => textExpr_end e e' item
  | list items => exact valueExprs_alike e e' items
  | map pairs => exact .error rfl
  | literal v => exact (literalExpr_end e e' v).map fun _ _ _ => .cons trivial .nil

theorem call_ne_empty (function : String) (args : List String) :
    JsonExpr.call function args ≠ "" := by
  intro h
  have hlength := congrArg String.length h
  simp [JsonExpr.call] at hlength

/-- With no version known both engines are taken to have the JSON constructors. A projection is
empty in both when it has no members. -/
theorem compile_alike (spec : JsonSpec) (shape : JsonShape) :
    Alike (fun a b => a = "" ↔ b = "") (spec.compile ⟨e, none⟩ shape)
      (spec.compile ⟨e', none⟩ shape) := by
  simp only [compile, Dialect.supportsJson, Bool.not_true, Bool.false_eq_true, if_false]
  cases shape with
  | object =>
    refine (objectPairs_alike e e' spec).map fun ps qs h => ?_
    rw [← Outcome.isEmpty_eq h]
    split
    · exact Iff.rfl
    · simp [JsonExpr.toSql, call_ne_empty]
  | array =>
    refine (arrayItems_alike e e' spec).map fun xs ys h => ?_
    rw [← Outcome.isEmpty_eq h]
    split
    · exact Iff.rfl
    · simp [JsonExpr.toSql, call_ne_empty]

end Json

end SqlBuilder.Portable
