import SqlBuilder.Proofs.Ident
import SqlBuilder.Proofs.Lexer.Dashes
import SqlBuilder.Proofs.Outcome
import SqlBuilder.Template

/-!
# Values next to a dash

What is filled in for a value is clean: it has no dash outside quotes but the signs of its
numbers. So a comment can only start where a sign comes first, or where nothing is filled in.
-/
namespace SqlBuilder

open List (Forall₂)

/-- A number with a sign. -/
def Value.isNegative : Value → Bool
  | .int n => decide (n < 0)
  | .float x => Decimal.signBit x
  | _ => false

def Value.isVoid : Value → Bool
  | .list [] => true
  | .list [v] => v.isVoid
  | _ => false

namespace PlaceholderForm

/-- What is filled in starts with the sign of a number. -/
def signs : PlaceholderForm → Value → Bool
  | .literal, .list (v :: _) => v.isNegative
  | .literal, v => v.isNegative
  | _, _ => false

def skips : PlaceholderForm → Value → Bool
  | .literal, .list [] => true
  | .ident, v => v.isVoid
  | _, _ => false

end PlaceholderForm

namespace Lexer

variable {e : Engine} {cs : List Char} {signed void : Bool} {v : Value} {text : String}

/-- A clean text, and whether it starts with a dash or is none. -/
structure Spliced (e : Engine) (signed void : Bool) (cs : List Char) : Prop where
  clean : Clean e cs
  head : cs.head? = some '-' ↔ signed = true
  empty : cs = [] ↔ void = true

namespace Spliced

theorem nothing : Spliced e false true [] := ⟨.nil, by simp, by simp⟩

theorem of_head {c : Char} (hclean : Clean e (c :: cs)) (hc : c ≠ '-') :
    Spliced e false false (c :: cs) := ⟨hclean, by simp [hc], by simp⟩

theorem word (hne : cs ≠ []) (hquotes : QuoteFree cs) (hdashes : '-' ∉ cs) :
    Spliced e false false cs := by
  obtain ⟨c, cs, rfl⟩ := List.exists_cons_of_ne_nil hne
  exact of_head (.of_quoteFree hquotes hdashes) fun hc => hdashes (hc ▸ List.mem_cons_self)

theorem number (negative : Bool) {ds : List Char} (hne : ds ≠ []) (h : Numeral ds) :
    Spliced e negative false (sign negative ++ ds) := by
  have hdigits : '-' ∉ ds := not_mem_of_numeral (by decide) (by decide) h
  refine ⟨.signed negative hne h, ?_, ?_⟩
  · cases negative with
    | false =>
      constructor
      · intro hhead
        exact absurd (List.mem_of_head? hhead) hdigits
      · intro hfalse
        cases hfalse
    | true => exact ⟨fun _ => rfl, fun _ => rfl⟩
  · simp [hne]

theorem quoteChars (e : Engine) (cs : List Char) : Spliced e false false (e.quoteChars cs) := by
  have hclean := Clean.quoteChars e cs
  cases e with
  | mysql => exact of_head hclean (by decide)
  | postgres =>
    rw [Engine.quoteChars] at hclean ⊢
    split at hclean
    · rename_i hslash
      rw [if_pos hslash]
      exact of_head hclean (by decide)
    · rename_i hslash
      rw [if_neg hslash]
      exact of_head hclean (by decide)

end Spliced

theorem toList_commaJoined_cons (text : String) (texts : List String) :
    ∃ rest, (Engine.commaJoined (text :: texts)).toList = text.toList ++ rest ∧
      (rest = [] ↔ texts = []) ∧ rest.head? ≠ some '-' := by
  rw [Engine.commaJoined, String.toList_intercalate, List.map_cons]
  cases texts with
  | nil => exact ⟨[], by simp, by simp, by simp⟩
  | cons t ts =>
    rw [List.map_cons, List.intercalate_cons_cons, List.append_assoc]
    exact ⟨_, rfl, by simp, by simp⟩

theorem clean_commaJoined {texts : List String} (h : ∀ t ∈ texts, Clean e t.toList) :
    Clean e (Engine.commaJoined texts).toList := by
  rw [Engine.commaJoined, String.toList_intercalate]
  refine .intercalate (.of_quoteFree (by decide) (by decide)) fun t ht => ?_
  obtain ⟨text, htext, rfl⟩ := List.mem_map.mp ht
  exact h text htext

theorem Spliced.commaJoined {texts : List String} (h : Spliced e signed void text.toList)
    (htexts : ∀ t ∈ texts, Clean e t.toList) :
    Spliced e signed (void && texts.isEmpty) (Engine.commaJoined (text :: texts)).toList := by
  have hclean := clean_commaJoined (List.forall_mem_cons.mpr ⟨h.clean, htexts⟩)
  obtain ⟨rest, hjoined, hrest, hhead⟩ := toList_commaJoined_cons text texts
  rw [hjoined] at hclean ⊢
  refine ⟨hclean, ?_, ?_⟩
  · rw [← h.head]
    cases htext : text.toList with
    | nil => simp [hhead]
    | cons c cs => rfl
  · rw [List.append_eq_nil_iff, h.empty, hrest, Bool.and_eq_true, List.isEmpty_iff]

theorem spliced_escapeScalar (h : e.escapeScalar v = .ok text) :
    Spliced e v.isNegative false text.toList := by
  cases v with
  | null =>
    cases h
    exact .word (by decide) (by decide) (by decide)
  | bool b =>
    cases h
    cases e <;> cases b <;> exact .word (by decide) (by decide) (by decide)
  | int n =>
    cases h
    obtain ⟨ds, hne, hds, htext⟩ := toList_int n
    rw [htext]
    exact .number _ hne hds
  | float x =>
    rw [Engine.escapeScalar] at h
    split at h
    · rename_i hx
      cases h
      obtain ⟨ds, hne, hds, htext⟩ := toList_float hx
      rw [htext]
      exact .number _ hne hds
    · cases h
  | text s =>
    cases h
    rw [Engine.quoteText, String.toList_ofList]
    exact .quoteChars e s.toList
  | _ => cases h

theorem spliced_part (e : Engine) (p : Ident.Part) :
    Spliced e false false (p.toSql e.identQuote).toList := by
  cases p with
  | name name =>
    have hclean := Clean.quotedName e name
    rw [Ident.Part.toSql]
    rw [Ident.quotedName, String.toList_ofList] at hclean ⊢
    exact .of_head hclean (by cases e <;> decide)
  | wildcard =>
    rw [Ident.toList_wildcard]
    exact .word (by decide) (by decide) (by decide)

theorem spliced_toSql (e : Engine) {i : Ident} (h : i.parts ≠ []) :
    Spliced e false false (i.toSql e.identQuote).toList := by
  have hdot : Clean e ['.'] := .of_quoteFree (by decide) (by decide)
  rw [Ident.toList_toSql]
  refine Text.intercalate_of_append (fun a b ha hb => ?_) (by simpa using h) fun t ht => ?_
  · have hclean := (ha.clean.append hdot).append hb.clean
    obtain ⟨c, a, rfl⟩ := List.exists_cons_of_ne_nil fun hnil => by
      simpa using ha.empty.mp hnil
    refine .of_head hclean fun hc => ?_
    simpa using ha.head.mp (congrArg some hc)
  · obtain ⟨p, -, rfl⟩ := List.mem_map.mp ht
    exact spliced_part e p

theorem spliced_quoteIdent {name : String} (h : e.quoteIdent name = .ok text) :
    Spliced e false false text.toList := by
  obtain ⟨i, hparse, rfl⟩ := Ident.exists_of_quoteIdent h
  exact spliced_toSql e (Ident.wellFormed_of_parse hparse).nonempty

theorem clean_of_escapeScalars {items : List Value} {texts : List String}
    (h : items.mapM e.escapeScalar = .ok texts) : ∀ t ∈ texts, Clean e t.toList := by
  intro t ht
  obtain ⟨v, -, hv⟩ := Outcome.mem_of_mapM_eq_ok h ht
  exact (spliced_escapeScalar hv).clean

theorem spliced_escape (hraw : ∀ sql, v ≠ .raw sql) (h : e.escape v = .ok text) :
    Spliced e (PlaceholderForm.literal.signs v) (PlaceholderForm.literal.skips v) text.toList := by
  cases v with
  | list items =>
    obtain ⟨texts, htexts, rfl⟩ := Outcome.exists_of_map_eq_ok h
    cases items with
    | nil =>
      cases htexts
      exact .nothing
    | cons v vs =>
      rw [List.mapM_cons] at htexts
      obtain ⟨t, ht, htexts⟩ := Outcome.exists_of_bind_eq_ok htexts
      obtain ⟨ts, hts, htexts⟩ := Outcome.exists_of_bind_eq_ok htexts
      cases htexts
      exact (spliced_escapeScalar ht).commaJoined (clean_of_escapeScalars hts)
  | ident name => exact spliced_quoteIdent h
  | raw sql => exact absurd rfl (hraw sql)
  | null => exact spliced_escapeScalar (v := .null) h
  | bool b => exact spliced_escapeScalar (v := .bool b) h
  | int n => exact spliced_escapeScalar (v := .int n) h
  | float x => exact spliced_escapeScalar (v := .float x) h
  | text s => exact spliced_escapeScalar (v := .text s) h

mutual

theorem spliced_fillIdent {v : Value} {text : String} (h : e.fillIdent v = .ok text) :
    Spliced e false v.isVoid text.toList := by
  cases v with
  | text name => exact spliced_quoteIdent h
  | ident name => exact spliced_quoteIdent h
  | list names =>
    obtain ⟨texts, htexts, rfl⟩ := Outcome.exists_of_map_eq_ok h
    have hall := spliced_fillIdents htexts
    cases hall with
    | nil => exact .nothing
    | @cons v t vs ts hfirst hrest =>
      have hclean : ∀ u ∈ ts, Clean e u.toList := by
        intro u hu
        obtain ⟨w, -, hw⟩ := Outcome.exists_of_mem_right hrest hu
        exact hw.clean
      have hjoined := hfirst.commaJoined hclean
      cases hrest with
      | nil =>
        rw [Value.isVoid]
        rwa [List.isEmpty_nil, Bool.and_true] at hjoined
      | cons _ _ =>
        rwa [List.isEmpty_cons, Bool.and_false] at hjoined
  | null => cases h
  | bool b => cases h
  | int n => cases h
  | float x => cases h
  | raw sql => cases h

theorem spliced_fillIdents {vs : List Value} {texts : List String}
    (h : e.fillIdents vs = .ok texts) :
    Forall₂ (fun v t => Spliced e false v.isVoid t.toList) vs texts := by
  cases vs with
  | nil =>
    cases h
    exact .nil
  | cons v vs =>
    obtain ⟨name, hname, h⟩ := Outcome.exists_of_bind_eq_ok h
    obtain ⟨names, hnames, h⟩ := Outcome.exists_of_bind_eq_ok h
    cases h
    exact .cons (spliced_fillIdent hname) (spliced_fillIdents hnames)

end

theorem spliced_fillOne {form : PlaceholderForm} (hraw : ∀ sql, v ≠ .raw sql)
    (h : e.fillOne form v = .ok text) : Spliced e (form.signs v) (form.skips v) text.toList := by
  cases form with
  | literal => exact spliced_escape hraw h
  | ident => exact spliced_fillIdent h
  | list =>
    obtain ⟨inner, hinner, rfl⟩ := Outcome.exists_of_map_eq_ok h
    have hclean : Clean e inner.toList := by
      unfold Engine.fillList at hinner
      split at hinner
      · cases hinner
        exact .of_quoteFree (by decide) (by decide)
      · exact (spliced_escape hraw hinner).clean
    have hopen : Clean e ['('] := .of_quoteFree (by decide) (by decide)
    have hclose : Clean e [')'] := .of_quoteFree (by decide) (by decide)
    rw [String.toList_append, String.toList_append]
    exact .of_head ((hopen.append hclean).append hclose) (by decide)

end Lexer

end SqlBuilder
