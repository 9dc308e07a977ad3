import SqlBuilder.Proofs.Outcome
import SqlBuilder.Template

/-!
# What a parameter is written as

The text of a parameter in each form of placeholder, apart from how it is computed. There is at
most one, and a parameter without any is of the wrong shape.
-/
namespace SqlBuilder.Template

open List (Forall₂)

mutual

/-- An identifier, or a list of them to any depth. -/
inductive Named (e : Engine) : Value → String → Prop where
  | text {name text} : e.quoteIdent name = .ok text → Named e (.text name) text
  | ident {name text} : e.quoteIdent name = .ok text → Named e (.ident name) text
  | list {vs texts} : NamedAll e vs texts → Named e (.list vs) (Engine.commaJoined texts)

inductive NamedAll (e : Engine) : List Value → List String → Prop where
  | nil : NamedAll e [] []
  | cons {v vs text texts} : Named e v text → NamedAll e vs texts →
      NamedAll e (v :: vs) (text :: texts)

end

/-- The text of a value in a form of placeholder. No value equals `NULL`, so an empty list in
parentheses holds it. -/
inductive Expands (e : Engine) : PlaceholderForm → Value → String → Prop where
  | literal {v text} : e.escape v = .ok text → Expands e .literal v text
  | ident {v text} : Named e v text → Expands e .ident v text
  | empty : Expands e .list (.list []) "(NULL)"
  | items {vs texts} : vs ≠ [] → Forall₂ (fun v text => e.escapeScalar v = .ok text) vs texts →
      Expands e .list (.list vs) ("(" ++ Engine.commaJoined texts ++ ")")
  | single {v text} : (∀ vs, v ≠ .list vs) → e.escape v = .ok text →
      Expands e .list v ("(" ++ text ++ ")")

variable {e : Engine} {form : PlaceholderForm} {v : Value} {text : String}

mutual

theorem named_of_fillIdent {v : Value} {text : String} (h : e.fillIdent v = .ok text) :
    Named e v text := by
  cases v with
  | text name => exact .text h
  | ident name => exact .ident h
  | list vs =>
    rw [Engine.fillIdent] at h
    obtain ⟨texts, htexts, rfl⟩ := Outcome.exists_of_map_eq_ok h
    exact .list (namedAll_of_fillIdents htexts)
  | null | bool _ | int _ | float _ | raw _ => cases h

theorem namedAll_of_fillIdents {vs : List Value} {texts : List String}
    (h : e.fillIdents vs = .ok texts) : NamedAll e vs texts := by
  cases vs with
  | nil =>
    cases h
    exact .nil
  | cons v vs =>
    rw [Engine.fillIdents] at h
    obtain ⟨text, htext, h⟩ := Outcome.exists_of_bind_eq_ok h
    obtain ⟨texts, htexts, h⟩ := Outcome.exists_of_bind_eq_ok h
    cases h
    exact .cons (named_of_fillIdent htext) (namedAll_of_fillIdents htexts)

end

mutual

theorem fillIdent_of_named {v : Value} {text : String} (h : Named e v text) :
    e.fillIdent v = .ok text := by
  cases h with
  | text hname => exact hname
  | ident hname => exact hname
  | list hall =>
    rw [Engine.fillIdent, fillIdents_of_namedAll hall]
    rfl

theorem fillIdents_of_namedAll {vs : List Value} {texts : List String} (h : NamedAll e vs texts) :
    e.fillIdents vs = .ok texts := by
  cases h with
  | nil => rfl
  | cons hv hall =>
    rw [Engine.fillIdents, fillIdent_of_named hv, fillIdents_of_namedAll hall]
    rfl

end

theorem expands_of_fillList {inner : String} (h : e.fillList v = .ok inner) :
    Expands e .list v ("(" ++ inner ++ ")") := by
  by_cases hlist : ∃ vs, v = .list vs
  · obtain ⟨_ | ⟨v, vs⟩, rfl⟩ := hlist
    · cases h
      exact .empty
    · obtain ⟨texts, htexts, rfl⟩ := Outcome.exists_of_map_eq_ok h
      exact .items (List.cons_ne_nil v vs) (Outcome.forall₂_of_mapM_eq_ok htexts)
  · rw [not_exists] at hlist
    cases v with
    | list vs => exact absurd rfl (hlist vs)
    | null | bool _ | int _ | float _ | text _ | ident _ | raw _ => exact .single hlist h

theorem fillOne_eq_ok_iff : e.fillOne form v = .ok text ↔ Expands e form v text := by
  constructor
  · intro h
    cases form with
    | list =>
      obtain ⟨inner, hinner, rfl⟩ := Outcome.exists_of_map_eq_ok h
      exact expands_of_fillList hinner
    | ident => exact .ident (named_of_fillIdent h)
    | literal => exact .literal h
  · intro h
    cases h with
    | literal htext => exact htext
    | ident hnamed => exact fillIdent_of_named hnamed
    | empty => rfl
    | items hne hall =>
      obtain ⟨v, vs, rfl⟩ := List.exists_cons_of_ne_nil hne
      simp only [Engine.fillOne, Engine.fillList, Engine.escape, Engine.escapeList,
        Outcome.mapM_eq_ok_of_forall₂ hall, Except.map]
    | single hlist htext =>
      cases v with
      | list vs => exact absurd rfl (hlist vs)
      | null | bool _ | int _ | float _ | text _ | ident _ | raw _ =>
        simp only [Engine.fillOne, Engine.fillList, htext, Except.map]

/-- A failure is one of shape. -/
def ShapeOnly {α : Type} (x : Outcome α) : Prop := ∀ y, x = .error y → y.kind = .shape

namespace ShapeOnly

variable {α β : Type} {x : Outcome α} {f : α → Outcome β}

theorem ok (a : α) : ShapeOnly (.ok a) := fun _ h => nomatch h

theorem error (fault : ShapeFault) : ShapeOnly (.error (.shape fault) : Outcome α) := by
  intro y h
  cases h
  rfl

theorem bind (hx : ShapeOnly x) (hf : ∀ a, ShapeOnly (f a)) : ShapeOnly (x >>= f) := by
  cases x with
  | ok a => exact hf a
  | error y =>
    intro z h
    cases h
    exact hx y rfl

theorem map (hx : ShapeOnly x) (g : α → β) : ShapeOnly (x.map g) :=
  match x with
  | .ok a => .ok (g a)
  | .error _ => fun _ h => hx _ (by cases h; rfl)

theorem mapM {as : List α} (hf : ∀ a, ShapeOnly (f a)) : ShapeOnly (as.mapM f) := by
  induction as with
  | nil => exact .ok []
  | cons a as ih =>
    rw [List.mapM_cons]
    exact (hf a).bind fun b => ih.bind fun bs => .ok (b :: bs)

end ShapeOnly

theorem shapeOnly_quoteIdent (e : Engine) (name : String) : ShapeOnly (e.quoteIdent name) := by
  unfold Engine.quoteIdent
  split
  · exact .ok _
  · exact .error _

theorem shapeOnly_escapeScalar (e : Engine) (v : Value) : ShapeOnly (e.escapeScalar v) := by
  cases v with
  | float x =>
    by_cases hx : Decimal.isFinite x
    · rw [Engine.escapeScalar, if_pos hx]
      exact .ok _
    · rw [Engine.escapeScalar, if_neg hx]
      exact .error _
  | null | bool _ | int _ | text _ => exact .ok _
  | list _ | ident _ | raw _ => exact .error _

theorem shapeOnly_escape (e : Engine) (v : Value) : ShapeOnly (e.escape v) := by
  cases v with
  | list items => exact (ShapeOnly.mapM fun v => shapeOnly_escapeScalar e v).map _
  | ident name => exact shapeOnly_quoteIdent e name
  | raw sql => exact .ok sql
  | null => exact shapeOnly_escapeScalar e .null
  | bool b => exact shapeOnly_escapeScalar e (.bool b)
  | int n => exact shapeOnly_escapeScalar e (.int n)
  | float x => exact shapeOnly_escapeScalar e (.float x)
  | text s => exact shapeOnly_escapeScalar e (.text s)

mutual

theorem shapeOnly_fillIdent (e : Engine) (v : Value) : ShapeOnly (e.fillIdent v) := by
  cases v with
  | text name => exact shapeOnly_quoteIdent e name
  | ident name => exact shapeOnly_quoteIdent e name
  | list vs =>
    rw [Engine.fillIdent]
    exact (shapeOnly_fillIdents e vs).map _
  | null | bool _ | int _ | float _ | raw _ => exact .error _

theorem shapeOnly_fillIdents (e : Engine) (vs : List Value) : ShapeOnly (e.fillIdents vs) := by
  cases vs with
  | nil => exact .ok []
  | cons v vs =>
    rw [Engine.fillIdents]
    exact (shapeOnly_fillIdent e v).bind fun name =>
      (shapeOnly_fillIdents e vs).bind fun names => .ok (name :: names)

end

theorem shapeOnly_fillList (e : Engine) (v : Value) : ShapeOnly (e.fillList v) := by
  unfold Engine.fillList
  split
  · exact .ok _
  · exact shapeOnly_escape e v

theorem shapeOnly_fillOne (e : Engine) (form : PlaceholderForm) (v : Value) :
    ShapeOnly (e.fillOne form v) := by
  cases form with
  | list => exact (shapeOnly_fillList e v).map _
  | ident => exact shapeOnly_fillIdent e v
  | literal => exact shapeOnly_escape e v

end SqlBuilder.Template
