import SqlBuilder.Proofs.Payload.Json
import SqlBuilder.Proofs.Payload.Snapshot
import SqlBuilder.Proofs.Simulation

/-!
# Fields with other payloads

Payloads reach a field only through the statements nested in it. The fragments of fields
alike are alike, and so are all fragments made from them by adding text on either side.
-/
namespace SqlBuilder.Payload

open Lexer
open List (Forall₂)

variable {R : List Char → List Char → Prop} {e : Engine}

namespace FragmentAlike

variable {f g f' g' : Fragment} {s t : String}

theorem ofText (h : TextAlike R e s.toList t.toList) :
    FragmentAlike R e (.ofText s) (.ofText t) where
  op := rfl
  hasSub := rfl
  pieces depth := by
    rw [Fragment.pieces_ofText, Fragment.pieces_ofText]
    exact .ok (.text h)

theorem ofSub {a b : Snapshot} (h : SnapshotAlike R e a b) :
    FragmentAlike R e ⟨[.sub a], none⟩ ⟨[.sub b], none⟩ where
  op := rfl
  hasSub := rfl
  pieces depth := by
    have hsub := pieces_alike h (depth + 1)
    simp only [Fragment.pieces_eq, partsPieces, Part.pieces]
    apply Outcome.Alike.bind (hsub.bind fun a b hab => .ok hab.parenthesised)
    intro a b hab
    refine .ok ?_
    rw [List.append_nil, List.append_nil]
    exact hab

theorem withOp (h : FragmentAlike R e f g) (op : BoolOp) :
    FragmentAlike R e (f.withOp op) (g.withOp op) where
  op := rfl
  hasSub := h.hasSub
  pieces depth := by
    rw [Fragment.pieces_withOp, Fragment.pieces_withOp]
    exact h.pieces depth

theorem after (h : FragmentAlike R e f g) (hs : Opens e s.toList) :
    FragmentAlike R e (f.after s) (g.after s) where
  op := h.op
  hasSub := h.hasSub
  pieces depth := by
    rw [Fragment.pieces_after, Fragment.pieces_after]
    exact (h.pieces depth).map fun a b hab => hab.opened (opening_text hs)

theorem hasSub_before (f : Fragment) (text : String) : (f.before text).hasSub = f.hasSub := by
  simp [Fragment.hasSub, Fragment.before]

theorem before (h : FragmentAlike R e f g) (hs : Separates e s.toList) :
    FragmentAlike R e (f.before s) (g.before s) where
  op := h.op
  hasSub := by rw [hasSub_before, hasSub_before, h.hasSub]
  pieces depth := by
    rw [Fragment.pieces_before, Fragment.pieces_before]
    exact (h.pieces depth).map fun a b hab => hab.ended (separating_text hs)

theorem before_text (h : FragmentAlike R e f g) {sep : String} (hsep : Separates e sep.toList)
    (hst : TextAlike R e s.toList t.toList) :
    FragmentAlike R e (f.before (sep ++ s)) (g.before (sep ++ t)) where
  op := h.op
  hasSub := by rw [hasSub_before, hasSub_before, h.hasSub]
  pieces depth := by
    rw [Fragment.pieces_before, Fragment.pieces_before]
    exact (h.pieces depth).map fun a b hab => hab.ended_text hsep hst

theorem hasSub_join (f g : Fragment) (sep : String) :
    (f.join sep g).hasSub = (f.hasSub || g.hasSub) := by
  simp [Fragment.hasSub, Fragment.join]

theorem join (h : FragmentAlike R e f g) (hs : Separates e s.toList)
    (h' : FragmentAlike R e f' g') : FragmentAlike R e (f.join s f') (g.join s g') where
  op := h.op
  hasSub := by rw [hasSub_join, hasSub_join, h.hasSub, h'.hasSub]
  pieces depth := by
    rw [Fragment.pieces_join, Fragment.pieces_join]
    apply (h.pieces depth).bind
    intro a b hab
    exact (h'.pieces depth).bind fun a' b' hab' => .ok (hab.separated (separating_text hs) hab')

end FragmentAlike

/-- Statements that differ only in payloads, and hold the same kind of error if any. -/
structure StatementAlike (R : List Char → List Char → Prop) (s t : Statement) : Prop where
  dialect : s.dialect = t.dialect
  config : s.config = t.config
  aliasName : s.aliasName = t.aliasName
  insertColumns : s.insertColumns = t.insertColumns
  lastPredicate : s.lastPredicate = t.lastPredicate
  error : s.error.map SqlError.kind = t.error.map SqlError.kind
  state : SnapshotAlike R s.engine s.state t.state

/-- The same field, but for the statements in it. Raw text is like nothing. -/
inductive FieldAlike (S : Statement → Statement → Prop) : Field → Field → Prop where
  | text (s : String) : FieldAlike S (.text s) (.text s)
  | list (names : List String) : FieldAlike S (.list names) (.list names)
  | ident (name : String) : FieldAlike S (.ident name) (.ident name)
  | statement {s t : Statement} : S s t → FieldAlike S (.statement s) (.statement t)

theorem StatementAlike.engine {s t : Statement} (h : StatementAlike R s t) :
    s.engine = t.engine := congrArg Dialect.engine h.dialect

theorem checked_alike {s t : Statement} (h : StatementAlike R s t) :
    Outcome.Alike (SnapshotAlike R s.engine) s.checked t.checked :=
  Statement.checked_alike h.error h.state

theorem nested_alike {s t : Statement} (h : StatementAlike R s t) (parent : Engine) :
    Outcome.Alike (SnapshotAlike R parent) (s.nested parent) (t.nested parent) := by
  simp only [Statement.nested]
  rw [← h.engine]
  by_cases hp : s.engine = parent
  · subst hp
    simp only [ne_eq, not_true_eq_false, if_false]
    apply (checked_alike h).map
    intro a b hab
    exact ⟨hab.kind, hab.table, rfl, hab.closed, hab.clause⟩
  · simp only [ne_eq, hp, not_false_eq_true, if_true]
    exact .error rfl

theorem closed_quoteAliased {whole : String} {segment : List Char} {text : String}
    (h : Field.quoteAliased e whole segment = .ok text) : Closed e text.toList := by
  have has : Separates e " AS ".toList := by cases e <;> decide
  unfold Field.quoteAliased at h
  dsimp only at h
  split at h
  · cases h
  split at h
  · exact closed_quoteIdent h
  · obtain ⟨name, hn, h⟩ := Outcome.exists_of_bind_eq_ok h
    obtain ⟨aliasName, ha, h⟩ := Outcome.exists_of_bind_eq_ok h
    cases h
    rw [String.toList_append, String.toList_append]
    have hopen := opens_append_separates (closed_quoteIdent hn) has
    exact closed_append_of_opens hopen (closed_quoteIdent ha)

theorem items_alike {α : Type} (xs : List α) {f : α → Outcome String}
    (hf : ∀ x text, f x = .ok text → Closed e text.toList) :
    Outcome.Alike (Forall₂ (FragmentAlike R e)) (xs.mapM fun x => (f x).map Fragment.ofText)
      (xs.mapM fun x => (f x).map Fragment.ofText) := by
  apply Outcome.Alike.mapM_same
  intro x _
  have hx : Outcome.Alike (fun s t => s = t ∧ Closed e s.toList) (f x) (f x) :=
    .refl _ fun text ht => ⟨rfl, hf x text ht⟩
  apply hx.map
  rintro s _ ⟨rfl, hs⟩
  exact .ofText (.refl hs)

theorem statementFragment_alike {s t : Statement} (h : StatementAlike R s t) :
    Outcome.Alike (FragmentAlike R e) (Field.statementFragment e s)
      (Field.statementFragment e t) := by
  have has : Separates e " AS ".toList := by cases e <;> decide
  rw [Field.statementFragment]
  apply (nested_alike h e).bind
  intro a b hab
  rw [← h.aliasName]
  cases s.aliasName with
  | none => exact .ok (.ofSub hab)
  | some name =>
    have hname : Outcome.Alike (fun s t => s = t ∧ Closed e s.toList) (e.quoteIdent name)
        (e.quoteIdent name) := .refl _ fun text ht => ⟨rfl, closed_quoteIdent ht⟩
    apply hname.bind
    rintro text _ ⟨rfl, ht⟩
    exact .ok ((FragmentAlike.ofSub hab).before_text has (.refl ht))

theorem fragments_alike {f g : Field} (h : FieldAlike (StatementAlike R) f g) :
    Outcome.Alike (Forall₂ (FragmentAlike R e)) (f.fragments e) (g.fragments e) := by
  cases h with
  | text s => exact items_alike _ fun segment text ht => closed_quoteAliased ht
  | list names =>
    cases names with
    | nil => exact .error rfl
    | cons name names => exact items_alike _ fun name text ht => closed_quoteAliased ht
  | ident name =>
    refine Outcome.Alike.map (P := fun s t => s = t ∧ Closed e s.toList)
      (.refl _ fun text ht => ⟨rfl, closed_quoteIdent ht⟩) ?_
    rintro s _ ⟨rfl, hs⟩
    exact .cons (.ofText (.refl hs)) .nil
  | statement hst => exact (statementFragment_alike hst).map fun a b hab => .cons hab .nil

theorem joined_alike {f g : Field} (h : FieldAlike (StatementAlike R) f g) :
    Outcome.Alike (FragmentAlike R e) (f.joined e) (g.joined e) := by
  rw [Field.joined]
  apply (fragments_alike h).bind
  intro fs gs hfg
  cases hfg with
  | nil => exact .error rfl
  | cons hab hrest =>
    exact .ok (List.rel_foldl (fun _ _ h _ _ h' => h.join (separates_comma e) h') hab hrest)

theorem requireName_alike {f g : Field} (h : FieldAlike (StatementAlike R) f g)
    (place : NamedPlace) : f.requireName place = g.requireName place := by
  have hunnamed : f.isUnnamed = g.isUnnamed := by
    cases h with
    | statement hst => exact congrArg Option.isNone hst.aliasName
    | _ => rfl
  simp only [Field.requireName, hunnamed]

/-- The same search term, or two terms that are not blank and whose trimmed texts are payloads. -/
inductive TermAlike (R : List Char → List Char → Prop) : String → String → Prop where
  | same (term : String) : TermAlike R term term
  | payload {s t : String} : Text.blank s = false → Text.blank t = false →
      R (Text.trim s.toList) (Text.trim t.toList) → TermAlike R s t

theorem TermAlike.blank {s t : String} (h : TermAlike R s t) : Text.blank s = Text.blank t := by
  cases h with
  | same => rfl
  | payload hs ht _ => rw [hs, ht]

theorem TermAlike.quoted {s t : String} (h : TermAlike R s t) :
    TextAlike R e (e.quoteText (Text.trimmed s)).toList (e.quoteText (Text.trimmed t)).toList := by
  cases h with
  | same => exact .refl (closed_quoteText _)
  | payload _ _ hr =>
    rw [Engine.quoteText, Engine.quoteText, Text.trimmed, Text.trimmed]
    simp only [String.toList_ofList]
    exact .literal hr

theorem searchColumn_alike {f g : Fragment} (h : FragmentAlike R e f g) :
    Outcome.Alike (fun s t => TextAlike R e s.toList t.toList) (Statement.searchColumn f)
      (Statement.searchColumn g) := by
  simp only [Statement.searchColumn]
  rw [← h.hasSub]
  split
  · exact .error rfl
  · rw [Fragment.render_eq, Fragment.render_eq]
    exact (h.pieces 0).map fun a b hab => hab .compact

theorem commaJoined_alike {as bs : List String}
    (h : Forall₂ (fun s t => TextAlike R e s.toList t.toList) as bs) :
    TextAlike R e (Engine.commaJoined as).toList (Engine.commaJoined bs).toList := by
  rw [Engine.commaJoined, Engine.commaJoined, String.toList_intercalate,
    String.toList_intercalate]
  refine .intercalate (separates_comma e) ?_
  rw [List.forall₂_map_left_iff, List.forall₂_map_right_iff]
  exact h

theorem framed_alike {g g' g'' a b a' b' : String} (hg : Opens e g.toList)
    (hg' : Separates e g'.toList) (hg'' : Separates e g''.toList)
    (h : TextAlike R e a.toList b.toList) (h' : TextAlike R e a'.toList b'.toList) :
    TextAlike R e (g ++ a ++ g' ++ a' ++ g'').toList (g ++ b ++ g' ++ b' ++ g'').toList := by
  simp only [String.toList_append]
  exact ((h.append_of_opens hg).append_separated hg' h').append_separator hg''

theorem fulltext_alike {as bs : List String}
    (h : Forall₂ (fun s t => TextAlike R e s.toList t.toList) as bs) {s t : String}
    (hst : TermAlike R s t) :
    Outcome.Alike (fun s t => TextAlike R e s.toList t.toList) (e.fulltext as s)
      (e.fulltext bs t) := by
  have hclose : Separates e ")".toList := by cases e <;> decide
  have hterm := hst.quoted (e := e)
  have hjoined := commaJoined_alike h
  have hnil : (as = []) = (bs = []) := by cases h <;> simp
  simp only [Engine.fulltext]
  simp only [← hst.blank, hnil]
  split
  · exact .error rfl
  cases e with
  | mysql => exact .ok (framed_alike (by decide) (by decide) hclose hjoined hterm)
  | postgres =>
    refine .ok (framed_alike (by decide) (by decide) hclose ?_ hterm)
    have hwords : TextAlike R .postgres
        ("concat_ws(' ', " ++ Engine.commaJoined as ++ ")").toList
        ("concat_ws(' ', " ++ Engine.commaJoined bs ++ ")").toList := by
      simp only [String.toList_append]
      exact (hjoined.append_of_opens (by decide)).append_separator hclose
    cases h with
    | nil => exact hwords
    | cons hab hrest =>
      cases hrest with
      | nil => exact hab
      | cons _ _ => exact hwords

end SqlBuilder.Payload
