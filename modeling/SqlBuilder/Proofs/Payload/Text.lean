import SqlBuilder.Proofs.Lexer.Quoted
import SqlBuilder.Proofs.Outcome

/-!
# Texts alike up to payloads

Two texts that an engine cuts into the same tokens, except that string literals in the same
place may stand for different payloads. `R` says which payloads may take each other's place.
-/
namespace SqlBuilder.Payload

open Lexer
open List (Forall₂)

variable {R : List Char → List Char → Prop} {e : Engine}

inductive TokenAlike (R : List Char → List Char → Prop) : Token → Token → Prop where
  | same (t : Token) : TokenAlike R t t
  | payload {a b : List Char} : R a b → TokenAlike R (.literal a) (.literal b)

/-- Scans that stand outside all quotes, behind the same token or behind two payloads. -/
inductive StateAlike (R : List Char → List Char → Prop) (e : Engine) : State → State → Prop where
  | same {s : State} : s.Settled → StateAlike R e s s
  | payload {a b : List Char} {m m' : Bool} : R a b →
      StateAlike R e (.closing (textQuote e m) a) (.closing (textQuote e m') b)

structure TextAlike (R : List Char → List Char → Prop) (e : Engine) (a b : List Char) : Prop where
  left : Closed e a
  right : Closed e b
  tokens : Forall₂ (TokenAlike R) (tokens e a) (tokens e b)

theorem tokensAlike_refl (ts : List Token) : Forall₂ (TokenAlike R) ts ts :=
  List.forall₂_same.mpr fun t _ => .same t

theorem tokensAlike_append {ts ts' us us' : List Token} (h : Forall₂ (TokenAlike R) ts ts')
    (h' : Forall₂ (TokenAlike R) us us') : Forall₂ (TokenAlike R) (ts ++ us) (ts' ++ us') :=
  List.rel_append h h'

namespace StateAlike

theorem settled {s t : State} (h : StateAlike R e s t) : s.Settled ∧ t.Settled := by
  cases h with
  | same hs => exact ⟨hs, hs⟩
  | payload _ => exact ⟨trivial, trivial⟩

theorem pending {s t : State} (h : StateAlike R e s t) :
    Forall₂ (TokenAlike R) s.pending t.pending := by
  cases h with
  | same _ => exact tokensAlike_refl _
  | payload hr => cases e <;> exact .cons (.payload hr) .nil

end StateAlike

namespace TextAlike

theorem of_scan {a b : List Char}
    (ht : Forall₂ (TokenAlike R) (scan e .between a).1 (scan e .between b).1)
    (hs : StateAlike R e (scan e .between a).2 (scan e .between b).2) : TextAlike R e a b where
  left := hs.settled.1
  right := hs.settled.2
  tokens := tokensAlike_append ht hs.pending

theorem refl {a : List Char} (h : Closed e a) : TextAlike R e a a := ⟨h, h, tokensAlike_refl _⟩

theorem nil : TextAlike R e [] [] := refl trivial

theorem literal {a b : List Char} (h : R a b) :
    TextAlike R e (e.quoteChars a) (e.quoteChars b) := by
  have hf : Free e .between := .inl rfl
  apply of_scan
  · rw [scan_quoteChars hf, scan_quoteChars hf]; exact tokensAlike_refl _
  · rw [scan_quoteChars hf, scan_quoteChars hf]; exact .payload h

theorem append_of_opens {g a b : List Char} (hg : Opens e g) (h : TextAlike R e a b) :
    TextAlike R e (g ++ a) (g ++ b) where
  left := closed_append_of_opens hg h.left
  right := closed_append_of_opens hg h.right
  tokens := by
    rw [tokens_append_of_opens hg, tokens_append_of_opens hg]
    exact tokensAlike_append (tokensAlike_refl _) h.tokens

theorem append_symbol {a b cs ds : List Char} {c : Char} (h : TextAlike R e a b)
    (hc : isSymbol c = true) (h' : TextAlike R e (c :: cs) (c :: ds)) :
    TextAlike R e (a ++ c :: cs) (b ++ c :: ds) where
  left := closed_append_symbol h.left hc h'.left
  right := closed_append_symbol h.right hc h'.right
  tokens := by
    rw [tokens_append_symbol h.left hc, tokens_append_symbol h.right hc]
    exact tokensAlike_append h.tokens h'.tokens

theorem append_separated {g a b a' b' : List Char} (h : TextAlike R e a b)
    (hg : Separates e g) (h' : TextAlike R e a' b') :
    TextAlike R e (a ++ g ++ a') (b ++ g ++ b') := by
  have hg' := append_of_opens hg.opens h'
  obtain ⟨⟨c, cs, rfl, hc⟩, -⟩ := hg
  simpa using append_symbol h hc hg'

theorem append_separator {g a b : List Char} (h : TextAlike R e a b) (hg : Separates e g) :
    TextAlike R e (a ++ g) (b ++ g) := by
  simpa using append_separated h hg nil

theorem intercalate {sep : List Char} (hsep : Separates e sep) {as bs : List (List Char)}
    (h : Forall₂ (TextAlike R e) as bs) :
    TextAlike R e (sep.intercalate as) (sep.intercalate bs) := by
  induction h with
  | nil => exact nil
  | @cons a b as bs hab hs ih =>
    cases hs with
    | nil => simpa using hab
    | cons _ _ =>
      rw [List.intercalate_cons_cons, List.intercalate_cons_cons]
      exact append_separated hab hsep ih

end TextAlike

end SqlBuilder.Payload
