import SqlBuilder.Pieces
import SqlBuilder.Proofs.Layout
import SqlBuilder.Proofs.Payload.Text

/-!
# Rendering fragments with other payloads

Pieces are alike when every layout writes texts alike. Between two fragments a rendered
statement always has a text that no token runs across, so lists of fragments alike and
whole statements are written alike.
-/
namespace SqlBuilder.Payload

open Lexer
open List (Forall₂)

variable {R : List Char → List Char → Prop} {e : Engine}

def PiecesAlike (R : List Char → List Char → Prop) (e : Engine) (a b : Pieces) : Prop :=
  ∀ layout : Layout, TextAlike R e (layout.write a).toList (layout.write b).toList

/-- A piece that separates what stands on its two sides. -/
def Separating (e : Engine) (p : Piece) : Prop :=
  ∀ layout, Separates e (p.written layout).toList

/-- A piece behind which a token of its own begins. -/
def Opening (e : Engine) (p : Piece) : Prop := ∀ layout, Opens e (p.written layout).toList

theorem separating_text {text : String} (h : Separates e text.toList) :
    Separating e (.text text) := fun _ => h

theorem opening_text {text : String} (h : Opens e text.toList) : Opening e (.text text) :=
  fun _ => h

theorem opens_replicate {c : Char} (hc : isSymbol c = true) (n : Nat) :
    Opens e (List.replicate n c) := by
  induction n with
  | zero => rfl
  | succ n ih =>
    have h := scan_symbol e (s := .between) trivial hc (List.replicate n c)
    exact (congrArg Prod.snd h).trans ih

theorem separates_lineBreak (depth : Nat) : Separates e (Piece.lineBreak depth).toList := by
  rw [Piece.lineBreak, String.toList_ofList]
  constructor
  · exact ⟨'\n', _, rfl, by decide⟩
  · have h := scan_symbol e (s := .between) trivial (c := '\n') (by decide)
    exact (congrArg Prod.snd (h _)).trans (opens_replicate (by decide) depth)

theorem separating_clause (depth : Nat) : Separating e (.clause depth) := by
  intro layout
  cases layout with
  | compact =>
    have h : Separates e " ".toList := by cases e <;> decide
    exact h
  | pretty => exact separates_lineBreak depth

namespace PiecesAlike

variable {a b a' b' : Pieces}

theorem nil : PiecesAlike R e [] [] := fun _ => .nil

theorem text {s t : String} (h : TextAlike R e s.toList t.toList) :
    PiecesAlike R e [.text s] [.text t] := by
  intro layout
  rw [Layout.write_singleton, Layout.write_singleton]
  exact h

theorem separated (h : PiecesAlike R e a b) {p : Piece} (hp : Separating e p)
    (h' : PiecesAlike R e a' b') : PiecesAlike R e (a ++ p :: a') (b ++ p :: b') := by
  intro layout
  simp only [Layout.write_append, Layout.write_cons, String.toList_append]
  rw [← List.append_assoc, ← List.append_assoc]
  exact (h layout).append_separated (hp layout) (h' layout)

theorem opened {p : Piece} (hp : Opening e p) (h : PiecesAlike R e a b) :
    PiecesAlike R e (p :: a) (p :: b) := by
  intro layout
  simp only [Layout.write_cons, String.toList_append]
  exact (h layout).append_of_opens (hp layout)

theorem ended (h : PiecesAlike R e a b) {p : Piece} (hp : Separating e p) :
    PiecesAlike R e (a ++ [p]) (b ++ [p]) := h.separated hp nil

theorem ended_text (h : PiecesAlike R e a b) {g : String} (hg : Separates e g.toList)
    {s t : String} (hst : TextAlike R e s.toList t.toList) :
    PiecesAlike R e (a ++ [.text (g ++ s)]) (b ++ [.text (g ++ t)]) := by
  intro layout
  simp only [Layout.write_append, Layout.write_singleton, Piece.written,
    String.toList_append]
  rw [← List.append_assoc, ← List.append_assoc]
  exact (h layout).append_separated hg hst

theorem parenthesised (h : PiecesAlike R e a b) :
    PiecesAlike R e (.text "(" :: a ++ [.text ")"]) (.text "(" :: b ++ [.text ")"]) := by
  have ho : Opening e (.text "(") := opening_text (by cases e <;> decide)
  have hc : Separating e (.text ")") := separating_text (by cases e <;> decide)
  exact (h.opened ho).ended hc

theorem intercalate {p : Piece} (hp : Separating e p) {as bs : List Pieces}
    (h : Forall₂ (PiecesAlike R e) as bs) :
    PiecesAlike R e ([p].intercalate as) ([p].intercalate bs) := by
  induction h with
  | nil => exact nil
  | @cons a b as bs hab hs ih =>
    cases hs with
    | nil => simpa using hab
    | cons _ _ =>
      rw [List.intercalate_cons_cons, List.intercalate_cons_cons]
      simpa using hab.separated hp ih

end PiecesAlike

end SqlBuilder.Payload
