import Mathlib.Data.List.Chain
import SqlBuilder.Template

/-!
# Templates apart from their parameters

A template is cut into plain characters and placeholders before any parameter is looked
at. Filling goes through these segments from left to right.
-/
namespace SqlBuilder.Template

inductive Segment where
  | plain (c : Char)
  | hole (form : PlaceholderForm)
  deriving DecidableEq, Repr

def segments : List Char → List Segment
  | '(' :: '?' :: ')' :: cs => .hole .list :: segments cs
  | '?' :: '?' :: cs => .hole .ident :: segments cs
  | '?' :: cs => .hole .literal :: segments cs
  | c :: cs => .plain c :: segments cs
  | [] => []

def holes (ss : List Segment) : List PlaceholderForm :=
  ss.filterMap fun
    | .hole form => some form
    | .plain _ => none

def fillSegments (t : Template) (e : Engine) : List Segment → List Value → Outcome (List Char)
  | .hole form :: ss, params => do
    let (text, params) ← t.take e form params
    return text ++ (← fillSegments t e ss params)
  | .plain c :: ss, params => do return c :: (← fillSegments t e ss params)
  | [], _ => .ok []

theorem fill_eq_fillSegments (t : Template) (e : Engine) (cs : List Char)
    (params : List Value) : t.fill e cs params = t.fillSegments e (segments cs) params := by
  induction cs using segments.induct generalizing params with
  | case1 cs ih => simp only [fill, segments, fillSegments, ih]
  | case2 cs ih => simp only [fill, segments, fillSegments, ih]
  | case3 cs h ih => simp only [fill, segments, fillSegments, ih]
  | case4 c cs h₁ h₂ h₃ ih => simp only [fill, segments, fillSegments, ih]
  | case5 => rfl

theorem mem_of_plain_mem_segments {cs : List Char} {c : Char} (h : .plain c ∈ segments cs) :
    c ∈ cs := by
  induction cs using segments.induct with
  | case1 cs ih => simp [segments] at h; simp [ih h]
  | case2 cs ih => simp [segments] at h; simp [ih h]
  | case3 cs _ ih => simp_all [segments]
  | case4 d cs _ _ _ ih =>
    simp only [segments, List.mem_cons, Segment.plain.injEq] at h ⊢
    exact h.imp id ih
  | case5 => simp [segments] at h

/-- Behind a `?` no placeholder stands that starts with `?`. -/
def Segment.Apart (p q : Segment) : Prop :=
  p = .hole .literal → q ≠ .hole .literal ∧ q ≠ .hole .ident

theorem head?_segments {cs : List Char} (h : ∀ ds, cs ≠ '?' :: ds) :
    ∀ q ∈ (segments cs).head?, q ≠ .hole .literal ∧ q ≠ .hole .ident := by
  intro q hq
  cases cs using segments.fun_cases with
  | case1 cs => simp only [segments, List.head?_cons, Option.mem_some_iff] at hq; subst hq; decide
  | case2 cs => exact absurd rfl (h _)
  | case3 cs => exact absurd rfl (h _)
  | case4 c cs h₁ h₂ h₃ =>
    simp only [segments, List.head?_cons, Option.mem_some_iff] at hq
    subst hq
    exact ⟨Segment.noConfusion, Segment.noConfusion⟩
  | case5 => simp [segments] at hq

theorem segments_apart (cs : List Char) : (segments cs).IsChain Segment.Apart := by
  induction cs using segments.induct with
  | case1 cs ih =>
    simp only [segments]
    exact List.isChain_cons.mpr ⟨fun _ _ h => absurd h (by decide), ih⟩
  | case2 cs ih =>
    simp only [segments]
    exact List.isChain_cons.mpr ⟨fun _ _ h => absurd h (by decide), ih⟩
  | case3 cs h ih =>
    simp only [segments]
    exact List.isChain_cons.mpr ⟨fun q hq _ => head?_segments h q hq, ih⟩
  | case4 c cs h₁ h₂ h₃ ih =>
    simp only [segments]
    exact List.isChain_cons.mpr ⟨fun _ _ h => Segment.noConfusion h, ih⟩
  | case5 => exact .nil

end SqlBuilder.Template
