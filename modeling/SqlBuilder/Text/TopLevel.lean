/-!
# Top-level splitting

A separator counts only outside quotes and parentheses. A quote ends at the next
same character, so a doubled quote closes and reopens; the depth may go negative.
-/
namespace SqlBuilder.Text

/-- Where a scan stands: inside which quote, and how many parentheses deep. -/
structure Scan where
  quote : Option Char
  depth : Int
  deriving DecidableEq, Repr

namespace Scan

def start : Scan := ⟨none, 0⟩

def isQuote (c : Char) : Bool := c = '\'' || c = '"' || c = '\x60'

def next (s : Scan) (c : Char) : Scan :=
  match s.quote with
  | some q => if c = q then { s with quote := none } else s
  | none =>
    if isQuote c then { s with quote := some c }
    else if c = '(' then { s with depth := s.depth + 1 }
    else if c = ')' then { s with depth := s.depth - 1 }
    else s

def atTop (s : Scan) : Bool := s.quote = none && s.depth = 0

def after (s : Scan) (cs : List Char) : Scan := cs.foldl next s

end Scan

def consPiece (c : Char) : List (List Char) → List (List Char)
  | [] => [[c]]
  | p :: ps => (c :: p) :: ps

def splitFrom (sep : Char) (s : Scan) : List Char → List (List Char)
  | [] => [[]]
  | c :: cs =>
    if s.atTop && c = sep then [] :: splitFrom sep s cs
    else consPiece c (splitFrom sep (s.next c) cs)

/-- The pieces of a text between the separators at its top level; never empty. -/
def splitTop (sep : Char) (cs : List Char) : List (List Char) := splitFrom sep .start cs

theorem length_splitFrom_pos (sep : Char) (s : Scan) (cs : List Char) :
    0 < (splitFrom sep s cs).length := by
  induction cs generalizing s with
  | nil => simp [splitFrom]
  | cons c cs ih =>
    simp only [splitFrom]
    split
    · simp
    · cases h : splitFrom sep (s.next c) cs <;> simp [consPiece]

theorem length_of_mem_splitFrom {sep : Char} {s : Scan} {cs p : List Char}
    (h : p ∈ splitFrom sep s cs) :
    p.length + (splitFrom sep s cs).length ≤ cs.length + 1 := by
  induction cs generalizing s p with
  | nil => simp_all [splitFrom]
  | cons c cs ih =>
    simp only [splitFrom] at h ⊢
    split at h
    · rename_i hc
      simp only [hc, ↓reduceIte, List.length_cons]
      rcases List.mem_cons.mp h with rfl | h
      · have := length_splitFrom_pos sep s cs
        cases hp : splitFrom sep s cs with
        | nil => simp [hp] at this
        | cons q qs => have := ih (s := s) (p := q) (by simp [hp]); simp [hp] at this ⊢; omega
      · have := ih h; omega
    · rename_i hc
      simp only [hc, List.length_cons]
      cases hp : splitFrom sep (s.next c) cs with
      | nil => exact absurd (length_splitFrom_pos sep (s.next c) cs) (by simp [hp])
      | cons q qs =>
        rw [hp] at h
        simp only [consPiece, List.mem_cons] at h
        rcases h with rfl | h
        · have := ih (s := s.next c) (p := q) (by simp [hp])
          simp [hp, consPiece] at this ⊢; omega
        · have := ih (s := s.next c) (p := p) (by simp [hp, h])
          simp [hp, consPiece] at this ⊢; omega

theorem length_of_mem_splitTop {sep : Char} {cs p : List Char} (h : p ∈ splitTop sep cs) :
    p.length + (splitTop sep cs).length ≤ cs.length + 1 :=
  length_of_mem_splitFrom h

end SqlBuilder.Text
