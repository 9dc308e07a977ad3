/-!
# Shortest decimals

The fewest decimal digits that read back as a given binary fraction `m * 2 ^ q`,
and of those the nearest. All comparisons are exact, in natural numbers.
-/
namespace SqlBuilder.Decimal

/-- Which of two equally near decimals wins. -/
inductive Tie where
  | up
  | even
  deriving DecidableEq, Repr

/-- The decimal `digits * 10 ^ exponent`. -/
structure Scaled where
  digits : Nat
  exponent : Int
  deriving DecidableEq, Repr

/-- A positive binary fraction `m * 2 ^ q`; `narrow` when the next one below is only
half as far away as the next one above. -/
structure Binary where
  m : Nat
  q : Int
  narrow : Bool
  deriving DecidableEq, Repr

namespace Binary

def power (base : Nat) (e : Int) : Nat × Nat := (Nat.pow base e.toNat, Nat.pow base (-e).toNat)

/-- The exponent of the leading decimal digit; 400 places reach below every fraction. -/
def leading (b : Binary) : Int :=
  let (a, d) := power 2 b.q
  Int.ofNat (Nat.toDigits 10 (b.m * a * Nat.pow 10 400 / d)).length - 401

/-- The better neighbour of `b` among the multiples of `10 ^ k`, if one reads back as `b`.
Everything is counted in quarters of `2 ^ q`, so that the halfway points are whole. -/
def onGrid (b : Binary) (tie : Tie) (k : Int) : Option Scaled :=
  let (ua, ub) := power 2 (b.q - 2)
  let (ta, tb) := power 10 k
  let unit := ua * tb
  let step := ta * ub
  let value := 4 * b.m * unit
  let low := (4 * b.m - if b.narrow then 1 else 2) * unit
  let high := (4 * b.m + 2) * unit
  let closed := b.m % 2 = 0
  let below := value / step
  let above := below + 1
  let belowFits := if closed then low ≤ below * step else low < below * step
  let aboveFits := if closed then above * step ≤ high else above * step < high
  let toBelow := value - below * step
  let toAbove := above * step - value
  if belowFits then
    if aboveFits && (toAbove < toBelow || toAbove = toBelow &&
        (tie = .up || below % 2 = 1)) then
      some ⟨above, k⟩
    else some ⟨below, k⟩
  else if aboveFits then some ⟨above, k⟩
  else none

/-- Seventeen digits always suffice, so the last grid is never passed. -/
def shortest (b : Binary) (tie : Tie) : Scaled :=
  let top := b.leading
  ((List.range 17).findSome? fun n => b.onGrid tie (top - Int.ofNat n)).getD ⟨0, 0⟩

end Binary

end SqlBuilder.Decimal
