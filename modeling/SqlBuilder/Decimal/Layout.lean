import SqlBuilder.Decimal.Shortest

/-!
# Written decimals

The text of a double: its shortest digits, laid out positionally or with an exponent.
-/
namespace SqlBuilder.Decimal

/-- The decisions of one written form. -/
structure Layout where
  /-- The leading exponents written positionally; every one when absent. -/
  positional : Option (Int × Int)
  /-- Whole numbers end in a point and a zero. -/
  pointed : Bool
  /-- Positive exponents carry a sign. -/
  signed : Bool
  tie : Tie
  deriving DecidableEq, Repr

def Layout.plain : Layout := ⟨none, false, false, .up⟩

def Layout.shown : Layout := ⟨some (-4, 15), true, false, .up⟩

def Layout.document : Layout := ⟨some (-5, 15), true, true, .even⟩

def signBit (x : Float) : Bool := x.toBits >>> 63 = 1

def exponentField (x : Float) : Nat := (x.toBits >>> 52).toNat % 2048

def fractionField (x : Float) : Nat := x.toBits.toNat % Nat.pow 2 52

def isFinite (x : Float) : Bool := exponentField x < 2047

def magnitude (x : Float) : Binary :=
  let e := exponentField x
  let f := fractionField x
  if e = 0 then ⟨f, -1074, false⟩
  else ⟨f + Nat.pow 2 52, Int.ofNat e - 1075, f = 0 && 1 < e⟩

/-- The digits without the zeros at their end, and how many those were. -/
def significant (s : Scaled) : List Char × Int :=
  let ds := Nat.toDigits 10 s.digits
  let kept := (ds.reverse.dropWhile (· = '0')).reverse
  (kept, s.exponent + Int.ofNat (ds.length - kept.length))

def zeros (n : Nat) : List Char := List.replicate n '0'

def positionalText (pointed : Bool) (ds : List Char) (exponent : Int) : List Char :=
  let whole := Int.ofNat ds.length + exponent
  if whole ≤ 0 then '0' :: '.' :: zeros (-whole).toNat ++ ds
  else if 0 ≤ exponent then
    ds ++ zeros exponent.toNat ++ if pointed then ['.', '0'] else []
  else ds.take whole.toNat ++ '.' :: ds.drop whole.toNat

def exponentText (signed : Bool) (ds : List Char) (leading : Int) : List Char :=
  let mantissa := match ds with
    | d :: e :: es => d :: '.' :: e :: es
    | ds => ds
  let mark := if leading < 0 then ['-'] else if signed then ['+'] else []
  mantissa ++ 'e' :: mark ++ Nat.toDigits 10 leading.natAbs

namespace Layout

def magnitudeText (l : Layout) (b : Binary) : List Char :=
  let (ds, exponent) := significant (b.shortest l.tie)
  let leading := Int.ofNat ds.length + exponent - 1
  let inside := match l.positional with
    | none => true
    | some (least, greatest) => least ≤ leading && leading ≤ greatest
  if inside then positionalText l.pointed ds exponent
  else exponentText l.signed ds leading

/-- The written form of a double; a NaN has no sign. -/
def text (l : Layout) (x : Float) : String :=
  let sign := if signBit x then ['-'] else []
  if isFinite x then
    if exponentField x = 0 && fractionField x = 0 then
      String.ofList (sign ++ '0' :: if l.pointed then ['.', '0'] else [])
    else String.ofList (sign ++ l.magnitudeText (magnitude x))
  else if fractionField x = 0 then String.ofList (sign ++ ['i', 'n', 'f'])
  else "NaN"

end Layout

end SqlBuilder.Decimal
