import SqlBuilder.Decimal.Shortest

/-!
# Read decimals

Decimal text to the nearest double: an optional sign, digits with at most one point,
an optional exponent, or one of the words for infinity and NaN.
-/
namespace SqlBuilder.Decimal

def isDigit (c : Char) : Bool := '0' ≤ c && c ≤ '9'

def digitValue (c : Char) : Nat := c.toNat - 48

def digitsValue (ds : List Char) : Nat := ds.foldl (fun n c => 10 * n + digitValue c) 0

/-- Digits alone, at least one of them. -/
def readNat? (cs : List Char) : Option Nat :=
  if cs ≠ [] && cs.all isDigit then some (digitsValue cs) else none

def readInt? : List Char → Option Int
  | '-' :: cs => (readNat? cs).map fun n => -Int.ofNat n
  | '+' :: cs => (readNat? cs).map Int.ofNat
  | cs => (readNat? cs).map Int.ofNat

def infinity : Float := 1.0 / 0.0

def notANumber : Float := 0.0 / 0.0

namespace Scaled

/-- The exponent one above that of the leading digit. -/
def height (s : Scaled) : Int := Int.ofNat (Nat.toDigits 10 s.digits).length + s.exponent

/-- The nearest double. Far beyond either end of the range no arithmetic is needed. -/
def toFloat (s : Scaled) : Float :=
  if s.digits = 0 || s.height < -330 then 0.0
  else if 310 < s.height then infinity
  else Float.ofScientific s.digits (s.exponent < 0) s.exponent.natAbs

/-- The nearest single, widened. -/
def toSingle (s : Scaled) : Float :=
  if s.digits = 0 || s.height < -60 then 0.0
  else if 40 < s.height then infinity
  else (Float32.ofScientific s.digits (s.exponent < 0) s.exponent.natAbs).toFloat

end Scaled

/-- An unsigned decimal: digits, a point and more digits, an exponent. -/
def readScaled? (cs : List Char) : Option Scaled :=
  let whole := cs.takeWhile isDigit
  let rest := cs.dropWhile isDigit
  let (places, rest) := match rest with
    | '.' :: r => (r.takeWhile isDigit, r.dropWhile isDigit)
    | r => ([], r)
  let scaled (e : Int) : Scaled :=
    ⟨digitsValue (whole ++ places), e - Int.ofNat places.length⟩
  if whole = [] && places = [] then none
  else match rest with
    | [] => some (scaled 0)
    | c :: r => if c = 'e' || c = 'E' then (readInt? r).map scaled else none

def isWord (word : String) (cs : List Char) : Bool := cs.map Char.toLower = word.toList

def readUnsigned? (finish : Scaled → Float) (cs : List Char) : Option Float :=
  if isWord "inf" cs || isWord "infinity" cs then some infinity
  else if isWord "nan" cs then some notANumber
  else (readScaled? cs).map finish

def readFloat? (finish : Scaled → Float) (text : String) : Option Float :=
  match text.toList with
  | '-' :: cs => (readUnsigned? finish cs).map fun x => -x
  | '+' :: cs => readUnsigned? finish cs
  | cs => readUnsigned? finish cs

def ofText? (text : String) : Option Float := readFloat? Scaled.toFloat text

def singleOfText? (text : String) : Option Float := readFloat? Scaled.toSingle text

end SqlBuilder.Decimal
