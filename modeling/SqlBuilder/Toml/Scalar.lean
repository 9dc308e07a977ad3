import SqlBuilder.Toml.Item
import SqlBuilder.Decimal.Reader
import SqlBuilder.Decimal.Layout

/-!
# TOML scalars without quotes

Truth values, integers in four bases, numbers with a point or an exponent, and moments.
-/
namespace SqlBuilder.Toml

open Decimal (isDigit)

/-- Digits with single underscores between them; gives the digits alone. -/
def groupedDigits (isDigit : Char → Bool) (cs : List Char) : Option (List Char) :=
  let groups := cs.splitOn '_'
  if groups.all fun g => g ≠ [] && g.all isDigit then some groups.flatten else none

def digitIn (base : Nat) (c : Char) : Bool :=
  isDigit c && c.toNat - 48 < base || base = 16 && ('a' ≤ c && c ≤ 'f' || 'A' ≤ c && c ≤ 'F')

def hexValue (c : Char) : Nat :=
  if isDigit c then c.toNat - 48 else if 'a' ≤ c then c.toNat - 87 else c.toNat - 55

def valueIn (base : Nat) (ds : List Char) : Nat :=
  ds.foldl (fun n c => base * n + hexValue c) 0

def unsigned : List Char → Bool × List Char
  | '-' :: cs => (true, cs)
  | '+' :: cs => (false, cs)
  | cs => (false, cs)

/-- Decimal digits without a needless zero in front. -/
def plainDigits (cs : List Char) : Option (List Char) :=
  (groupedDigits isDigit cs).bind fun ds =>
    if ds.head? = some '0' && cs.length ≠ 1 then none else some ds

/-- An integer of at most 128 bits. -/
def integer? (cs : List Char) : Option Int := do
  let n ← match cs with
    | '0' :: 'x' :: ds => (groupedDigits (digitIn 16) ds).map fun ds => Int.ofNat (valueIn 16 ds)
    | '0' :: 'o' :: ds => (groupedDigits (digitIn 8) ds).map fun ds => Int.ofNat (valueIn 8 ds)
    | '0' :: 'b' :: ds => (groupedDigits (digitIn 2) ds).map fun ds => Int.ofNat (valueIn 2 ds)
    | cs =>
      let (negative, ds) := unsigned cs
      (plainDigits ds).map fun ds =>
        if negative then -Int.ofNat (valueIn 10 ds) else Int.ofNat (valueIn 10 ds)
  if -Int.ofNat (Nat.pow 2 127) ≤ n && n < Int.ofNat (Nat.pow 2 128) then some n else none

def isExponentMark (c : Char) : Bool := c = 'e' || c = 'E'

/-- A number with a point or an exponent that does not exceed the doubles. -/
def isFloat (cs : List Char) : Bool :=
  let (_, body) := unsigned cs
  if body = ['i', 'n', 'f'] || body = ['n', 'a', 'n'] then true
  else
    let mantissa := body.takeWhile fun c => !isExponentMark c
    let whole := mantissa.takeWhile (· ≠ '.')
    let digits? := match mantissa.drop whole.length, body.drop mantissa.length with
      | [], [] => none
      | point, exponent => do
        let whole ← plainDigits whole
        let places ← match point with
          | [] => some []
          | _ :: places => groupedDigits isDigit places
        let power ← match exponent with
          | [] => some []
          | _ :: power => groupedDigits isDigit (unsigned power).2
        let sign := if exponent.drop 1 |>.head? |> (· = some '-') then ['-'] else []
        let mark := if exponent.isEmpty then [] else 'e' :: sign ++ power
        return whole ++ '.' :: places ++ mark
    match digits? with
    | none => false
    | some text => match Decimal.readScaled? text with
      | some x => Decimal.isFinite x.toFloat
      | none => false

/-- The number of a run of exactly `width` digits. -/
def fixedNumber (width : Nat) (cs : List Char) : Option Nat :=
  if cs.length = width then Decimal.readNat? cs else none

def daysIn (year month : Nat) : Nat :=
  if month = 2 then
    if year % 4 = 0 && (year % 100 ≠ 0 || year % 400 = 0) then 29 else 28
  else if month = 4 || month = 6 || month = 9 || month = 11 then 30
  else 31

def isDate (cs : List Char) : Bool :=
  match cs.splitOn '-' with
  | [y, m, d] =>
    match fixedNumber 4 y, fixedNumber 2 m, fixedNumber 2 d with
    | some year, some month, some day =>
      1 ≤ month && month ≤ 12 && 1 ≤ day && day ≤ daysIn year month
    | _, _, _ => false
  | _ => false

def isNumberUpTo (most : Nat) (cs : List Char) : Bool :=
  match fixedNumber 2 cs with
  | some n => n ≤ most
  | none => false

def isSecond (cs : List Char) : Bool :=
  match cs.splitOn '.' with
  | [s] => isNumberUpTo 60 s
  | [s, places] => isNumberUpTo 60 s && places ≠ [] && places.all isDigit
  | _ => false

/-- Hours and minutes; seconds may be left out. -/
def isTime (cs : List Char) : Bool :=
  match cs.splitOn ':' with
  | [h, m] => isNumberUpTo 23 h && isNumberUpTo 59 m
  | [h, m, s] => isNumberUpTo 23 h && isNumberUpTo 59 m && isSecond s
  | _ => false

def isOffset (cs : List Char) : Bool :=
  match cs with
  | [] => true
  | [c] => c = 'Z' || c = 'z'
  | c :: cs =>
    (c = '+' || c = '-') && match cs.splitOn ':' with
      | [h, m] => isNumberUpTo 23 h && isNumberUpTo 59 m
      | _ => false

/-- A date, a time, or both with an optional offset. -/
def isMoment (cs : List Char) : Bool :=
  let date := cs.take 10
  match cs.drop 10 with
  | [] => isDate cs || isTime cs
  | mark :: rest =>
    let time := rest.takeWhile fun c => isDigit c || c = ':' || c = '.'
    isTime cs || isDate date && (mark = 'T' || mark = 't' || mark = ' ') && isTime time
      && isOffset (rest.drop time.length)

def scalar? (cs : List Char) : Option Item :=
  if cs = "true".toList then some (.bool true)
  else if cs = "false".toList then some (.bool false)
  else match integer? cs with
    | some n => some (.int n)
    | none =>
      if isFloat cs then some .float
      else if isMoment cs then some .moment
      else none

end SqlBuilder.Toml
