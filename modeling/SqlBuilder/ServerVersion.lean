import SqlBuilder.Text.Blank
import SqlBuilder.Decimal.Reader

/-!
# Server versions

Three numbers, read from the head of what a server reports about itself.
-/
namespace SqlBuilder

structure ServerVersion where
  major : UInt32
  minor : UInt32
  patch : UInt32
  deriving DecidableEq, Repr

namespace ServerVersion

def text (v : ServerVersion) : String :=
  s!"{v.major.toNat}.{v.minor.toNat}.{v.patch.toNat}"

def order (a b : ServerVersion) : Ordering :=
  (compare a.major b.major).then
    ((compare a.minor b.minor).then (compare a.patch b.patch))

def atLeast (v least : ServerVersion) : Bool := (v.order least).isGE

def readNumber? (cs : List Char) : Option UInt32 :=
  (Decimal.readNat? cs).bind fun n => if n < UInt32.size then some (UInt32.ofNat n) else none

/-- The digit runs at the head of a text, which dots separate. -/
def numbers (text : String) : List (List Char) :=
  let head := (Text.trim text.toList).takeWhile fun c => Decimal.isDigit c || c = '.'
  (head.splitOn '.').filter (· ≠ [])

/-- The first number has to be there and to fit; later ones count as zero otherwise. -/
def parse? (text : String) : Option ServerVersion :=
  let later (run : Option (List Char)) : UInt32 := (run.bind readNumber?).getD 0
  match numbers text with
  | [] => none
  | run :: runs =>
    (readNumber? run).map fun major => ⟨major, later runs[0]?, later runs[1]?⟩

end ServerVersion

end SqlBuilder
