/-!
# Blank characters

The Unicode blanks and trimming by them. Zero-width characters are not blank.
-/
namespace SqlBuilder.Text

/-- The code points with the Unicode property White_Space, as inclusive ranges. -/
def blankRanges : List (Nat × Nat) :=
  [(0x09, 0x0D), (0x20, 0x20), (0x85, 0x85), (0xA0, 0xA0), (0x1680, 0x1680),
   (0x2000, 0x200A), (0x2028, 0x2029), (0x202F, 0x202F), (0x205F, 0x205F), (0x3000, 0x3000)]

def isBlank (c : Char) : Bool :=
  blankRanges.any fun r => r.1 ≤ c.toNat && c.toNat ≤ r.2

def trimStart (cs : List Char) : List Char := cs.dropWhile isBlank

def trimEnd (cs : List Char) : List Char := (cs.reverse.dropWhile isBlank).reverse

def trim (cs : List Char) : List Char := trimEnd (trimStart cs)

def allBlank (cs : List Char) : Bool := cs.all isBlank

def trimmed (s : String) : String := String.ofList (trim s.toList)

def blank (s : String) : Bool := allBlank s.toList

theorem length_trimStart_le (cs : List Char) : (trimStart cs).length ≤ cs.length := by
  simpa [trimStart] using (List.dropWhile_sublist isBlank (l := cs)).length_le

theorem length_trimEnd_le (cs : List Char) : (trimEnd cs).length ≤ cs.length := by
  simpa [trimEnd] using (List.dropWhile_sublist isBlank (l := cs.reverse)).length_le

theorem length_trim_le (cs : List Char) : (trim cs).length ≤ cs.length :=
  Nat.le_trans (length_trimEnd_le _) (length_trimStart_le _)

end SqlBuilder.Text
