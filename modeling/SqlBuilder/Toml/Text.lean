import SqlBuilder.Toml.Scalar

/-!
# TOML strings

Basic and literal strings, on one line or on several. Each reader takes what follows the
opening quotes and gives the content with what follows the closing ones.
-/
namespace SqlBuilder.Toml

def isPrintable (c : Char) : Bool := c = '\t' || 32 ≤ c.toNat && c.toNat ≠ 127

def isSpace (c : Char) : Bool := c = ' ' || c = '\t'

def isValidCode (n : Nat) : Bool := n < 0xD800 || 0xDFFF < n && n < 0x110000

/-- The character with a code of exactly `width` hexadecimal digits. -/
def codedChar (width : Nat) (cs : List Char) : Option (Char × List Char) :=
  let ds := cs.take width
  if ds.length = width && ds.all (digitIn 16) && isValidCode (valueIn 16 ds) then
    some (Char.ofNat (valueIn 16 ds), cs.drop width)
  else none

/-- What an escape stands for, after its backslash. -/
def escapedChar : List Char → Option (Char × List Char)
  | 'b' :: cs => some ('\x08', cs)
  | 't' :: cs => some ('\t', cs)
  | 'n' :: cs => some ('\n', cs)
  | 'f' :: cs => some ('\x0c', cs)
  | 'r' :: cs => some ('\r', cs)
  | 'e' :: cs => some ('\x1b', cs)
  | '"' :: cs => some ('"', cs)
  | '\\' :: cs => some ('\\', cs)
  | 'x' :: cs => codedChar 2 cs
  | 'u' :: cs => codedChar 4 cs
  | 'U' :: cs => codedChar 8 cs
  | _ => none

theorem length_of_codedChar {width : Nat} {cs : List Char} {c : Char} {rest : List Char}
    (h : codedChar width cs = some (c, rest)) : rest.length ≤ cs.length := by
  simp only [codedChar] at h
  split at h
  · simp only [Option.some.injEq, Prod.mk.injEq] at h
    rw [← h.2]
    simp
  · simp at h

theorem length_of_escapedChar {cs : List Char} {c : Char} {rest : List Char}
    (h : escapedChar cs = some (c, rest)) : rest.length ≤ cs.length := by
  unfold escapedChar at h
  split at h <;>
    first
    | exact Nat.le_succ_of_le (length_of_codedChar h)
    | (simp only [Option.some.injEq, Prod.mk.injEq] at h; rw [← h.2]; simp)
    | simp at h

def onFirst (c : Char) (r : List Char × List Char) : List Char × List Char := (c :: r.1, r.2)

def basicString (cs : List Char) : Option (List Char × List Char) :=
  match cs with
  | [] => none
  | c :: cs =>
    if c = '"' then some ([], cs)
    else if c = '\\' then
      match _h : escapedChar cs with
      | none => none
      | some (x, rest) => (basicString rest).map (onFirst x)
    else if isPrintable c then (basicString cs).map (onFirst c)
    else none
termination_by cs.length
decreasing_by
  · have := length_of_escapedChar _h
    simp
    omega
  · simp

def literalString : List Char → Option (List Char × List Char)
  | [] => none
  | c :: cs =>
    if c = '\'' then some ([], cs)
    else if isPrintable c then (literalString cs).map (onFirst c)
    else none

/-- What follows a line break, if there is one here. -/
def lineBreak? : List Char → Option (List Char)
  | '\n' :: cs => some cs
  | '\r' :: '\n' :: cs => some cs
  | _ => none

theorem length_of_lineBreak {cs rest : List Char} (h : lineBreak? cs = some rest) :
    rest.length < cs.length := by
  unfold lineBreak? at h
  split at h <;> simp at h <;> rw [← h] <;> simp only [List.length_cons] <;> omega

/-- The three quotes that end a string on several lines, with up to two more before them
that belong to it. -/
def closing (quote : Char) (cs : List Char) : Option (List Char × List Char) :=
  let run := cs.takeWhile (· = quote)
  if run.length < 3 then none
  else if 5 < run.length then none
  else some (run.drop 3, cs.drop run.length)

def isGap (c : Char) : Bool := isSpace c || c = '\n' || c = '\r'

/-- What follows a backslash at the end of a line: all blanks and line breaks go. -/
def lineEnd? (cs : List Char) : Option (List Char) :=
  match lineBreak? (cs.dropWhile isSpace) with
  | none => none
  | some rest =>
    let gap := rest.takeWhile isGap
    if (gap.zip (gap.drop 1 ++ [' '])).all fun (c, d) => c ≠ '\r' || d = '\n' then
      some (rest.dropWhile isGap)
    else none

theorem length_of_lineEnd {cs rest : List Char} (h : lineEnd? cs = some rest) :
    rest.length ≤ cs.length := by
  have h₁ : (cs.dropWhile isSpace).length ≤ cs.length := (List.dropWhile_sublist _).length_le
  unfold lineEnd? at h
  split at h
  · simp at h
  · rename_i r hr
    have h₂ := length_of_lineBreak hr
    have h₃ : (r.dropWhile isGap).length ≤ r.length := (List.dropWhile_sublist _).length_le
    simp only at h
    split at h
    · simp only [Option.some.injEq] at h
      rw [← h]
      omega
    · simp at h

def lineBreakText : List Char → List Char
  | '\r' :: _ => ['\r', '\n']
  | _ => ['\n']

/-- The content of a string on several lines; `escapes` tells a basic from a literal one.
Line breaks are kept as they are written. -/
def longString (escapes : Bool) (quote : Char) (cs : List Char) :
    Option (List Char × List Char) :=
  match cs with
  | [] => none
  | c :: tail =>
    if c = quote && tail.take 2 = [quote, quote] then closing quote (c :: tail)
    else if c = '\\' && escapes then
      match _hl : lineEnd? tail with
      | some rest => longString escapes quote rest
      | none =>
        match _he : escapedChar tail with
        | none => none
        | some (x, rest) => (longString escapes quote rest).map (onFirst x)
    else
      match _hb : lineBreak? (c :: tail) with
      | some rest =>
        (longString escapes quote rest).map fun r => (lineBreakText (c :: tail) ++ r.1, r.2)
      | none =>
        if isPrintable c then (longString escapes quote tail).map (onFirst c) else none
termination_by cs.length
decreasing_by
  · have := length_of_lineEnd _hl
    simp
    omega
  · have := length_of_escapedChar _he
    simp
    omega
  · exact length_of_lineBreak _hb
  · simp

/-- A line break right after the opening quotes is not part of the string. -/
def afterOpening (cs : List Char) : List Char := (lineBreak? cs).getD cs

/-- A string of any of the four forms, if one starts here. -/
def string? (cs : List Char) : Option (Option (List Char × List Char)) :=
  match cs with
  | '"' :: '"' :: '"' :: cs => some (longString true '"' (afterOpening cs))
  | '\'' :: '\'' :: '\'' :: cs => some (longString false '\'' (afterOpening cs))
  | '"' :: cs => some (basicString cs)
  | '\'' :: cs => some (literalString cs)
  | _ => none

end SqlBuilder.Toml
