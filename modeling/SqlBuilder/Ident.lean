import SqlBuilder.Text.Blank

/-!
# Identifiers

A dotted name of a schema, table or column. A segment is quoted with `"` or a
backtick, with that quote doubled inside, or unquoted and trimmed; an unquoted `*`
is a wildcard and comes last.
-/
namespace SqlBuilder

inductive Ident.Part where
  | name (text : String)
  | wildcard
  deriving DecidableEq, Repr

structure Ident where
  parts : List Ident.Part
  deriving DecidableEq, Repr

namespace Ident

/-- Why a text is no identifier; `whole` is the trimmed text. -/
inductive Fault where
  | empty
  | containsNul
  | trailingDot (whole : String)
  | missingDot (whole : String) (found : Char)
  | wildcardNotLast (whole : String)
  | unclosedQuote (whole : String)
  | emptyQuoted (whole : String)
  | emptySegment (whole : String)
  deriving DecidableEq, Repr

def Fault.message : Fault → String
  | .empty => "identifier cannot be empty"
  | .containsNul => "identifier cannot contain NUL character"
  | .trailingDot s => s!"trailing '.' in identifier '{s}'"
  | .missingDot s c => s!"expected '.' between identifier parts of '{s}', got '{c}'"
  | .wildcardNotLast s => s!"'*' must be the last part of '{s}'"
  | .unclosedQuote s => s!"unclosed quoted identifier in '{s}'"
  | .emptyQuoted s => s!"empty quoted identifier in '{s}'"
  | .emptySegment s => s!"empty identifier segment in '{s}'"

def doubled (quote : Char) (cs : List Char) : List Char :=
  cs.flatMap fun c => if c = quote then [c, c] else [c]

def quotedName (quote : Char) (name : String) : String :=
  String.ofList (quote :: doubled quote name.toList ++ [quote])

def Part.toSql (quote : Char) : Part → String
  | .name text => quotedName quote text
  | .wildcard => "*"

def toSql (quote : Char) (i : Ident) : String :=
  ".".intercalate (i.parts.map (Part.toSql quote))

/-- The content of a quoted segment after its opening quote, and what follows the
closing one; nothing when the quote never closes. -/
def readQuoted (quote : Char) : List Char → Option (List Char × List Char)
  | [] => none
  | c :: cs =>
    if c = quote then
      match cs with
      | [] => some ([], [])
      | d :: ds =>
        if d = quote then (readQuoted quote ds).map fun (name, rest) => (quote :: name, rest)
        else some ([], d :: ds)
    else (readQuoted quote cs).map fun (name, rest) => (c :: name, rest)

def readName (whole : String) (quote : Char) (cs : List Char) :
    Except Fault (Part × List Char) :=
  match readQuoted quote cs with
  | none => .error (.unclosedQuote whole)
  | some ([], _) => .error (.emptyQuoted whole)
  | some (name, rest) => .ok (.name (String.ofList name), rest)

def readUnquoted (whole : String) (cs : List Char) : Except Fault (Part × List Char) :=
  let name := Text.trim (cs.takeWhile (· ≠ '.'))
  let rest := cs.dropWhile (· ≠ '.')
  if name = [] then .error (.emptySegment whole)
  else if name = ['*'] then .ok (.wildcard, rest)
  else .ok (.name (String.ofList name), rest)

def readSegment (whole : String) (cs : List Char) : Except Fault (Part × List Char) :=
  match cs with
  | '"' :: cs => readName whole '"' cs
  | '\x60' :: cs => readName whole '\x60' cs
  | cs => readUnquoted whole cs

theorem length_of_readQuoted {q : Char} {cs : List Char} {name rest : List Char}
    (h : readQuoted q cs = some (name, rest)) : rest.length < cs.length := by
  fun_induction readQuoted q cs generalizing name rest with
  | case1 => simp at h
  | case2 => simp at h; simp [← h.2]
  | case3 ds ih =>
    obtain ⟨⟨n, r⟩, hr, he⟩ := Option.map_eq_some_iff.mp h
    have := ih hr
    simp only [Prod.mk.injEq] at he
    simp only [List.length_cons, ← he.2]
    omega
  | case4 => simp at h; simp [← h.2]
  | case5 c cs _ ih =>
    obtain ⟨⟨n, r⟩, hr, he⟩ := Option.map_eq_some_iff.mp h
    have := ih hr
    simp only [Prod.mk.injEq] at he
    simp only [List.length_cons, ← he.2]
    omega

theorem length_of_readName {whole : String} {q : Char} {cs : List Char} {p : Part}
    {rest : List Char} (h : readName whole q cs = .ok (p, rest)) : rest.length < cs.length := by
  unfold readName at h
  split at h
  · simp at h
  · simp at h
  · rename_i hq
    simp at h
    exact h.2 ▸ length_of_readQuoted hq

theorem length_of_readUnquoted {whole : String} {cs : List Char} {p : Part}
    {rest : List Char} (h : readUnquoted whole cs = .ok (p, rest)) :
    rest.length ≤ cs.length := by
  have hd : (cs.dropWhile (· ≠ '.')).length ≤ cs.length :=
    (List.dropWhile_sublist _).length_le
  simp only [readUnquoted] at h
  split at h
  · simp at h
  · split at h <;> (simp at h; rw [← h.2]; simpa using hd)

theorem length_of_readSegment {whole : String} {cs : List Char} {p : Part}
    {rest : List Char} (h : readSegment whole cs = .ok (p, rest)) :
    rest.length ≤ cs.length := by
  unfold readSegment at h
  split at h
  · have := length_of_readName h; simp; omega
  · have := length_of_readName h; simp; omega
  · exact length_of_readUnquoted h

/-- The segments of a text, with single dots between them. -/
def readSegments (whole : String) (cs : List Char) : Except Fault (List Part) :=
  match _h : readSegment whole cs with
  | .error e => .error e
  | .ok (p, []) => .ok [p]
  | .ok (p, c :: rest) =>
    if c ≠ '.' then .error (.missingDot whole c)
    else if rest = [] then .error (.trailingDot whole)
    else if p = .wildcard then .error (.wildcardNotLast whole)
    else (readSegments whole rest).map (p :: ·)
termination_by cs.length
decreasing_by
  have := length_of_readSegment _h
  simp at this
  omega

def parse (text : String) : Except Fault Ident :=
  let whole := Text.trimmed text
  if whole = "" then .error .empty
  else if '\x00' ∈ whole.toList then .error .containsNul
  else (readSegments whole whole.toList).map Ident.mk

end Ident

end SqlBuilder
