import SqlBuilder.Text.Invisible

/-!
# Quoted text

A text between double quotes in which every character is visible: the usual short
escapes, and code points in hexadecimal for what has no visible form of its own.
-/
namespace SqlBuilder.Text

/-- A code point in lower-case hexadecimal between braces. -/
def codePoint (c : Char) : List Char :=
  ['\\', 'u', '\x7b'] ++ Nat.toDigits 16 c.toNat ++ ['\x7d']

def visibleChar (c : Char) : List Char :=
  if c = '"' then ['\\', '"']
  else if c = '\\' then ['\\', '\\']
  else if c = '\n' then ['\\', 'n']
  else if c = '\t' then ['\\', 't']
  else if c = '\r' then ['\\', 'r']
  else if c = '\x00' then ['\\', '0']
  else if isInvisible c then codePoint c
  else [c]

def quoted (s : String) : String :=
  String.ofList ('"' :: s.toList.flatMap visibleChar ++ ['"'])

end SqlBuilder.Text
