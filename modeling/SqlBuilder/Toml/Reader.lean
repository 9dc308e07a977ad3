import SqlBuilder.Toml.Text

/-!
# Reading TOML documents

Keys, values and headers over the characters of a document. A reader gives what follows
the thing it reads, or nothing when the document is malformed.
-/
namespace SqlBuilder.Toml

abbrev Input := List Char

def skipSpace (cs : Input) : Input := cs.dropWhile isSpace

def skipComment (cs : Input) : Option Input :=
  match cs with
  | '#' :: cs =>
    let rest := cs.dropWhile isPrintable
    if rest = [] || (lineBreak? rest).isSome then some rest else none
  | cs => some cs

/-- Blanks, comments and line breaks, in number at most the length of the input. -/
def skipLines : Nat → Input → Option Input
  | 0, cs => some cs
  | n + 1, cs => do
    let rest ← skipComment (skipSpace cs)
    match lineBreak? rest with
    | some rest => skipLines n rest
    | none => some rest

def skipBlank (cs : Input) : Option Input := skipLines cs.length cs

def endLine (cs : Input) : Option Input := do
  let rest ← skipComment (skipSpace cs)
  if rest = [] then some [] else lineBreak? rest

def isBareKey (c : Char) : Bool := c.isAlphanum || c = '_' || c = '-'

def keyPart (cs : Input) : Option (String × Input) :=
  match cs with
  | '"' :: '"' :: '"' :: _ => none
  | '\'' :: '\'' :: '\'' :: _ => none
  | '"' :: cs => (basicString cs).map fun r => (String.ofList r.1, r.2)
  | '\'' :: cs => (literalString cs).map fun r => (String.ofList r.1, r.2)
  | cs =>
    let name := cs.takeWhile isBareKey
    if name = [] then none else some (String.ofList name, cs.drop name.length)

def keyParts : Nat → Input → Option (List String × Input)
  | 0, _ => none
  | n + 1, cs => do
    let (name, rest) ← keyPart (skipSpace cs)
    match skipSpace rest with
    | '.' :: rest => do
      let (names, rest) ← keyParts n rest
      return (name :: names, rest)
    | rest => return ([name], rest)

structure Path where
  tables : List String
  name : String

/-- Keys have at most so many parts, and arrays and inline tables nest at most this deep. -/
def deepest : Nat := 80

def path (cs : Input) : Option (Path × Input) := do
  let (names, rest) ← keyParts deepest cs
  match names.getLast? with
  | some name => return (⟨names.dropLast, name⟩, rest)
  | none => none

def isScalarChar (c : Char) : Bool :=
  c.isAlphanum || c = '_' || c = '+' || c = '-' || c = '.' || c = ':'

/-- A scalar without quotes. A date and a time may have one space between them. -/
def scalarItem (cs : Input) : Option (Item × Input) :=
  let run := cs.takeWhile isScalarChar
  let rest := cs.drop run.length
  match rest with
  | ' ' :: c :: _ =>
    if isDate run && Decimal.isDigit c then
      let more := (rest.drop 1).takeWhile isScalarChar
      (scalar? (run ++ ' ' :: more)).map fun item => (item, rest.drop (1 + more.length))
    else (scalar? run).map fun item => (item, rest)
  | _ => (scalar? run).map fun item => (item, rest)

mutual

/-- A value with at most `depth` more levels inside it. Each step reads at least one
character, so `fuel` is never short when it starts as the length of the input. -/
def item : (fuel depth : Nat) → Input → Option (Item × Input)
  | 0, _, _ => none
  | fuel + 1, depth, cs =>
    match string? cs with
    | some content => content.map fun r => (.str (String.ofList r.1), r.2)
    | none => match cs, depth with
      | '[' :: _, 0 => none
      | '\x7b' :: _, 0 => none
      | '[' :: cs, depth + 1 => do
        let (items, rest) ← arrayItems fuel depth cs
        return (.arr false items, rest)
      | '\x7b' :: cs, depth + 1 => do
        let (table, rest) ← inlineMembers fuel depth ⟨.inline, []⟩ cs
        return (.ofTable table, rest)
      | cs, _ => scalarItem cs

def arrayItems : (fuel depth : Nat) → Input → Option (List Item × Input)
  | 0, _, _ => none
  | fuel + 1, depth, cs => do
    match ← skipBlank cs with
    | ']' :: rest => return ([], rest)
    | cs => do
      let (first, rest) ← item fuel depth cs
      match ← skipBlank rest with
      | ']' :: rest => return ([first], rest)
      | ',' :: rest => do
        let (items, rest) ← arrayItems fuel depth rest
        return (first :: items, rest)
      | _ => none

def inlineMembers : (fuel depth : Nat) → Item.Table → Input → Option (Item.Table × Input)
  | 0, _, _, _ => none
  | fuel + 1, depth, table, cs => do
    match ← skipBlank cs with
    | '\x7d' :: rest => return (table, rest)
    | cs => do
      let (path, rest) ← path cs
      match ← skipBlank rest with
      | '=' :: rest => do
        let (value, rest) ← item fuel depth (← skipBlank rest)
        let table ← Item.assign path.tables path.name value table
        match ← skipBlank rest with
        | '\x7d' :: rest => return (table, rest)
        | ',' :: rest => inlineMembers fuel depth table rest
        | _ => none
      | _ => none

end

/-- A document half read: its root, and the header that is open. -/
structure Document where
  root : Item.Table
  header : List String

namespace Document

def empty : Document := ⟨⟨.headed, []⟩, []⟩

def changeOpen (d : Document) (f : Item.Table → Option Item.Table) : Option Document :=
  (Item.change false f d.header d.root).map fun root => { d with root }

def headerPath (cs : Input) : Option (Path × Input) := do
  let (path, rest) ← path cs
  match rest with
  | ']' :: rest => return (path, rest)
  | _ => none

def readLine (d : Document) (cs : Input) : Option (Document × Input) :=
  match cs with
  | '[' :: '[' :: cs => do
    let (path, rest) ← headerPath cs
    let root ← Item.change false (Item.openElement path.name) path.tables d.root
    match rest with
    | ']' :: rest => return (⟨root, path.tables ++ [path.name]⟩, rest)
    | _ => none
  | '[' :: cs => do
    let (path, rest) ← headerPath cs
    let root ← Item.change false (Item.openTable path.name) path.tables d.root
    return (⟨root, path.tables ++ [path.name]⟩, rest)
  | cs => do
    let (path, rest) ← path cs
    match rest with
    | '=' :: rest => do
      let (value, rest) ← item (cs.length + 1) deepest (skipSpace rest)
      return (← d.changeOpen (Item.assign path.tables path.name value), rest)
    | _ => none

/-- The lines of a document, in number at most the length of the input. -/
def readLines : Nat → Document → Input → Option Document
  | 0, d, _ => some d
  | n + 1, d, cs => do
    match ← skipBlank cs with
    | [] => some d
    | cs => do
      let (d, rest) ← d.readLine cs
      readLines n d (← endLine rest)

/-- The members of a document. A byte order mark may come first. -/
def read (text : String) : Option Members :=
  let cs := match text.toList with
    | '\uFEFF' :: cs => cs
    | cs => cs
  (readLines (cs.length + 1) empty cs).map fun d => d.root.members

end Document

end SqlBuilder.Toml
