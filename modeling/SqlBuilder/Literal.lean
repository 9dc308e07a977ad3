import SqlBuilder.Error

/-!
# Literals

How an engine writes a value or an identifier. Quoted text closes only at its own
last quote, whatever the text holds.
-/
namespace SqlBuilder

namespace Engine

def mysqlChar (c : Char) : List Char :=
  if c = '\x00' then ['\\', '0']
  else if c = '\x08' then ['\\', 'b']
  else if c = '\t' then ['\\', 't']
  else if c = '\n' then ['\\', 'n']
  else if c = '\r' then ['\\', 'r']
  else if c = '\x1a' then ['\\', 'Z']
  else if c = '"' then ['\\', '"']
  else if c = '\'' then ['\\', '\'']
  else if c = '\\' then ['\\', '\\']
  else [c]

def postgresChar (c : Char) : List Char :=
  if c = '\'' then ['\'', '\'']
  else if c = '\\' then ['\\', '\\']
  else [c]

/-- A string literal. PostgreSQL takes backslashes as escapes only after an `E`. -/
def quoteChars (e : Engine) (cs : List Char) : List Char :=
  match e with
  | .mysql => '\'' :: cs.flatMap mysqlChar ++ ['\'']
  | .postgres =>
    let body := '\'' :: cs.flatMap postgresChar ++ ['\'']
    if '\\' ∈ cs then 'E' :: body else body

def quoteText (e : Engine) (text : String) : String := String.ofList (e.quoteChars text.toList)

def boolText (e : Engine) (b : Bool) : String :=
  match e, b with
  | .mysql, true => "true"
  | .mysql, false => "false"
  | .postgres, true => "TRUE"
  | .postgres, false => "FALSE"

def escapeScalar (e : Engine) : Value → Outcome String
  | .null => .ok "NULL"
  | .bool b => .ok (e.boolText b)
  | .int n => .ok (toString n)
  | .float x =>
    if Decimal.isFinite x then .ok (Decimal.Layout.plain.text x)
    else .error (.shape (.notFinite x))
  | .text s => .ok (e.quoteText s)
  | v => .error (.shape (.notScalar v))

def commaJoined (texts : List String) : String := ", ".intercalate texts

def escapeList (e : Engine) (items : List Value) : Outcome String :=
  (items.mapM e.escapeScalar).map commaJoined

def quoteIdent (e : Engine) (name : String) : Outcome String :=
  match Ident.parse name with
  | .ok ident => .ok (ident.toSql e.identQuote)
  | .error fault => .error (.shape (.ident fault))

def quoteIdents (e : Engine) (names : List String) : Outcome (List String) :=
  names.mapM e.quoteIdent

def escape (e : Engine) : Value → Outcome String
  | .list items => e.escapeList items
  | .ident name => e.quoteIdent name
  | .raw sql => .ok sql
  | v => e.escapeScalar v

/-- A full-text predicate over columns that are written already. -/
def fulltext (e : Engine) (columns : List String) (term : String) : Outcome String :=
  if columns = [] || Text.blank term then .error .emptySearch
  else
    let term := e.quoteText (Text.trimmed term)
    match e with
    | .mysql => .ok ("MATCH (" ++ commaJoined columns ++ ") AGAINST (" ++ term ++ ")")
    | .postgres =>
      let document := match columns with
        | [column] => column
        | columns => "concat_ws(' ', " ++ commaJoined columns ++ ")"
      .ok ("to_tsvector(" ++ document ++ ") @@ to_tsquery(" ++ term ++ ")")

end Engine

end SqlBuilder
