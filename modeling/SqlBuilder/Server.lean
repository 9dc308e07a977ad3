import SqlBuilder.Connection

/-!
# A scripted server

A server that answers from a script, and the client that reads its messages.
-/
namespace SqlBuilder

inductive ServerMessage where
  | columns (names : List String)
  | row (cells : List Cell)
  | done (tag : String)
  | empty
  | fail (state text : String)

/-- The count at the end of a command tag; none counts as zero. -/
def affectedOf (tag : String) : UInt64 :=
  let word := (tag.toList.reverse.takeWhile (· ≠ ' ')).reverse
  let digits := match word with
    | '+' :: ds => ds
    | ds => ds
  match Decimal.readNat? digits with
  | some n => if n < UInt64.size then UInt64.ofNat n else 0
  | none => 0

/-- What the client makes of the messages for one query. A row belongs to the latest
description; the first failure ends the reading. -/
def readMessages (columns : Option (List String)) :
    List ServerMessage → Outcome (List RowMessage)
  | [] => .ok []
  | .columns names :: ms => (readMessages (some names) ms).map (.other :: ·)
  | .row cells :: ms =>
    match columns with
    | none => .error (.execution "unexpected message from server")
    | some names => (readMessages columns ms).map (.row names (cells.take names.length) :: ·)
  | .done tag :: ms => (readMessages columns ms).map (.complete (affectedOf tag) :: ·)
  | .empty :: ms => (readMessages columns ms).map (.complete 0 :: ·)
  | .fail state text :: _ => .error (.execution (state ++ ": " ++ text))

/-- How the server answers the question for its version, how it answers the other queries in
turn, and which queries have reached it. -/
structure Server where
  version : List ServerMessage
  replies : List (List ServerMessage)
  received : List String

namespace Server

/-- A query that reaches the server, and the messages it sends back. -/
def send (s : Server) (sql : String) : List ServerMessage × Server :=
  let s := { s with received := s.received ++ [sql] }
  if sql = Client.versionQuery then (s.version, s)
  else match s.replies with
    | [] => ([], s)
    | reply :: replies => (reply, { s with replies })

/-- A text with a NUL cannot be sent. -/
def exchange (s : Server) (sql : String) : Outcome (List RowMessage) × Server :=
  if '\x00' ∈ sql.toList then
    (.error (.execution "error encoding message to server: string contains embedded null"), s)
  else
    let (messages, s) := s.send sql
    (readMessages none messages, s)

end Server

instance : Client Server := ⟨Server.exchange⟩

def Server.query (s : Server) (sql : String) : Outcome Answer × Server := Client.ask s sql

end SqlBuilder
