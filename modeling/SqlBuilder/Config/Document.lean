import SqlBuilder.Config
import SqlBuilder.Toml.Reader

/-!
# Configurations in TOML

The members of a document that a configuration knows; others are ignored, and a known
one of the wrong type is refused.
-/
namespace SqlBuilder

open Toml (Item Members)

namespace Config

def boolItem? : Item → Option Bool
  | .bool b => some b
  | _ => none

/-- A length that fits in 64 bits. -/
def lengthItem? : Item → Option Nat
  | .int n => if 0 ≤ n && n.toNat < UInt64.size then some n.toNat else none
  | _ => none

def textItem? : Item → Option String
  | .str s => some s
  | _ => none

/-- An engine by its name, or as the only key of a table with nothing under it. -/
def engineItem? : Item → Option Engine
  | .str s => Engine.ofName? s
  | .table _ [(name, .table _ [])] => Engine.ofName? name
  | .table _ [(name, .arr _ [])] => Engine.ofName? name
  | _ => none

def member (members : Members) (key : String) (read : Item → Option α) (default : α) :
    Option α :=
  match members.lookup key with
  | none => some default
  | some item => read item

def ofMembers (members : Members) : Option Config := do
  let base : Config := {}
  let pretty ← member members "pretty" boolItem? base.pretty
  let logSql ← member members "log_sql" boolItem? base.logSql
  let maxLogLength ← member members "max_sql_log_length"
    (fun item => (lengthItem? item).map some) base.maxLogLength
  let engine ← member members "dialect" (fun item => (engineItem? item).map some) base.engine
  let serverVersion ← member members "server_version"
    (fun item => (textItem? item).map some) base.serverVersion
  return ⟨pretty, logSql, maxLogLength, engine, serverVersion⟩

def ofToml (text : String) : Outcome Config :=
  match (Toml.Document.read text).bind ofMembers with
  | some c => .ok c
  | none => .error (.config .document)

/-- The configuration in a file, given the bytes of the file if there is one. -/
def ofFile (content : Option ByteArray) : Outcome Config :=
  match content.bind String.fromUTF8? with
  | some text => ofToml text
  | none => .error (.config .document)

end Config

end SqlBuilder
