import SqlBuilder.ServerVersion

/-!
# Dialects

An engine, and the version of its server where one is known. What differs between
the engines is looked up here.
-/
namespace SqlBuilder

inductive Engine where
  | mysql
  | postgres
  deriving DecidableEq, Repr

namespace Engine

def all : List Engine := [.mysql, .postgres]

def name : Engine → String
  | .mysql => "mysql"
  | .postgres => "postgres"

def ofName? (name : String) : Option Engine := all.find? fun e => e.name = name

def identQuote : Engine → Char
  | .mysql => '\x60'
  | .postgres => '"'

def jsonSince : Engine → ServerVersion
  | .mysql => ⟨5, 7, 8⟩
  | .postgres => ⟨9, 4, 0⟩

def objectFunction : Engine → String
  | .mysql => "json_object"
  | .postgres => "json_build_object"

def arrayFunction : Engine → String
  | .mysql => "json_array"
  | .postgres => "json_build_array"

def limit (e : Engine) (offset count : Nat) : String :=
  match e with
  | .mysql => s!"LIMIT {offset}, {count}"
  | .postgres => s!"LIMIT {count} OFFSET {offset}"

end Engine

structure Dialect where
  engine : Engine
  version : Option ServerVersion
  deriving DecidableEq, Repr

namespace Dialect

def mysql : Dialect := ⟨.mysql, none⟩

def postgres : Dialect := ⟨.postgres, none⟩

/-- A server of unknown version is taken to have the JSON constructors. -/
def supportsJson (d : Dialect) : Bool :=
  match d.version with
  | none => true
  | some v => v.atLeast d.engine.jsonSince

end Dialect

end SqlBuilder
