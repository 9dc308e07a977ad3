import SqlBuilder.Ident
import SqlBuilder.Dialect
import SqlBuilder.Keyword
import SqlBuilder.JsonSpec

/-!
# Errors

Why a statement cannot be built, rendered or run. Each cause is named, and its
wording is given once. A cause known only by its wording is `stated`.
-/
namespace SqlBuilder

inductive ShapeFault where
  | ident (fault : Ident.Fault)
  | version (text : String)
  | notFinite (x : Float)
  | notScalar (v : Value)
  | notIdentifier (v : Value)
  | blankField (whole : String)
  | emptyFieldList
  | emptyField
  | objectValue
  | mappingInArray
  | fieldCount (function : Aggregate) (count : Nat)
  | noRows
  | emptyRow
  | noAssignments
  | repeatedColumn (name : String)
  | listInColumn (column : String)
  | rowWidth (width first : Nat)
  | unknownColumn (name : String)
  | missingColumn (name : String)
  | limitOnChange
  | blankTemplate
  | nestedSearchField
  | clauseOnInsert (clause : ClauseKind)
  | insertWithoutRow
  | updateWithoutAssignment
  | stated (text : String)

def ShapeFault.message : ShapeFault → String
  | .ident fault => fault.message
  | .version text => s!"cannot parse server version '{text}'"
  | .notFinite x => Decimal.Layout.plain.text x ++ " has no SQL literal form"
  | .notScalar v => "expected a scalar value, got " ++ v.shape
  | .notIdentifier v => "'??' expects an identifier, got " ++ v.shape
  | .blankField whole => s!"empty field in '{whole}'"
  | .emptyFieldList => "field list cannot be empty"
  | .emptyField => "field cannot be empty"
  | .objectValue => "JSON objects cannot be bound to a placeholder"
  | .mappingInArray => "key/value mappings can only be compiled into JSON objects"
  | .fieldCount function count =>
    function.keyword ++ s!"() takes exactly one field, got {count}"
  | .noRows => "insert() requires at least one row"
  | .emptyRow => "insert() rows cannot be empty"
  | .noAssignments => "update() requires at least one column"
  | .repeatedColumn name => s!"column {name} appears twice in one row"
  | .listInColumn column => s!"column '{column}' cannot take a list value"
  | .rowWidth width first => s!"row has {width} columns but the first row has {first}"
  | .unknownColumn name => s!"row has column {name} which the first row does not"
  | .missingColumn name => s!"row has no value for column {name}"
  | .limitOnChange => "PostgreSQL does not accept LIMIT on UPDATE or DELETE"
  | .blankTemplate => "predicate template cannot be empty"
  | .nestedSearchField => "search() fields must be column names"
  | .clauseOnInsert clause => "INSERT does not take a " ++ clause.title ++ " clause"
  | .insertWithoutRow => "INSERT requires at least one row"
  | .updateWithoutAssignment => "UPDATE requires at least one assignment"
  | .stated text => text

inductive OperatorFault where
  | notBoolOp (text : String)
  | notSortOrder (text : String)
  | stated (text : String)

def OperatorFault.message : OperatorFault → String
  | .notBoolOp text => s!"'{text}' is not a boolean operator (expected AND or OR)"
  | .notSortOrder text => s!"'{text}' is not a sort direction (expected ASC or DESC)"
  | .stated text => text

/-- Where a sub-statement has to have a name. -/
inductive NamedPlace where
  | source
  | selectList
  | join
  deriving DecidableEq, Repr

def NamedPlace.phrase : NamedPlace → String
  | .source => "FROM"
  | .selectList => "the select list"
  | .join => "JOIN"

inductive AliasFault where
  | unnamed (place : NamedPlace)
  | stated (text : String)

def AliasFault.message : AliasFault → String
  | .unnamed place =>
    "a sub-statement used in " ++ place.phrase ++ " needs an alias; call .alias(..) on it"
  | .stated text => text

/-- A member of a JSON object that is not a name with a value. -/
inductive JsonFault where
  | unnamed
  | unpaired (item : String)
  | element (spec : JsonSpec)
  | value (v : Value)
  | stated (text : String)

def JsonFault.message : JsonFault → String
  | .unnamed => pairNeeded
  | .unpaired item => pairNeeded ++ s!": '{item}'"
  | .element spec => pairNeeded ++ ": " ++ spec.shown
  | .value v => pairNeeded ++ ": " ++ v.shown
  | .stated text => text
where
  pairNeeded : String := "field name and value must be given for JSON objects"

inductive PlaceholderForm where
  | list
  | ident
  | literal
  deriving DecidableEq, Repr

def PlaceholderForm.text : PlaceholderForm → String
  | .list => "(?)"
  | .ident => "??"
  | .literal => "?"

inductive PlaceholderFault where
  | missing (template : String) (form : PlaceholderForm) (given : Nat)
  | stated (text : String)

/-- Every parameter is used up when one is missing, so its number is one more. -/
def PlaceholderFault.message : PlaceholderFault → String
  | .missing template form given =>
    s!"template '{template}' needs a parameter for placeholder #{given + 1} ('" ++ form.text
      ++ s!"') but only {given} given"
  | .stated text => text

inductive ConfigFault where
  | versionWithoutDialect
  | version (fault : ShapeFault)
  | foreignSub (sub parent : Engine)
  | foreignLink (statement link : Engine)
  | document
  | stated (text : String)

inductive SqlError where
  | missingTable
  | shape (fault : ShapeFault)
  | operator (fault : OperatorFault)
  | missingAlias (fault : AliasFault)
  | unsupportedAggregate (text : String)
  | ambiguousJson (fault : JsonFault)
  | unsupportedJson (dialect version required : String)
  | emptySearch
  | placeholder (fault : PlaceholderFault)
  | config (fault : ConfigFault)
  | connection (text : String)
  | execution (text : String)

def shapeMessage (text : String) : String := "Invalid argument shape: " ++ text

def ConfigFault.message : ConfigFault → String
  | .versionWithoutDialect => "server_version is set but dialect is missing"
  | .version fault => shapeMessage fault.message
  | .foreignSub sub parent =>
    "a " ++ sub.name ++ " sub-statement cannot be nested in a " ++ parent.name ++ " statement"
  | .foreignLink statement link =>
    "statement built for " ++ statement.name ++ " cannot run on a " ++ link.name ++ " link"
  | .document => "the document cannot be read"
  | .stated text => text

inductive ErrorKind where
  | missingTable
  | shape
  | operator
  | missingAlias
  | unsupportedAggregate
  | ambiguousJson
  | unsupportedJson
  | emptySearch
  | placeholder
  | config
  | connection
  | execution
  deriving DecidableEq, Repr

namespace SqlError

def kind : SqlError → ErrorKind
  | .missingTable => .missingTable
  | .shape _ => .shape
  | .operator _ => .operator
  | .missingAlias _ => .missingAlias
  | .unsupportedAggregate _ => .unsupportedAggregate
  | .ambiguousJson _ => .ambiguousJson
  | .unsupportedJson .. => .unsupportedJson
  | .emptySearch => .emptySearch
  | .placeholder _ => .placeholder
  | .config _ => .config
  | .connection _ => .connection
  | .execution _ => .execution

def message : SqlError → String
  | .missingTable => "Missing table: call `table()` before rendering"
  | .shape fault => shapeMessage fault.message
  | .operator fault => "Invalid operator: " ++ fault.message
  | .missingAlias fault => "Missing alias: " ++ fault.message
  | .unsupportedAggregate text => s!"Unsupported aggregate function '{text}'"
      ++ " (expected one of count, sum, avg, min, max)"
  | .ambiguousJson fault => "Ambiguous JSON spec: " ++ fault.message
  | .unsupportedJson dialect version required =>
    s!"JSON functions require {dialect} {required} or newer (server is {version})"
  | .emptySearch => "Search requires at least one column and a non-empty term"
  | .placeholder fault => "Placeholder mismatch: " ++ fault.message
  | .config fault => "Config error: " ++ fault.message
  | .connection text => "Connection error: " ++ text
  | .execution text => "Execution error: " ++ text

/-- An error of the caller's making, not of the server or the way to it. -/
def isConfiguration (e : SqlError) : Bool :=
  match e.kind with
  | .connection | .execution => false
  | _ => true

def isMissingTable (e : SqlError) : Bool := e.kind = .missingTable

end SqlError

/-- What a step of building or rendering gives: a result, or the error it stops at. -/
abbrev Outcome (α : Type) := Except SqlError α

end SqlBuilder
