import SqlBuilder.Field
import SqlBuilder.Template
import SqlBuilder.JsonSpec.Compile

/-!
# Building statements

The calls that build a statement. A call on a statement that holds an error changes at
most what no final use can show; a failing call stores its error.
-/
namespace SqlBuilder

abbrev Row := List (String × Value)

namespace Statement

/-- Runs one step of building, unless the statement holds an error already. -/
def attempt (s : Statement) (step : Statement → Outcome Statement) : Statement :=
  match s.error with
  | some _ => s
  | none => match step s with
    | .ok s' => s'
    | .error e => { s with error := some e }

/-- Chooses a kind. Another kind than before starts with no clauses. -/
def switchKind (s : Statement) (kind : StatementKind) : Statement :=
  match s.kind with
  | none => { s with state := { s.state with kind := some kind } }
  | some k =>
    if k = kind then s
    else { s with
      state := { s.state.clear with kind := some kind }
      insertColumns := []
      lastPredicate := none }

/-- Runs a step of a statement of one kind; the kind is chosen even if the step fails. -/
def attemptAs (s : Statement) (kind : StatementKind)
    (step : Statement → Outcome Statement) : Statement :=
  match s.error with
  | some _ => s
  | none => (s.switchKind kind).attempt step

def push (s : Statement) (c : ClauseKind) (f : Fragment) : Statement :=
  { s with state := s.state.push c f }

def pushAll (s : Statement) (c : ClauseKind) (fs : List Fragment) : Statement :=
  { s with state := s.state.pushAll c fs }

def pushPredicate (s : Statement) (c : ClauseKind) (f : Fragment) (op : BoolOp) : Statement :=
  { s.push c (f.withOp op) with lastPredicate := some c }

def setLastOp (s : Statement) (c : ClauseKind) (op : BoolOp) : Statement :=
  { s with state := s.state.setLastOp c op }

def withConfig (s : Statement) (config : Config) : Statement := { s with config }

def table (s : Statement) (name : String) : Statement :=
  s.attempt fun s => do
    let name ← (← (Field.text name).joined s.engine).render .compact 0
    return { s with state := { s.state with table := some name } }

def withAlias (s : Statement) (name : String) : Statement := { s with aliasName := some name }

def source (s : Statement) (field : Field) : Statement :=
  s.attemptAs .select fun s => do
    field.requireName .source
    return s.pushAll .source (← field.fragments s.engine)

def select (s : Statement) (field : Field) : Statement :=
  s.attemptAs .select fun s => do
    field.requireName .selectList
    return s.pushAll .select (← field.fragments s.engine)

/-- A projection with no members selects nothing; a blank alias is none. -/
def selectJson (s : Statement) (spec : JsonSpec) (shape : JsonShape) (aliasName : String) :
    Statement :=
  s.attemptAs .select fun s => do
    let text ← spec.compile s.dialect shape
    if text = "" then return s
    else if Text.blank aliasName then return s.push .select (.ofText text)
    else
      let aliasName ← s.engine.quoteIdent aliasName
      return s.push .select (.ofText (text ++ " AS " ++ aliasName))

def aggregate (s : Statement) (function : String) (field : Field) (aliasName : Option String) :
    Statement :=
  s.attemptAs .select fun s => do
    match Aggregate.ofText? function with
    | none => .error (.unsupportedAggregate function)
    | some function =>
      match ← field.fragments s.engine with
      | [f] =>
        let call := (f.after (function.keyword ++ "(")).before ")"
        match aliasName with
        | none => return s.push .aggregate call
        | some aliasName =>
          let aliasName ← s.engine.quoteIdent aliasName
          return s.push .aggregate (call.before (" AS " ++ aliasName))
      | fs => .error (.shape (.fieldCount function fs.length))

/-- The value of a column; a list has no place in one. -/
def columnValue (e : Engine) (column : String) (v : Value) : Outcome String :=
  match v with
  | .list _ => .error (.shape (.listInColumn column))
  | v => e.escape v

/-- The quoted columns of a row with their values; `seen` are those before them. -/
def escapeRow (e : Engine) (seen : List String) : Row → Outcome (List (String × String))
  | [] => .ok []
  | (column, v) :: row => do
    let name ← e.quoteIdent column
    if name ∈ seen then .error (.shape (.repeatedColumn name))
    else
      let value ← columnValue e column v
      return (name, value) :: (← escapeRow e (name :: seen) row)

/-- The values of a row in the order of `columns`, which it has to match exactly. -/
def alignRow (columns : List String) (row : List (String × String)) :
    Outcome (List String) := do
  if row.length ≠ columns.length then .error (.shape (.rowWidth row.length columns.length))
  else match row.find? fun pair => pair.1 ∉ columns with
    | some (name, _) => .error (.shape (.unknownColumn name))
    | none => columns.mapM fun column =>
      match row.lookup column with
      | some value => .ok value
      | none => .error (.shape (.missingColumn column))

/-- The first row gives the columns. -/
def setColumns (s : Statement) (columns : List String) : Statement :=
  if s.insertColumns = [] then
    { s.push .insert (.ofText (Engine.commaJoined columns)) with insertColumns := columns }
  else s

def pushRow (s : Statement) (row : Row) : Outcome Statement := do
  if row.isEmpty then .error (.shape .emptyRow)
  else
    let pairs ← escapeRow s.engine [] row
    let s := s.setColumns (pairs.map Prod.fst)
    let values ← alignRow s.insertColumns pairs
    return s.push .insert (.ofText (Engine.commaJoined values))

def insert (s : Statement) (rows : List Row) : Statement :=
  s.attemptAs .insert fun s =>
    if rows.isEmpty then .error (.shape .noRows) else rows.foldlM pushRow s

/-- PostgreSQL has no LIMIT on a statement that changes rows. -/
def checkLimit (s : Statement) : Outcome Statement :=
  let changes := s.kind = some .update || s.kind = some .delete
  if !(s.state.clause .limit).isEmpty && changes && s.engine = .postgres then
    .error (.shape .limitOnChange)
  else .ok s

def update (s : Statement) (row : Row) : Statement :=
  s.attemptAs .update fun s => do
    if row.isEmpty then .error (.shape .noAssignments)
    else
      let pairs ← escapeRow s.engine [] row
      (s.pushAll .update (pairs.map fun pair => .ofText (pair.1 ++ " = " ++ pair.2))).checkLimit

def delete (s : Statement) : Statement := s.attemptAs .delete checkLimit

def join (s : Statement) (kind : JoinKind) (field : Field) (on : String)
    (params : List Value) : Statement :=
  s.attempt fun s => do
    field.requireName .join
    let f := (← field.joined s.engine).after (kind.keyword ++ " ")
    if Text.blank on then return s.push .join f
    else
      let condition ← s.engine.prepare on params
      return s.push .join (f.before (" ON " ++ condition))

def pushTemplate (s : Statement) (c : ClauseKind) (template : String) (params : List Value)
    (op : BoolOp) : Outcome Statement := do
  if Text.blank template then .error (.shape .blankTemplate)
  else return s.pushPredicate c (.ofText (← s.engine.prepare template params)) op

def predicateWith (s : Statement) (c : ClauseKind) (template : String) (params : List Value)
    (op : String) : Statement :=
  s.attempt fun s =>
    match BoolOp.ofText? op with
    | none => .error (.operator (.notBoolOp op))
    | some op => s.pushTemplate c template params op

def filterWith (s : Statement) (template : String) (params : List Value) (op : String) :
    Statement := s.predicateWith .filter template params op

def filter (s : Statement) (template : String) (params : List Value) : Statement :=
  s.filterWith template params "AND"

def orFilter (s : Statement) (template : String) (params : List Value) : Statement :=
  (s.setLastOp .filter .or).filter template params

def andFilter (s : Statement) (template : String) (params : List Value) : Statement :=
  (s.setLastOp .filter .and).filter template params

def havingWith (s : Statement) (template : String) (params : List Value) (op : String) :
    Statement := s.predicateWith .having template params op

def having (s : Statement) (template : String) (params : List Value) : Statement :=
  s.havingWith template params "AND"

def orHaving (s : Statement) (template : String) (params : List Value) : Statement :=
  (s.setLastOp .having .or).having template params

/-- Sets the operator after the newest predicate of either list. -/
def connect (s : Statement) (op : BoolOp) : Statement :=
  s.setLastOp (s.lastPredicate.getD .filter) op

def filterIn (s : Statement) (field : String) (values : Value) : Statement :=
  s.attempt fun s => do
    let text ← s.engine.prepare "?? IN (?)" [.text field, values]
    return s.pushPredicate .filter (.ofText text) .and

def filterInSub (s : Statement) (field : String) (sub : Statement) : Statement :=
  s.attempt fun s => do
    let name ← s.engine.quoteIdent field
    let view ← sub.nested s.engine
    return s.pushPredicate .filter ⟨[.sql (name ++ " IN "), .sub view], none⟩ .and

def hasNoSearchField : Field → Bool
  | .text s => Text.blank s
  | .list names => names.isEmpty
  | _ => false

def searchColumn (f : Fragment) : Outcome String :=
  if f.hasSub then .error (.shape .nestedSearchField) else f.render .compact 0

def search (s : Statement) (field : Field) (term : String) : Statement :=
  s.attempt fun s => do
    if hasNoSearchField field then .error .emptySearch
    else
      let columns ← (← field.fragments s.engine).mapM searchColumn
      let text ← s.engine.fulltext columns term
      return s.pushPredicate .filter (.ofText text) .and

def groupBy (s : Statement) (field : Field) : Statement :=
  s.attempt fun s => do return s.pushAll .grouping (← field.fragments s.engine)

def orderBy (s : Statement) (field : Field) (direction : String) : Statement :=
  s.attempt fun s => do
    match SortOrder.ofText? direction with
    | none => .error (.operator (.notSortOrder direction))
    | some order =>
      let fs ← field.fragments s.engine
      return s.pushAll .ordering (fs.map fun f => f.before (" " ++ order.keyword))

/-- A later limit takes the place of an earlier one. -/
def limit (s : Statement) (offset count : Nat) : Statement :=
  s.attempt fun s =>
    let clause := Fragment.ofText (s.engine.limit offset count)
    checkLimit { s with state := s.state.setClause .limit [clause] }

def pushClause (s : Statement) (c : ClauseKind) (f : Fragment) : Statement :=
  match c with
  | .filter | .having => s.pushPredicate c f f.opOrAnd
  | c => s.push c f

/-- Starts over with the same target, alias and configuration. -/
def reset (s : Statement) : Statement :=
  { s with
    state := { s.state.clear with kind := none }
    insertColumns := []
    lastPredicate := none
    error := none }

/-- The columns written in the first fragment of an INSERT. -/
def writtenColumns (view : Snapshot) : List String :=
  match view.clause .insert with
  | [] => []
  | f :: _ => f.parts.flatMap fun
    | .sql text => (Text.splitTop ',' text.toList).map fun c => String.ofList (Text.trim c)
    | .sub _ => []

def ofStructured (dialect : Dialect) (view : Snapshot) : Statement :=
  { new dialect with state := view, insertColumns := writtenColumns view }

end Statement

end SqlBuilder
