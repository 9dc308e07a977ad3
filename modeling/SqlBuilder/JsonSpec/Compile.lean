import SqlBuilder.JsonSpec.Text

/-!
# Compiled JSON projections

A description becomes calls of an engine's JSON constructors, where the server has them.
-/
namespace SqlBuilder.JsonSpec

def literalExpr (e : Engine) (v : Value) : Outcome JsonExpr := (e.escape v).map .sql

mutual

/-- The pairs of an object; the members of a list are put together. -/
def objectPairs (e : Engine) : JsonSpec → Outcome (List (String × JsonExpr))
  | .text s => (items s.toList).mapM (itemPair e)
  | .list elements => elementPairs e elements
  | .map pairs => mapPairs e pairs
  | .literal v => .error (.ambiguousJson (.value v))

/-- Only texts and mappings have pairs to give. -/
def elementPairs (e : Engine) : List JsonSpec → Outcome (List (String × JsonExpr))
  | [] => .ok []
  | .list items :: _ => .error (.ambiguousJson (.element (.list items)))
  | .literal v :: _ => .error (.ambiguousJson (.element (.literal v)))
  | spec :: specs => do
    let pairs ← objectPairs e spec
    return pairs ++ (← elementPairs e specs)

def mapPairs (e : Engine) : List (String × JsonSpec) → Outcome (List (String × JsonExpr))
  | [] => .ok []
  | (name, spec) :: pairs => do
    let name ← key name.toList
    let value ← valueExpr e spec
    return (name, value) :: (← mapPairs e pairs)

def valueExpr (e : Engine) : JsonSpec → Outcome JsonExpr
  | .text s => textExpr e s.toList
  | .list items => (valueExprs e items).map .array
  | .map pairs => (mapPairs e pairs).map .object
  | .literal v => literalExpr e v

def valueExprs (e : Engine) : List JsonSpec → Outcome (List JsonExpr)
  | [] => .ok []
  | spec :: specs => do
    let value ← valueExpr e spec
    return value :: (← valueExprs e specs)

end

def arrayItems (e : Engine) : JsonSpec → Outcome (List JsonExpr)
  | .text s => (items s.toList).mapM (textExpr e)
  | .list items => valueExprs e items
  | .map _ => .error (.shape .mappingInArray)
  | .literal v => (literalExpr e v).map fun x => [x]

def unsupported (d : Dialect) : SqlError :=
  .unsupportedJson d.engine.name ((d.version.map ServerVersion.text).getD "")
    d.engine.jsonSince.text

/-- The constructor call, or nothing at all when it would have no arguments. -/
def compile (d : Dialect) (spec : JsonSpec) (shape : JsonShape) : Outcome String :=
  if !d.supportsJson then .error (unsupported d)
  else match shape with
    | .object => (objectPairs d.engine spec).map fun pairs =>
        if pairs.isEmpty then "" else (JsonExpr.object pairs).toSql d.engine
    | .array => (arrayItems d.engine spec).map fun items =>
        if items.isEmpty then "" else (JsonExpr.array items).toSql d.engine

end SqlBuilder.JsonSpec
