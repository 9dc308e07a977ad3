import SqlBuilder.Statement.Build

/-!
# Calls as data

A program of builder calls is a list, and running it is a fold.
-/
namespace SqlBuilder

inductive Call where
  | config (config : Config)
  | table (name : String)
  | withAlias (name : String)
  | source (field : Field)
  | select (field : Field)
  | selectJson (spec : JsonSpec) (shape : JsonShape) (aliasName : String)
  | aggregate (function : String) (field : Field) (aliasName : Option String)
  | insert (rows : List Row)
  | update (row : Row)
  | delete
  | join (kind : JoinKind) (field : Field) (on : String) (params : List Value)
  | filter (template : String) (params : List Value)
  | filterWith (template : String) (params : List Value) (op : String)
  | orFilter (template : String) (params : List Value)
  | andFilter (template : String) (params : List Value)
  | filterIn (field : String) (values : Value)
  | filterInSub (field : String) (sub : Statement)
  | search (field : Field) (term : String)
  | having (template : String) (params : List Value)
  | havingWith (template : String) (params : List Value) (op : String)
  | orHaving (template : String) (params : List Value)
  | connect (op : BoolOp)
  | groupBy (field : Field)
  | orderBy (field : Field) (direction : String)
  | limit (offset count : Nat)
  | pushClause (c : ClauseKind) (f : Fragment)
  | reset

namespace Statement

def apply (s : Statement) : Call → Statement
  | .config config => s.withConfig config
  | .table name => s.table name
  | .withAlias name => s.withAlias name
  | .source field => s.source field
  | .select field => s.select field
  | .selectJson spec shape aliasName => s.selectJson spec shape aliasName
  | .aggregate function field aliasName => s.aggregate function field aliasName
  | .insert rows => s.insert rows
  | .update row => s.update row
  | .delete => s.delete
  | .join kind field on params => s.join kind field on params
  | .filter template params => s.filter template params
  | .filterWith template params op => s.filterWith template params op
  | .orFilter template params => s.orFilter template params
  | .andFilter template params => s.andFilter template params
  | .filterIn field values => s.filterIn field values
  | .filterInSub field sub => s.filterInSub field sub
  | .search field term => s.search field term
  | .having template params => s.having template params
  | .havingWith template params op => s.havingWith template params op
  | .orHaving template params => s.orHaving template params
  | .connect op => s.connect op
  | .groupBy field => s.groupBy field
  | .orderBy field direction => s.orderBy field direction
  | .limit offset count => s.limit offset count
  | .pushClause c f => s.pushClause c f
  | .reset => s.reset

def run (s : Statement) (calls : List Call) : Statement := calls.foldl apply s

@[simp] theorem run_nil (s : Statement) : s.run [] = s := rfl

@[simp] theorem run_cons (s : Statement) (c : Call) (cs : List Call) :
    s.run (c :: cs) = (s.apply c).run cs := rfl

theorem run_append (s : Statement) (cs ds : List Call) :
    s.run (cs ++ ds) = (s.run cs).run ds := by
  simp [run]

end Statement

end SqlBuilder
