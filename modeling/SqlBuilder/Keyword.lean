import SqlBuilder.Text.Blank

/-!
# Keywords

The closed vocabularies of a statement and how each is spelled. Reading a keyword
ignores blanks around it and the case of ASCII letters.
-/
namespace SqlBuilder

def keywordLetters (text : String) : List Char := (Text.trim text.toList).map Char.toUpper

def keyword? (all : List α) (spelling : α → String) (text : String) : Option α :=
  all.find? fun k => (spelling k).toList = keywordLetters text

inductive StatementKind where
  | select
  | insert
  | update
  | delete
  deriving DecidableEq, Repr

def StatementKind.keyword : StatementKind → String
  | .select => "SELECT"
  | .insert => "INSERT"
  | .update => "UPDATE"
  | .delete => "DELETE"

inductive BoolOp where
  | and
  | or
  deriving DecidableEq, Repr

namespace BoolOp

def keyword : BoolOp → String
  | .and => "AND"
  | .or => "OR"

def ofText? (text : String) : Option BoolOp := keyword? [.and, .or] keyword text

end BoolOp

inductive SortOrder where
  | ascending
  | descending
  deriving DecidableEq, Repr

namespace SortOrder

def keyword : SortOrder → String
  | .ascending => "ASC"
  | .descending => "DESC"

def ofText? (text : String) : Option SortOrder :=
  keyword? [.ascending, .descending] keyword text

end SortOrder

inductive Aggregate where
  | count
  | sum
  | avg
  | min
  | max
  deriving DecidableEq, Repr

namespace Aggregate

def keyword : Aggregate → String
  | .count => "COUNT"
  | .sum => "SUM"
  | .avg => "AVG"
  | .min => "MIN"
  | .max => "MAX"

def ofText? (text : String) : Option Aggregate :=
  keyword? [.count, .sum, .avg, .min, .max] keyword text

end Aggregate

inductive JoinKind where
  | inner
  | left
  | right
  deriving DecidableEq, Repr

def JoinKind.keyword : JoinKind → String
  | .inner => "INNER JOIN"
  | .left => "LEFT JOIN"
  | .right => "RIGHT JOIN"

/-- The places of a statement that hold fragments. -/
inductive ClauseKind where
  | select
  | aggregate
  | source
  | join
  | filter
  | grouping
  | having
  | ordering
  | limit
  | insert
  | update
  deriving DecidableEq, Repr

namespace ClauseKind

def all : List ClauseKind :=
  [.select, .aggregate, .source, .join, .filter, .grouping, .having, .ordering, .limit,
   .insert, .update]

def title : ClauseKind → String
  | .select => "Select"
  | .aggregate => "Aggregate"
  | .source => "From"
  | .join => "Join"
  | .filter => "Where"
  | .grouping => "GroupBy"
  | .having => "Having"
  | .ordering => "OrderBy"
  | .limit => "Limit"
  | .insert => "Insert"
  | .update => "Update"

def key : ClauseKind → String
  | .select => "select"
  | .aggregate => "aggregate"
  | .source => "from"
  | .join => "join"
  | .filter => "where"
  | .grouping => "group_by"
  | .having => "having"
  | .ordering => "order_by"
  | .limit => "limit"
  | .insert => "insert"
  | .update => "update"

def ofKey? (key : String) : Option ClauseKind := all.find? fun c => c.key = key

theorem mem_all (c : ClauseKind) : c ∈ all := by cases c <;> decide

theorem ofKey?_key (c : ClauseKind) : ofKey? c.key = some c := by cases c <;> decide

end ClauseKind

end SqlBuilder
