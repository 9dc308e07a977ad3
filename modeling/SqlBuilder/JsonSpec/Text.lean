import SqlBuilder.Literal
import SqlBuilder.Text.TopLevel

/-!
# JSON projections written as text

A text with a colon at its top level is an object, one with only commas an array, and
any other names a column. The texts inside are always shorter than the text around them.
-/
namespace SqlBuilder

/-- A projection with its structure resolved: constructors around written values. -/
inductive JsonExpr where
  | sql (text : String)
  | object (pairs : List (String × JsonExpr))
  | array (items : List JsonExpr)

namespace JsonExpr

def call (function : String) (args : List String) : String :=
  function ++ "(" ++ Engine.commaJoined args ++ ")"

mutual

def toSql (e : Engine) : JsonExpr → String
  | .sql text => text
  | .object pairs => call e.objectFunction (pairArgs e pairs)
  | .array items => call e.arrayFunction (itemArgs e items)

def pairArgs (e : Engine) : List (String × JsonExpr) → List String
  | [] => []
  | (key, x) :: ps => e.quoteText key :: toSql e x :: pairArgs e ps

def itemArgs (e : Engine) : List JsonExpr → List String
  | [] => []
  | x :: xs => toSql e x :: itemArgs e xs

end

end JsonExpr

namespace JsonSpec

def hasTop (sep : Char) (cs : List Char) : Bool := 1 < (Text.splitTop sep cs).length

/-- The items of a text between commas, trimmed, without the blank ones. -/
def items (cs : List Char) : List (List Char) :=
  ((Text.splitTop ',' cs).map Text.trim).filter (· ≠ [])

def unnamed : SqlError := .ambiguousJson .unnamed

def key (name : List Char) : Outcome String :=
  let name := Text.trim name
  if name = [] then .error unnamed else .ok (String.ofList name)

/-- An item cut at its first colon, with something on both sides. -/
def splitPair (item : List Char) : Outcome (List Char × List Char) :=
  let name := item.takeWhile (· ≠ ':')
  match item.dropWhile (· ≠ ':') with
  | [] => .error (.ambiguousJson (.unpaired (String.ofList item)))
  | _ :: value =>
    if Text.allBlank name || Text.allBlank value then
      .error (.ambiguousJson (.unpaired (String.ofList item)))
    else .ok (name, value)

theorem length_of_splitPair {item name value : List Char}
    (h : splitPair item = .ok (name, value)) : value.length < item.length := by
  have hd : (item.dropWhile (· ≠ ':')).length ≤ item.length :=
    (List.dropWhile_sublist _).length_le
  simp only [splitPair] at h
  split at h
  · simp at h
  · rename_i v hv
    split at h
    · simp at h
    · rw [hv] at hd
      simp only [Except.ok.injEq, Prod.mk.injEq] at h
      rw [← h.2]
      simp only [List.length_cons] at hd
      omega

theorem length_of_mem_items {cs item : List Char} (h : item ∈ items cs) :
    item.length + (Text.splitTop ',' cs).length ≤ cs.length + 1 := by
  obtain ⟨p, hp, rfl⟩ := List.mem_map.mp (List.mem_filter.mp h).1
  have := Text.length_of_mem_splitTop hp
  have := Text.length_trim_le p
  omega

theorem length_of_mem_items_le {cs item : List Char} (h : item ∈ items cs) :
    item.length ≤ cs.length := by
  have := length_of_mem_items h
  have := Text.length_splitFrom_pos ',' .start cs
  simp only [Text.splitTop] at *
  omega

mutual

/-- What a text stands for as a value. -/
def textExpr (e : Engine) (cs : List Char) : Outcome JsonExpr :=
  if hasTop ':' (Text.trim cs) then
    ((items (Text.trim cs)).attach.mapM fun item => itemPair e item.1).map .object
  else if hasTop ',' (Text.trim cs) then
    ((items (Text.trim cs)).attach.mapM fun item => textExpr e item.1).map .array
  else if Text.trim cs = [] then .error unnamed
  else (e.quoteIdent (String.ofList (Text.trim cs))).map .sql
termination_by 2 * cs.length + 1
decreasing_by
  · have := length_of_mem_items_le item.2
    have := Text.length_trim_le cs
    omega
  · rename_i ht
    have := length_of_mem_items item.2
    have := Text.length_trim_le cs
    simp only [hasTop, decide_eq_true_eq] at ht
    omega

def itemPair (e : Engine) (item : List Char) : Outcome (String × JsonExpr) :=
  match _h : splitPair item with
  | .error err => .error err
  | .ok (name, value) => do
    let name ← key name
    let value ← textExpr e value
    return (name, value)
termination_by 2 * item.length
decreasing_by
  have := length_of_splitPair _h
  omega

end

end JsonSpec

end SqlBuilder
