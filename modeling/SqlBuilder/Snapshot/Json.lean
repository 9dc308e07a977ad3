import SqlBuilder.Snapshot
import SqlBuilder.Json

/-!
# Snapshots as documents

The written form of a snapshot and its reader. Absent members take their defaults, and
an operator that was never set is left out.
-/
namespace SqlBuilder

namespace StatementKind

def key : StatementKind → String
  | .select => "select"
  | .insert => "insert"
  | .update => "update"
  | .delete => "delete"

def ofKey? (key : String) : Option StatementKind :=
  [select, insert, update, delete].find? fun k => k.key = key

end StatementKind

def BoolOp.ofKey? (key : String) : Option BoolOp := [BoolOp.and, .or].find? fun o => o.keyword = key

mutual

def Part.toJson : Part → Json
  | .sql text => .obj [("sql", .str text)]
  | .sub s => .obj [("sub", s.toJson)]

def partsToJson : List Part → List Json
  | [] => []
  | p :: ps => p.toJson :: partsToJson ps

def Fragment.toJson : Fragment → Json
  | ⟨parts, op⟩ =>
    .obj (("parts", .arr (partsToJson parts)) ::
      match op with
      | none => []
      | some op => [("op", .str op.keyword)])

def fragmentsToJson : List Fragment → List Json
  | [] => []
  | f :: fs => f.toJson :: fragmentsToJson fs

def clauseToJson (c : ClauseKind) : Option (List Fragment) → List (String × Json)
  | none => []
  | some fs => [(c.key, .arr (fragmentsToJson fs))]

def tableToJson : PerClause (Option (List Fragment)) → List (String × Json)
  | ⟨select, aggregate, source, join, filter, grouping, having, ordering, limit, insert,
      update⟩ =>
    clauseToJson .select select ++ clauseToJson .aggregate aggregate
      ++ clauseToJson .source source ++ clauseToJson .join join
      ++ clauseToJson .filter filter ++ clauseToJson .grouping grouping
      ++ clauseToJson .having having ++ clauseToJson .ordering ordering
      ++ clauseToJson .limit limit ++ clauseToJson .insert insert
      ++ clauseToJson .update update

def Snapshot.toJson : Snapshot → Json
  | ⟨kind, table, isSub, clauses⟩ =>
    .obj [("kind", match kind with
        | none => .null
        | some kind => .str kind.key),
      ("table", match table with
        | none => .null
        | some name => .str name),
      ("is_sub", .bool isSub),
      ("clauses", .obj (tableToJson clauses))]

end

namespace Json

/-- A member that may be absent or null. -/
def optional (read : Json → Option α) : Option Json → Option (Option α)
  | none => some none
  | some .null => some none
  | some j => (read j).map some

def string? : Json → Option String
  | .str s => some s
  | _ => none

/-- A truth value that is false when absent. -/
def flag? : Option Json → Option Bool
  | none => some false
  | some (.bool b) => some b
  | some _ => none

theorem sizeOf_of_lookup {name : String} {members : List (String × Json)} {j : Json}
    (h : members.lookup name = some j) : sizeOf j < sizeOf members := by
  induction members with
  | nil => simp at h
  | cons m ms ih =>
    obtain ⟨key, v⟩ := m
    simp only [List.lookup_cons] at h
    split at h
    · simp at h
      subst h
      simp
      omega
    · have := ih h
      simp
      omega

theorem sizeOf_of_record {names : List String} {r j : Json} {fields : List (Option Json)}
    (h : r.record? names = some fields) (hj : some j ∈ fields) : sizeOf j < sizeOf r := by
  unfold record? at h
  split at h
  · simp only [Option.some.injEq] at h
    subst h
    obtain ⟨name, _, hl⟩ := List.mem_map.mp hj
    have := sizeOf_of_lookup hl
    simp
    omega
  · split at h
    · simp only [Option.some.injEq] at h
      subst h
      simp at hj
      have := List.sizeOf_lt_of_mem hj
      simp
      omega
    · simp at h
  · simp at h

end Json

def snapshotNames : List String := ["kind", "table", "is_sub", "clauses"]

def fragmentNames : List String := ["parts", "op"]

mutual

def Part.ofJson? : Json → Option Part
  | .obj [(key, j)] =>
    if key = "sql" then j.string?.map .sql
    else if key = "sub" then (Snapshot.ofJson? j).map .sub
    else none
  | _ => none
termination_by j => sizeOf j

def partsOfJson? : List Json → Option (List Part)
  | [] => some []
  | j :: js => do
    let p ← Part.ofJson? j
    return p :: (← partsOfJson? js)
termination_by js => sizeOf js

def Fragment.ofJson? (j : Json) : Option Fragment :=
  match _h : j.record? fragmentNames with
  | some [some (.arr parts), op] => do
    let parts ← partsOfJson? parts
    let op ← Json.optional (fun j => j.tag?.bind BoolOp.ofKey?) op
    return ⟨parts, op⟩
  | _ => none
termination_by sizeOf j
decreasing_by
  have := Json.sizeOf_of_record _h (j := .arr parts) (by simp)
  simp at this
  omega

def fragmentsOfJson? : List Json → Option (List Fragment)
  | [] => some []
  | j :: js => do
    let f ← Fragment.ofJson? j
    return f :: (← fragmentsOfJson? js)
termination_by js => sizeOf js

def tableOfJson? : List (String × Json) → Option (PerClause (Option (List Fragment)))
  | [] => some (.ofFn fun _ => none)
  | (key, .arr items) :: ms => do
    let c ← ClauseKind.ofKey? key
    let fs ← fragmentsOfJson? items
    return (← tableOfJson? ms).set c (some fs)
  | _ => none
termination_by ms => sizeOf ms

def Snapshot.ofJson? (j : Json) : Option Snapshot :=
  match _h : j.record? snapshotNames with
  | some [kind, table, isSub, clauses] => do
    let kind ← Json.optional (fun j => j.tag?.bind StatementKind.ofKey?) kind
    let table ← Json.optional Json.string? table
    let isSub ← Json.flag? isSub
    let clauses ← match _hc : clauses with
      | none => some (.ofFn fun _ => none)
      | some (.obj members) => tableOfJson? members
      | some _ => none
    return ⟨kind, table, isSub, clauses⟩
  | _ => none
termination_by sizeOf j
decreasing_by
  have := Json.sizeOf_of_record _h (j := .obj members) (by simp [_hc])
  simp at this
  omega

end

end SqlBuilder
