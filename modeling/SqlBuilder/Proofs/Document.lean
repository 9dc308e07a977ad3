import SqlBuilder.Snapshot.Json
import SqlBuilder.Statement.Call
import SqlBuilder.Proofs.Block

/-!
# Snapshots read back from documents

The reader of documents undoes the writer, whatever is nested in a snapshot, so a statement
that goes on from a decoded view renders as the original.
-/
namespace SqlBuilder

def Snapshot.Decodes (s : Snapshot) : Prop := Snapshot.ofJson? s.toJson = some s

theorem StatementKind.ofKey?_key (k : StatementKind) : ofKey? k.key = some k := by
  cases k <;> decide

theorem BoolOp.ofKey?_keyword (op : BoolOp) : ofKey? op.keyword = some op := by
  cases op <;> decide

theorem partsOfJson?_partsToJson {ps : List Part} (h : ∀ s, .sub s ∈ ps → s.Decodes) :
    partsOfJson? (partsToJson ps) = some ps := by
  induction ps with
  | nil => rw [partsToJson, partsOfJson?]
  | cons p ps ih =>
    have hrest := ih fun s hs => h s (List.mem_cons_of_mem p hs)
    have hpart : Part.ofJson? p.toJson = some p := by
      cases p with
      | sql text => simp [Part.toJson, Part.ofJson?, Json.string?]
      | sub s =>
        have hs : Snapshot.ofJson? s.toJson = some s := h s List.mem_cons_self
        simp [Part.toJson, Part.ofJson?, hs]
    rw [partsToJson, partsOfJson?, hpart, hrest]
    rfl

theorem Fragment.ofJson?_of_record {j : Json} {parts : List Json} {op : Option Json}
    (h : j.record? fragmentNames = some [some (.arr parts), op]) :
    Fragment.ofJson? j = do
      let parts ← partsOfJson? parts
      let op ← Json.optional (fun j => j.tag?.bind BoolOp.ofKey?) op
      return ⟨parts, op⟩ := by
  rw [Fragment.ofJson?]
  split
  · rename_i hrecord
    rw [h] at hrecord
    cases hrecord
    rfl
  · rename_i hother
    exact absurd h (hother parts op)

theorem Fragment.ofJson?_toJson {f : Fragment} (h : ∀ s, .sub s ∈ f.parts → s.Decodes) :
    Fragment.ofJson? f.toJson = some f := by
  obtain ⟨parts, op⟩ := f
  have hparts : partsOfJson? (partsToJson parts) = some parts := partsOfJson?_partsToJson h
  cases op with
  | none =>
    rw [Fragment.toJson, Fragment.ofJson?_of_record rfl, hparts]
    rfl
  | some op =>
    have hrecord : (Json.obj [("parts", .arr (partsToJson parts)),
        ("op", .str op.keyword)]).record? fragmentNames =
          some [some (.arr (partsToJson parts)), some (.str op.keyword)] := rfl
    have hop : (Json.str op.keyword).tag?.bind BoolOp.ofKey? = some op := BoolOp.ofKey?_keyword op
    rw [Fragment.toJson, Fragment.ofJson?_of_record hrecord, hparts]
    simp [Json.optional, hop]

theorem fragmentsOfJson?_fragmentsToJson {fs : List Fragment}
    (h : ∀ f ∈ fs, ∀ s, .sub s ∈ f.parts → s.Decodes) :
    fragmentsOfJson? (fragmentsToJson fs) = some fs := by
  induction fs with
  | nil => rw [fragmentsToJson, fragmentsOfJson?]
  | cons f fs ih =>
    rw [List.forall_mem_cons] at h
    rw [fragmentsToJson, fragmentsOfJson?, Fragment.ofJson?_toJson h.1, ih h.2]
    rfl

def PerClause.put (c : ClauseKind) (fs : Option (List Fragment))
    (p : PerClause (Option (List Fragment))) : PerClause (Option (List Fragment)) :=
  match fs with
  | none => p
  | some fs => p.set c (some fs)

theorem tableToJson_eq (p : PerClause (Option (List Fragment))) :
    tableToJson p = ClauseKind.all.flatMap fun c => clauseToJson c (p.get c) := by
  cases p
  simp [tableToJson, ClauseKind.all, PerClause.get]

theorem tableOfJson?_clauseToJson {c : ClauseKind} {fs : Option (List Fragment)}
    (h : ∀ f ∈ fs.getD [], ∀ s, .sub s ∈ f.parts → s.Decodes) (ms : List (String × Json)) :
    tableOfJson? (clauseToJson c fs ++ ms) = (tableOfJson? ms).map (PerClause.put c fs) := by
  cases fs with
  | none =>
    rw [clauseToJson, List.nil_append]
    cases tableOfJson? ms <;> rfl
  | some fs =>
    have hfs : fragmentsOfJson? (fragmentsToJson fs) = some fs :=
      fragmentsOfJson?_fragmentsToJson h
    rw [clauseToJson, List.singleton_append, tableOfJson?, ClauseKind.ofKey?_key, hfs]
    cases tableOfJson? ms <;> rfl

theorem tableOfJson?_flatMap {p : PerClause (Option (List Fragment))}
    (h : ∀ c, ∀ f ∈ (p.get c).getD [], ∀ s, .sub s ∈ f.parts → s.Decodes)
    (cs : List ClauseKind) :
    ∃ q, tableOfJson? (cs.flatMap fun c => clauseToJson c (p.get c)) = some q ∧
      ∀ c, q.get c = if c ∈ cs then p.get c else none := by
  induction cs with
  | nil => exact ⟨.ofFn fun _ => none, by rw [List.flatMap_nil, tableOfJson?], by simp⟩
  | cons c cs ih =>
    obtain ⟨q, hq, hget⟩ := ih
    refine ⟨q.put c (p.get c), ?_, fun c' => ?_⟩
    · rw [List.flatMap_cons, tableOfJson?_clauseToJson (h c), hq]
      rfl
    · cases hc : p.get c with
      | none =>
        rw [PerClause.put, hget]
        by_cases heq : c' = c
        · subst heq
          simp [hc]
        · simp [heq]
      | some fs =>
        rw [PerClause.put]
        by_cases heq : c' = c
        · subst heq
          simp [hc]
        · rw [PerClause.get_set_of_ne _ _ heq, hget]
          simp [heq]

theorem tableOfJson?_tableToJson {p : PerClause (Option (List Fragment))}
    (h : ∀ c, ∀ f ∈ (p.get c).getD [], ∀ s, .sub s ∈ f.parts → s.Decodes) :
    tableOfJson? (tableToJson p) = some p := by
  obtain ⟨q, hq, hget⟩ := tableOfJson?_flatMap h ClauseKind.all
  have heq : q = p := PerClause.ext_get fun c => by rw [hget, if_pos (ClauseKind.mem_all c)]
  rw [tableToJson_eq, hq, heq]

theorem Snapshot.ofJson?_of_record {j : Json} {kind table isSub : Option Json}
    {members : List (String × Json)}
    (h : j.record? snapshotNames = some [kind, table, isSub, some (.obj members)]) :
    Snapshot.ofJson? j = do
      let kind ← Json.optional (fun j => j.tag?.bind StatementKind.ofKey?) kind
      let table ← Json.optional Json.string? table
      let isSub ← Json.flag? isSub
      return ⟨kind, table, isSub, ← tableOfJson? members⟩ := by
  rw [Snapshot.ofJson?]
  split
  · rename_i hrecord
    rw [h] at hrecord
    cases hrecord
    rfl
  · rename_i hother
    exact absurd h (hother _ _ _ _)

/-- The document of an optional choice; one that is not made is null. -/
def Json.ofOption {α : Type} (write : α → String) : Option α → Json
  | none => .null
  | some a => .str (write a)

theorem Snapshot.record_toJson (kind : Option StatementKind) (table : Option String)
    (isSub : Bool) (clauses : PerClause (Option (List Fragment))) :
    (toJson ⟨kind, table, isSub, clauses⟩).record? snapshotNames =
      some [some (.ofOption StatementKind.key kind), some (.ofOption id table),
        some (.bool isSub), some (.obj (tableToJson clauses))] := by
  cases kind <;> cases table <;> rw [toJson] <;> rfl

theorem Snapshot.decodes (s : Snapshot) : s.Decodes := by
  induction s using Snapshot.nesting_induction with
  | step s ih =>
    obtain ⟨kind, table, isSub, clauses⟩ := s
    have hclauses : tableOfJson? (tableToJson clauses) = some clauses :=
      tableOfJson?_tableToJson ih
    have hkind : Json.optional (fun j => j.tag?.bind StatementKind.ofKey?)
        (some (.ofOption StatementKind.key kind)) = some kind := by
      cases kind with
      | none => rfl
      | some kind => exact congrArg (Option.map some) (StatementKind.ofKey?_key kind)
    have htable : Json.optional Json.string? (some (.ofOption id table)) = some table := by
      cases table <;> rfl
    rw [Decodes, Snapshot.ofJson?_of_record (record_toJson kind table isSub clauses), hkind,
      htable, hclauses]
    rfl

namespace Statement

/-- A snapshot written as a document and read back is the same, with every absent and every
empty clause, each part and each operator. So a statement without an error renders in either
layout as the one that goes on from its decoded view, in whichever dialect. -/
theorem views_survive_documents :
    (∀ view : Snapshot, Snapshot.ofJson? view.toJson = some view) ∧
    ∀ s : Statement, s.error = none → ∃ view decoded, s.toStructured = .ok view ∧
      Snapshot.ofJson? view.toJson = some decoded ∧
      ∀ d layout, (ofStructured d decoded).toSql layout = s.toSql layout := by
  refine ⟨Snapshot.decodes, fun s herror => ?_⟩
  have hchecked : s.checked = .ok s.state := by rw [checked, herror]
  refine ⟨s.state, s.state, hchecked, Snapshot.decodes s.state, fun d layout => ?_⟩
  rw [toSql, toSql, hchecked]
  rfl

def usersByRole : List Call :=
  [.table "users", .join .left (.text "teams") "" [],
   .filterInSub "role_id" ((new .postgres).run
     [.table "roles", .select (.text "id"), .filterWith "rank > ?" [.int 3] "or"]),
   .orFilter "active" []]

theorem usersByRole_survives :
    ((new .postgres).run usersByRole).error = none ∧
    ∃ view decoded, ((new .postgres).run usersByRole).toStructured = .ok view ∧
      Snapshot.ofJson? view.toJson = some decoded ∧
      (ofStructured .postgres decoded).toSql .compact =
        .ok ("SELECT * FROM \"users\" LEFT JOIN \"teams\" WHERE (\"role_id\" IN " ++
          "(SELECT \"id\" FROM \"roles\" WHERE (rank > 3)) OR active)") := by
  have herror : ((new .postgres).run usersByRole).error = none :=
    Option.isNone_iff_eq_none.mp (by decide +kernel)
  obtain ⟨view, decoded, hview, hdecoded, hsql⟩ := views_survive_documents.2 _ herror
  refine ⟨herror, view, decoded, hview, hdecoded, ?_⟩
  rw [hsql]
  exact Outcome.eq_ok_of_toOption (by decide +kernel)

end Statement

end SqlBuilder
