import Mathlib.Data.List.Forall2
import SqlBuilder.Pieces
import SqlBuilder.Proofs.Outcome

/-!
# What a rendered statement is made of

Each line of a rendered statement is woven from the pieces of some of its fragments, in
their order, with text between them. `Snapshot.lines` says which fragments stand on which
line.
-/
namespace SqlBuilder

open List (Forall₂)

theorem Fragment.pieces_eq (f : Fragment) (depth : Nat) :
    f.pieces depth = partsPieces depth f.parts := by
  cases f
  rfl

theorem Snapshot.pieces_eq (s : Snapshot) (depth : Nat) :
    s.pieces depth =
      (Lines.ofKind s.kind s.table (tableEntries depth s.clauses)).map
        (Lines.join depth s.isSub) := by
  cases s
  rfl

theorem Snapshot.clause_clear (s : Snapshot) (c : ClauseKind) : s.clear.clause c = [] := by
  rw [clear, clause, PerClause.get_ofFn]
  rfl

theorem get_tableEntries (s : Snapshot) (depth : Nat) (c : ClauseKind) :
    (tableEntries depth s.clauses).get c = (s.clause c).map (Fragment.entry depth) := by
  rw [tableEntries_eq_map, PerClause.get_map, Snapshot.clause]

theorem PerClause.foreign?_congr {α β : Type} {c : PerClause (List α)} {d : PerClause (List β)}
    (h : ∀ k, (c.get k).isEmpty = (d.get k).isEmpty) : c.foreign? = d.foreign? := by
  simp only [foreign?, h]

namespace Lines

def columns (c : PerClause (List Entry)) : Outcome Pieces :=
  if c.select.isEmpty && c.aggregate.isEmpty then .ok [.text "*"]
  else Entry.commaList (c.select ++ c.aggregate)

def source (table : Option String) (c : PerClause (List Entry)) : Outcome Pieces :=
  if c.source.isEmpty then (requireTable table).map fun name => [.text name]
  else Entry.commaList c.source

theorem select_eq (table : Option String) (c : PerClause (List Entry)) :
    select table c = (do
      let columns ← columns c
      let source ← source table c
      let joins ← Entry.bodies c.join
      let filter ← keywordPredicates "WHERE" c.filter
      let grouping ← keywordList "GROUP BY" c.grouping
      let having ← keywordPredicates "HAVING" c.having
      let tail ← tail c
      return [.text "SELECT " :: columns, .text "FROM " :: source] ++ joins ++ filter ++ grouping
        ++ having ++ tail) := by
  unfold select columns source
  by_cases hc : (c.select.isEmpty && c.aggregate.isEmpty) = true
  · have hnone : Entry.commaList (c.select ++ c.aggregate) = .ok [] := by
      have h : c.select = [] ∧ c.aggregate = [] := by simpa using hc
      rw [h.1, h.2]
      rfl
    rw [hnone]
    by_cases hf : c.source.isEmpty = true
    · simp only [hc, hf]; rfl
    · simp only [hc, hf]; rfl
  · by_cases hf : c.source.isEmpty = true
    · simp only [hc, hf]; rfl
    · simp only [hc, hf]; rfl

def inserted (name : String) (columns : Entry) (rows : List Entry) : Outcome Lines := do
  let rows ← Entry.bodies rows
  let columns ← columns.body
  let tuples := rows.map fun r => .text "(" :: r ++ [.text ")"]
  return [.text ("INSERT INTO " ++ name ++ " (") :: columns ++ [.text ")"],
    .text "VALUES " :: [Piece.text ", "].intercalate tuples]

theorem insert_eq (table : Option String) (c : PerClause (List Entry)) :
    insert table c = (do
      let name ← requireTable table
      match c.foreign? with
      | some k => .error (.shape (.clauseOnInsert k))
      | none => match c.insert with
        | columns :: row :: rows => inserted name columns (row :: rows)
        | _ => .error (.shape .insertWithoutRow)) := rfl

end Lines

theorem partsPieces_append (depth : Nat) (ps qs : List Part) :
    partsPieces depth (ps ++ qs) = (do
      let first ← partsPieces depth ps
      let rest ← partsPieces depth qs
      return first ++ rest) := by
  induction ps with
  | nil =>
    rw [List.nil_append, partsPieces]
    cases partsPieces depth qs <;> rfl
  | cons p ps ih =>
    rw [List.cons_append, partsPieces, partsPieces, ih]
    cases p.pieces depth with
    | error e => rfl
    | ok a =>
      cases partsPieces depth ps with
      | error e => rfl
      | ok b =>
        cases partsPieces depth qs with
        | error e => rfl
        | ok c => exact congrArg Except.ok (List.append_assoc a b c).symm

namespace Fragment

variable (f g : Fragment) (depth : Nat)

theorem pieces_ofText (text : String) : (ofText text).pieces depth = .ok [.text text] := rfl

theorem pieces_after (text : String) :
    (f.after text).pieces depth = (f.pieces depth).map fun ps => .text text :: ps := by
  rw [pieces_eq, pieces_eq, after, partsPieces]
  cases partsPieces depth f.parts <;> rfl

theorem pieces_before (text : String) :
    (f.before text).pieces depth = (f.pieces depth).map fun ps => ps ++ [.text text] := by
  rw [pieces_eq, pieces_eq, before, partsPieces_append]
  cases partsPieces depth f.parts <;> rfl

theorem pieces_join (sep : String) :
    (f.join sep g).pieces depth = (do
      let first ← f.pieces depth
      let rest ← g.pieces depth
      return first ++ .text sep :: rest) := by
  rw [pieces_eq, pieces_eq, pieces_eq, join, partsPieces_append, partsPieces]
  cases partsPieces depth f.parts with
  | error e => rfl
  | ok a => cases partsPieces depth g.parts <;> rfl

theorem pieces_withOp (op : BoolOp) : (f.withOp op).pieces depth = f.pieces depth := by
  rw [pieces_eq, pieces_eq, withOp]

end Fragment

/-- The parts in their order, with texts before, between and behind them. -/
inductive Woven : List Pieces → Pieces → Prop where
  | none : Woven [] []
  | glue (text : String) {parts : List Pieces} {line : Pieces} : Woven parts line →
      Woven parts (.text text :: line)
  | part (a : Pieces) {parts : List Pieces} {line : Pieces} : Woven parts line →
      Woven (a :: parts) (a ++ line)

namespace Woven

variable {parts parts' : List Pieces} {line line' : Pieces}

theorem single (a : Pieces) : Woven [a] a := by
  have h := Woven.part a .none
  rwa [List.append_nil] at h

theorem append (h : Woven parts line) (h' : Woven parts' line') :
    Woven (parts ++ parts') (line ++ line') := by
  induction h with
  | none => exact h'
  | glue text _ ih => exact .glue text ih
  | part a _ ih =>
    rw [List.cons_append, List.append_assoc]
    exact .part a ih

theorem ended (h : Woven parts line) (text : String) : Woven parts (line ++ [.text text]) := by
  have hend := h.append (.glue text .none)
  rwa [List.append_nil] at hend

theorem intercalate {lines : List Pieces} {partss : List (List Pieces)} (text : String)
    (h : Forall₂ Woven partss lines) :
    Woven partss.flatten ([Piece.text text].intercalate lines) := by
  induction h with
  | nil => exact .none
  | @cons parts line partss lines hline hrest ih =>
    cases hrest with
    | nil => simpa using hline
    | cons _ _ =>
      rw [List.intercalate_cons_cons, List.flatten_cons, List.append_assoc]
      exact hline.append (.glue text ih)

end Woven

def Entry.Line (xs : List Entry) (line : Pieces) : Prop :=
  ∃ parts, Forall₂ (fun x a => x.body = .ok a) xs parts ∧ Woven parts line

namespace Entry

theorem line_commaList {xs : List Entry} {line : Pieces} (h : commaList xs = .ok line) :
    Line xs line := by
  induction xs generalizing line with
  | nil =>
    cases h
    exact ⟨[], .nil, .none⟩
  | cons x xs ih =>
    cases xs with
    | nil => exact ⟨[line], .cons h .nil, .single line⟩
    | cons y ys =>
      obtain ⟨a, ha, h⟩ := Outcome.exists_of_bind_eq_ok h
      obtain ⟨rest, hrest, h⟩ := Outcome.exists_of_bind_eq_ok h
      cases h
      obtain ⟨parts, hparts, hwoven⟩ := ih hrest
      exact ⟨a :: parts, .cons ha hparts, .part a (.glue ", " hwoven)⟩

theorem line_predicateTail {xs : List Entry} {line : Pieces} (h : predicateTail xs = .ok line) :
    Line xs line := by
  induction xs generalizing line with
  | nil =>
    cases h
    exact ⟨[], .nil, .none⟩
  | cons x xs ih =>
    cases xs with
    | nil => exact ⟨[line], .cons h .nil, .single line⟩
    | cons y ys =>
      obtain ⟨a, ha, h⟩ := Outcome.exists_of_bind_eq_ok h
      obtain ⟨rest, hrest, h⟩ := Outcome.exists_of_bind_eq_ok h
      obtain ⟨parts, hparts, hwoven⟩ := ih hrest
      refine ⟨a :: parts, .cons ha hparts, ?_⟩
      dsimp only at h
      split at h
      · cases h
        rw [List.append_assoc]
        exact .part a (.glue _ (.glue "(" (hwoven.ended ")")))
      · cases h
        exact .part a (.glue _ hwoven)

theorem Line.glue (text : String) {xs : List Entry} {line : Pieces} (h : Line xs line) :
    Line xs (.text text :: line) := by
  obtain ⟨parts, hparts, hwoven⟩ := h
  exact ⟨parts, hparts, .glue text hwoven⟩

theorem line_nil (text : String) : Line [] [.text text] := ⟨[], .nil, .glue text .none⟩

theorem line_single {x : Entry} {a : Pieces} (h : x.body = .ok a) : Line [x] a :=
  ⟨[a], .cons h .nil, .single a⟩

theorem lines_bodies {xs : List Entry} {as : List Pieces} (h : bodies xs = .ok as) :
    Forall₂ Line (xs.map fun x => [x]) as := by
  rw [List.forall₂_map_left_iff]
  exact (Outcome.forall₂_of_mapM_eq_ok h).imp fun _ _ => line_single

end Entry

def whole {α : Type} (xs : List α) : List (List α) := if xs.isEmpty then [] else [xs]

def PerClause.ending {α : Type} (c : PerClause (List α)) : List (List α) :=
  whole c.ordering ++ c.limit.map fun x => [x]

/-- What stands on each line of a statement, in order. -/
def PerClause.lineup {α : Type} (kind : Option StatementKind) (c : PerClause (List α)) :
    List (List α) :=
  match kind.getD .select with
  | .select => [c.select ++ c.aggregate, c.source] ++ c.join.map (fun x => [x]) ++ whole c.filter
      ++ whole c.grouping ++ whole c.having ++ c.ending
  | .insert => [c.insert.take 1, c.insert.drop 1]
  | .update => [[], c.update] ++ whole c.filter ++ c.ending
  | .delete => [[]] ++ whole c.filter ++ c.ending

theorem map_whole {α β : Type} (f : α → β) (xs : List α) :
    (whole xs).map (List.map f) = whole (xs.map f) := by
  cases xs <;> rfl

theorem PerClause.lineup_map {α β : Type} (f : α → β) (kind : Option StatementKind)
    (c : PerClause (List α)) :
    (c.map (List.map f)).lineup kind = (c.lineup kind).map (List.map f) := by
  unfold lineup ending
  cases kind.getD .select <;> simp [map, map_whole, Function.comp_def]

def StatementKind.clauses : StatementKind → List ClauseKind
  | .select => [.select, .aggregate, .source, .join, .filter, .grouping, .having, .ordering, .limit]
  | .insert => [.insert]
  | .update => [.update, .filter, .ordering, .limit]
  | .delete => [.filter, .ordering, .limit]

theorem flatten_whole {α : Type} (xs : List α) : (whole xs).flatten = xs := by
  cases xs <;> simp [whole]

theorem flatten_singletons {α : Type} (xs : List α) : (xs.map fun x => [x]).flatten = xs := by
  rw [← List.flatMap_def, List.flatMap_singleton']

theorem PerClause.flatten_lineup {α : Type} (kind : Option StatementKind)
    (c : PerClause (List α)) :
    (c.lineup kind).flatten = (kind.getD .select).clauses.flatMap c.get := by
  have hinsert := List.take_append_drop 1 c.insert
  unfold lineup ending
  cases kind.getD .select with
  | insert =>
    simp only [StatementKind.clauses, List.flatMap_cons, List.flatMap_nil, List.flatten_cons,
      List.flatten_nil, List.append_nil, hinsert, get]
  | _ => simp [StatementKind.clauses, get, flatten_whole, flatten_singletons]

namespace Lines

variable {table : Option String} {c : PerClause (List Entry)} {lines : Lines}

theorem lines_keywordList {keyword : String} {xs : List Entry}
    (h : keywordList keyword xs = .ok lines) : Forall₂ Entry.Line (whole xs) lines := by
  rw [keywordList] at h
  rw [whole]
  by_cases hempty : xs.isEmpty = true
  · rw [if_pos hempty] at h ⊢
    cases h
    exact .nil
  · rw [if_neg hempty] at h ⊢
    obtain ⟨list, hlist, rfl⟩ := Outcome.exists_of_map_eq_ok h
    exact .cons ((Entry.line_commaList hlist).glue _) .nil

theorem lines_keywordPredicates {keyword : String} {xs : List Entry}
    (h : keywordPredicates keyword xs = .ok lines) : Forall₂ Entry.Line (whole xs) lines := by
  obtain ⟨list, hlist, rfl⟩ := Outcome.exists_of_map_eq_ok h
  rw [Entry.predicates] at hlist
  rw [whole]
  by_cases hempty : xs.isEmpty = true
  · rw [if_pos hempty] at hlist ⊢
    cases hlist
    exact .nil
  · rw [if_neg hempty] at hlist ⊢
    obtain ⟨tail, htail, rfl⟩ := Outcome.exists_of_map_eq_ok hlist
    obtain ⟨parts, hparts, hwoven⟩ := Entry.line_predicateTail htail
    exact .cons ⟨parts, hparts, .glue _ (.glue "(" (hwoven.ended ")"))⟩ .nil

theorem lines_tail (h : tail c = .ok lines) : Forall₂ Entry.Line c.ending lines := by
  obtain ⟨ordering, hordering, h⟩ := Outcome.exists_of_bind_eq_ok h
  obtain ⟨limits, hlimits, h⟩ := Outcome.exists_of_bind_eq_ok h
  cases h
  exact List.rel_append (lines_keywordList hordering) (Entry.lines_bodies hlimits)

theorem line_columns {line : Pieces} (h : columns c = .ok line) :
    Entry.Line (c.select ++ c.aggregate) line := by
  rw [columns] at h
  by_cases hempty : (c.select.isEmpty && c.aggregate.isEmpty) = true
  · have hnone : c.select = [] ∧ c.aggregate = [] := by simpa using hempty
    rw [if_pos hempty] at h
    cases h
    rw [hnone.1, hnone.2]
    exact Entry.line_nil "*"
  · rw [if_neg hempty] at h
    exact Entry.line_commaList h

theorem line_source {line : Pieces} (h : source table c = .ok line) :
    Entry.Line c.source line := by
  rw [source] at h
  by_cases hempty : c.source.isEmpty = true
  · rw [if_pos hempty] at h
    obtain ⟨name, -, rfl⟩ := Outcome.exists_of_map_eq_ok h
    rw [List.isEmpty_iff.mp hempty]
    exact Entry.line_nil name
  · rw [if_neg hempty] at h
    exact Entry.line_commaList h

theorem lines_select (h : select table c = .ok lines) :
    Forall₂ Entry.Line (c.lineup (some .select)) lines := by
  rw [select_eq] at h
  obtain ⟨columns, hcolumns, h⟩ := Outcome.exists_of_bind_eq_ok h
  obtain ⟨source, hsource, h⟩ := Outcome.exists_of_bind_eq_ok h
  obtain ⟨joins, hjoins, h⟩ := Outcome.exists_of_bind_eq_ok h
  obtain ⟨filter, hfilter, h⟩ := Outcome.exists_of_bind_eq_ok h
  obtain ⟨grouping, hgrouping, h⟩ := Outcome.exists_of_bind_eq_ok h
  obtain ⟨having, hhaving, h⟩ := Outcome.exists_of_bind_eq_ok h
  obtain ⟨tail, htail, h⟩ := Outcome.exists_of_bind_eq_ok h
  cases h
  have hhead : Forall₂ Entry.Line [c.select ++ c.aggregate, c.source]
      [.text "SELECT " :: columns, .text "FROM " :: source] :=
    .cons ((line_columns hcolumns).glue _) (.cons ((line_source hsource).glue _) .nil)
  have hfiltered := List.rel_append (List.rel_append hhead (Entry.lines_bodies hjoins))
    (lines_keywordPredicates hfilter)
  have hgrouped := List.rel_append (List.rel_append hfiltered (lines_keywordList hgrouping))
    (lines_keywordPredicates hhaving)
  exact List.rel_append hgrouped (lines_tail htail)

theorem line_tuples {xs : List Entry} {rows : List Pieces} (h : Entry.bodies xs = .ok rows) :
    Entry.Line xs ([Piece.text ", "].intercalate
      (rows.map fun r => .text "(" :: r ++ [.text ")"])) := by
  refine ⟨rows, Outcome.forall₂_of_mapM_eq_ok h, ?_⟩
  have htuples : Forall₂ Woven (rows.map fun r => [r])
      (rows.map fun r => .text "(" :: r ++ [.text ")"]) := by
    rw [List.forall₂_map_left_iff, List.forall₂_map_right_iff]
    exact List.forall₂_same.mpr fun r _ => .glue "(" ((Woven.single r).ended ")")
  have hwoven := Woven.intercalate ", " htuples
  rwa [flatten_singletons] at hwoven

theorem lines_insert (h : insert table c = .ok lines) :
    Forall₂ Entry.Line (c.lineup (some .insert)) lines := by
  rw [insert_eq] at h
  obtain ⟨name, -, h⟩ := Outcome.exists_of_bind_eq_ok h
  split at h
  · cases h
  split at h
  · rename_i columns row rows hrows
    obtain ⟨tuples, htuples, h⟩ := Outcome.exists_of_bind_eq_ok h
    obtain ⟨list, hlist, h⟩ := Outcome.exists_of_bind_eq_ok h
    cases h
    have hline : Entry.Line [columns] (.text ("INSERT INTO " ++ name ++ " (") :: list
        ++ [.text ")"]) := ⟨[list], .cons hlist .nil, .glue _ ((Woven.single list).ended ")")⟩
    show Forall₂ Entry.Line [c.insert.take 1, c.insert.drop 1] _
    rw [hrows]
    exact .cons hline (.cons ((line_tuples htuples).glue "VALUES ") .nil)
  · cases h

theorem lines_update (h : update table c = .ok lines) :
    Forall₂ Entry.Line (c.lineup (some .update)) lines := by
  obtain ⟨name, -, h⟩ := Outcome.exists_of_bind_eq_ok h
  split at h
  · cases h
  obtain ⟨row, hrow, h⟩ := Outcome.exists_of_bind_eq_ok h
  obtain ⟨filter, hfilter, h⟩ := Outcome.exists_of_bind_eq_ok h
  obtain ⟨tail, htail, h⟩ := Outcome.exists_of_bind_eq_ok h
  cases h
  have hhead : Forall₂ Entry.Line [[], c.update]
      [[.text ("UPDATE " ++ name)], .text "SET " :: row] :=
    .cons (Entry.line_nil _) (.cons ((Entry.line_commaList hrow).glue _) .nil)
  have hfiltered := List.rel_append hhead (lines_keywordPredicates hfilter)
  exact List.rel_append hfiltered (lines_tail htail)

theorem lines_delete (h : delete table c = .ok lines) :
    Forall₂ Entry.Line (c.lineup (some .delete)) lines := by
  obtain ⟨name, -, h⟩ := Outcome.exists_of_bind_eq_ok h
  obtain ⟨filter, hfilter, h⟩ := Outcome.exists_of_bind_eq_ok h
  obtain ⟨tail, htail, h⟩ := Outcome.exists_of_bind_eq_ok h
  cases h
  have hhead : Forall₂ Entry.Line [[]] [[.text ("DELETE FROM " ++ name)]] :=
    .cons (Entry.line_nil _) .nil
  exact List.rel_append (List.rel_append hhead (lines_keywordPredicates hfilter)) (lines_tail htail)

/-- Every line of a statement is woven from what its kind puts there. -/
theorem lines_ofKind {kind : Option StatementKind} (h : ofKind kind table c = .ok lines) :
    Forall₂ Entry.Line (c.lineup kind) lines := by
  rw [ofKind] at h
  rw [PerClause.lineup]
  cases hk : kind.getD .select with
  | select => rw [hk] at h; exact lines_select h
  | insert => rw [hk] at h; exact lines_insert h
  | update => rw [hk] at h; exact lines_update h
  | delete => rw [hk] at h; exact lines_delete h

end Lines

namespace Snapshot

/-- The fragments on each line of a statement, in order. -/
def lines (s : Snapshot) : List (List Fragment) :=
  (s.clauses.map fun fs => fs.getD []).lineup s.kind

theorem flatten_lines (s : Snapshot) :
    s.lines.flatten = (s.kind.getD .select).clauses.flatMap s.clause := by
  have hget : s.clause = (s.clauses.map fun fs => fs.getD []).get := by
    funext c
    rw [PerClause.get_map, clause]
  rw [lines, PerClause.flatten_lineup, hget]

def Line (depth : Nat) (fs : List Fragment) (line : Pieces) : Prop :=
  ∃ parts, Forall₂ (fun f a => f.pieces depth = .ok a) fs parts ∧ Woven parts line

/-- A rendered statement consists of its lines, each woven from its fragments. -/
theorem lines_of_pieces {s : Snapshot} {depth : Nat} {ps : Pieces} (h : s.pieces depth = .ok ps) :
    ∃ lines, Forall₂ (Line depth) s.lines lines ∧ ps = Lines.join depth s.isSub lines := by
  rw [pieces_eq] at h
  obtain ⟨lines, hlines, rfl⟩ := Outcome.exists_of_map_eq_ok h
  refine ⟨lines, ?_, rfl⟩
  have htable : tableEntries depth s.clauses =
      (s.clauses.map fun fs => fs.getD []).map (List.map (Fragment.entry depth)) := by
    rw [tableEntries_eq_map]
    rfl
  have hall := Lines.lines_ofKind hlines
  rw [htable, PerClause.lineup_map, List.forall₂_map_left_iff] at hall
  apply hall.imp
  intro fs line hline
  obtain ⟨parts, hparts, hwoven⟩ := hline
  exact ⟨parts, List.forall₂_map_left_iff.mp hparts, hwoven⟩

end Snapshot

end SqlBuilder
