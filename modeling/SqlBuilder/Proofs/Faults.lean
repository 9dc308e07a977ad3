import SqlBuilder.Proofs.Render

/-!
# Where rendering stops

Each statement is checked once while it is rendered, at a point that its kind decides. Rendering
fails at the first check that does not hold, of the statement itself or of one nested in what it
shows.
-/
namespace SqlBuilder

open Relation (ReflTransGen)

theorem findSome?_cons_eq_or {α β : Type} (f : α → Option β) (x : α) (xs : List α) :
    (x :: xs).findSome? f = (f x).or (xs.findSome? f) := by
  rw [List.findSome?_cons]
  cases f x <;> rfl

theorem findSome?_flatMap_of {α β γ : Type} {xs : List α} {f : α → Option γ} {g : α → List β}
    {k : β → Option γ} (h : ∀ x ∈ xs, f x = (g x).findSome? k) :
    xs.findSome? f = (xs.flatMap g).findSome? k := by
  induction xs with
  | nil => rfl
  | cons x xs ih =>
    rw [List.forall_mem_cons] at h
    rw [findSome?_cons_eq_or, List.flatMap_cons, List.findSome?_append, h.1, ih h.2]

namespace Outcome

variable {α β : Type}

def failure? : Outcome α → Option SqlError
  | .ok _ => none
  | .error e => some e

theorem failure?_eq_some {x : Outcome α} {e : SqlError} : x.failure? = some e ↔ x = .error e := by
  cases x with
  | ok a => exact ⟨nofun, nofun⟩
  | error e' => rw [failure?, Option.some.injEq, Except.error.injEq]

theorem failure?_map (x : Outcome α) (f : α → β) : failure? (x.map f) = x.failure? := by
  cases x <;> rfl

theorem failure?_bind (x : Outcome α) {f : α → Outcome β} {o : Option SqlError}
    (h : ∀ a, (f a).failure? = o) : failure? (x >>= f) = x.failure?.or o := by
  cases x with
  | ok a => exact h a
  | error e => rfl

theorem failure?_mapM (xs : List α) (f : α → Outcome β) :
    failure? (xs.mapM f) = xs.findSome? fun x => (f x).failure? := by
  induction xs with
  | nil => rfl
  | cons x xs ih =>
    rw [List.mapM_cons, findSome?_cons_eq_or, ← ih]
    exact failure?_bind _ fun a => failure?_map (xs.mapM f) fun as => a :: as

end Outcome

namespace Entry

def fault? (x : Entry) : Option SqlError := Outcome.failure? x.body

theorem failure?_commaList (xs : List Entry) :
    (commaList xs).failure? = xs.findSome? fault? := by
  induction xs with
  | nil => rfl
  | cons x xs ih =>
    cases xs with
    | nil => rw [findSome?_cons_eq_or, List.findSome?_nil, Option.or_none]; rfl
    | cons y ys =>
      rw [findSome?_cons_eq_or, ← ih]
      exact Outcome.failure?_bind _ fun a => Outcome.failure?_map (commaList (y :: ys)) _

theorem failure?_predicateTail (xs : List Entry) :
    (predicateTail xs).failure? = xs.findSome? fault? := by
  induction xs with
  | nil => rfl
  | cons x xs ih =>
    cases xs with
    | nil => rw [findSome?_cons_eq_or, List.findSome?_nil, Option.or_none]; rfl
    | cons y ys =>
      rw [findSome?_cons_eq_or, ← ih, predicateTail]
      refine Outcome.failure?_bind _ fun a => ?_
      cases predicateTail (y :: ys) with
      | error e => rfl
      | ok tail =>
        show Outcome.failure? (ite _ _ _) = none
        split <;> rfl

theorem failure?_bodies (xs : List Entry) : (bodies xs).failure? = xs.findSome? fault? :=
  Outcome.failure?_mapM xs Entry.body

end Entry

def tableFault? (table : Option String) : Option SqlError :=
  if table.isNone then some .missingTable else none

namespace PerClause

variable {α β : Type}

/-- What a statement fails for by itself. A SELECT needs no target if something stands behind
FROM; the others need one first of all. -/
def fault? (kind : Option StatementKind) (table : Option String) (c : PerClause (List α)) :
    Option SqlError :=
  match kind.getD .select with
  | .select => if c.source.isEmpty then tableFault? table else none
  | .insert => (tableFault? table).or <| match c.foreign? with
    | some k => some (.shape (.clauseOnInsert k))
    | none => if c.insert.length < 2 then some (.shape .insertWithoutRow) else none
  | .update => (tableFault? table).or <|
    if c.update.isEmpty then some (.shape .updateWithoutAssignment) else none
  | .delete => tableFault? table

/-- What is rendered one after the other, with nothing for the check of the statement itself. The
rows of an INSERT come before its columns. -/
def agenda (kind : Option StatementKind) (c : PerClause (List α)) : List (Option α) :=
  match kind.getD .select with
  | .select => (c.select ++ c.aggregate).map some ++ none :: (c.source ++ c.join ++ c.filter
      ++ c.grouping ++ c.having ++ (c.ordering ++ c.limit)).map some
  | .insert => none :: (c.insert.drop 1 ++ c.insert.take 1).map some
  | .update => none :: (c.update ++ c.filter ++ (c.ordering ++ c.limit)).map some
  | .delete => none :: (c.filter ++ (c.ordering ++ c.limit)).map some

theorem fault?_map (f : α → β) (kind : Option StatementKind) (table : Option String)
    (c : PerClause (List α)) : (c.map (List.map f)).fault? kind table = c.fault? kind table := by
  have hforeign : (c.map (List.map f)).foreign? = c.foreign? := by simp [foreign?]
  rw [fault?, fault?, hforeign]
  simp [map]

theorem agenda_map (f : α → β) (kind : Option StatementKind) (c : PerClause (List α)) :
    (c.map (List.map f)).agenda kind = (c.agenda kind).map (Option.map f) := by
  rw [agenda, agenda]
  cases kind.getD .select <;> simp [map, Function.comp_def]

end PerClause

namespace Lines

open Outcome (failure?_bind failure?_map)

variable (table : Option String) (c : PerClause (List Entry))

theorem failure?_keywordList (keyword : String) (xs : List Entry) :
    (keywordList keyword xs).failure? = xs.findSome? Entry.fault? := by
  cases xs with
  | nil => rfl
  | cons x xs => exact (failure?_map _ _).trans (Entry.failure?_commaList (x :: xs))

theorem failure?_keywordPredicates (keyword : String) (xs : List Entry) :
    (keywordPredicates keyword xs).failure? = xs.findSome? Entry.fault? := by
  cases xs with
  | nil => rfl
  | cons x xs =>
    rw [keywordPredicates, failure?_map]
    exact (failure?_map _ _).trans (Entry.failure?_predicateTail (x :: xs))

theorem failure?_requireTable : (requireTable table).failure? = tableFault? table := by
  cases table <;> rfl

theorem failure?_tail :
    (tail c).failure? = (c.ordering ++ c.limit).findSome? Entry.fault? := by
  rw [tail, List.findSome?_append, ← failure?_keywordList "ORDER BY", ← Entry.failure?_bodies]
  exact failure?_bind _ fun a => failure?_map (Entry.bodies c.limit) _

theorem failure?_columns :
    (columns c).failure? = (c.select ++ c.aggregate).findSome? Entry.fault? := by
  rw [columns]
  split
  · rename_i hempty
    have hnone : c.select = [] ∧ c.aggregate = [] := by simpa using hempty
    rw [hnone.1, hnone.2]
    rfl
  · exact Entry.failure?_commaList _

theorem failure?_source :
    (source table c).failure? = (if c.source.isEmpty then tableFault? table else none).or
      (c.source.findSome? Entry.fault?) := by
  rw [source]
  split
  · rename_i hempty
    rw [failure?_map, failure?_requireTable, List.isEmpty_iff.mp hempty, List.findSome?_nil,
      Option.or_none]
  · exact Entry.failure?_commaList _

/-- The first error of a list of things to render, or of the check among them. -/
def firstFault (own : Option SqlError) (agenda : List (Option Entry)) : Option SqlError :=
  agenda.findSome? fun
    | none => own
    | some x => x.fault?

theorem firstFault_some (own : Option SqlError) (xs : List Entry) :
    firstFault own (xs.map some) = xs.findSome? Entry.fault? := by
  rw [firstFault, List.findSome?_map]
  rfl

theorem firstFault_cons_none (own : Option SqlError) (agenda : List (Option Entry)) :
    firstFault own (none :: agenda) = own.or (firstFault own agenda) :=
  findSome?_cons_eq_or _ none agenda

theorem firstFault_append (own : Option SqlError) (before behind : List (Option Entry)) :
    firstFault own (before ++ behind) = (firstFault own before).or (firstFault own behind) :=
  List.findSome?_append

theorem failure?_select : (select table c).failure? =
    firstFault (c.fault? (some .select) table) (c.agenda (some .select)) := by
  have hchain : (select table c).failure? = (columns c).failure?.or ((source table c).failure?.or
      ((Entry.bodies c.join).failure?.or ((keywordPredicates "WHERE" c.filter).failure?.or
      ((keywordList "GROUP BY" c.grouping).failure?.or
      ((keywordPredicates "HAVING" c.having).failure?.or (tail c).failure?))))) := by
    rw [select_eq]
    refine failure?_bind _ fun _ => failure?_bind _ fun _ => failure?_bind _ fun _ =>
      failure?_bind _ fun _ => failure?_bind _ fun _ => failure?_bind _ fun _ => ?_
    exact failure?_map (tail c) _
  have hagenda : c.agenda (some .select) = (c.select ++ c.aggregate).map some ++
      none :: (c.source ++ c.join ++ c.filter ++ c.grouping ++ c.having
        ++ (c.ordering ++ c.limit)).map some := rfl
  have hown : c.fault? (some .select) table =
      if c.source.isEmpty then tableFault? table else none := rfl
  rw [hchain, hagenda, firstFault_append, firstFault_cons_none, firstFault_some, firstFault_some,
    hown, failure?_columns, failure?_source, Entry.failure?_bodies, failure?_keywordPredicates,
    failure?_keywordList, failure?_keywordPredicates, failure?_tail]
  simp only [List.findSome?_append, Option.or_assoc]

theorem failure?_inserted (name : String) (columns : Entry) (rows : List Entry) :
    (inserted name columns rows).failure? = (rows ++ [columns]).findSome? Entry.fault? := by
  rw [inserted, List.findSome?_append, ← Entry.failure?_bodies, findSome?_cons_eq_or,
    List.findSome?_nil]
  exact failure?_bind _ fun _ => failure?_bind _ fun _ => rfl

theorem failure?_insert : (insert table c).failure? =
    firstFault (c.fault? (some .insert) table) (c.agenda (some .insert)) := by
  have hagenda : c.agenda (some .insert) =
      none :: (c.insert.drop 1 ++ c.insert.take 1).map some := rfl
  have hown : c.fault? (some .insert) table = (tableFault? table).or (match c.foreign? with
      | some k => some (.shape (.clauseOnInsert k))
      | none => if c.insert.length < 2 then some (.shape .insertWithoutRow) else none) := rfl
  rw [insert_eq, hagenda, firstFault_cons_none, firstFault_some, hown, Option.or_assoc,
    ← failure?_requireTable]
  refine failure?_bind _ fun name => ?_
  cases c.foreign? with
  | some k => rfl
  | none =>
    rcases hrows : c.insert with _ | ⟨columns, _ | ⟨row, rows⟩⟩
    · rfl
    · rfl
    · rw [if_neg (by simp)]
      exact failure?_inserted name columns (row :: rows)

theorem failure?_update : (update table c).failure? =
    firstFault (c.fault? (some .update) table) (c.agenda (some .update)) := by
  have hagenda : c.agenda (some .update) =
      none :: (c.update ++ c.filter ++ (c.ordering ++ c.limit)).map some := rfl
  have hown : c.fault? (some .update) table = (tableFault? table).or
      (if c.update.isEmpty then some (.shape .updateWithoutAssignment) else none) := rfl
  rw [update, hagenda, firstFault_cons_none, firstFault_some, hown, Option.or_assoc,
    ← failure?_requireTable]
  refine failure?_bind _ fun name => ?_
  by_cases hempty : c.update.isEmpty = true
  · rw [if_pos hempty, if_pos hempty]
    rfl
  · rw [if_neg hempty, if_neg hempty, List.findSome?_append, List.findSome?_append,
      Option.or_assoc, ← Entry.failure?_commaList, ← failure?_keywordPredicates "WHERE",
      ← failure?_tail]
    exact failure?_bind _ fun _ => failure?_bind _ fun _ => failure?_map (tail c) _

theorem failure?_delete : (delete table c).failure? =
    firstFault (c.fault? (some .delete) table) (c.agenda (some .delete)) := by
  have hagenda : c.agenda (some .delete) =
      none :: (c.filter ++ (c.ordering ++ c.limit)).map some := rfl
  have hown : c.fault? (some .delete) table = tableFault? table := rfl
  rw [delete, hagenda, firstFault_cons_none, firstFault_some, hown, ← failure?_requireTable,
    List.findSome?_append, ← failure?_keywordPredicates "WHERE", ← failure?_tail]
  exact failure?_bind _ fun _ => failure?_bind _ fun _ => failure?_map (tail c) _

/-- The lines of a statement fail at the first check or entry that does. -/
theorem failure?_ofKind (kind : Option StatementKind) :
    (ofKind kind table c).failure? = firstFault (c.fault? kind table) (c.agenda kind) := by
  rw [ofKind]
  rw [PerClause.fault?.eq_def, PerClause.agenda.eq_def]
  cases kind.getD .select with
  | select => exact failure?_select table c
  | insert => exact failure?_insert table c
  | update => exact failure?_update table c
  | delete => exact failure?_delete table c

end Lines

namespace Fragment

theorem failure?_pieces (f : Fragment) (depth : Nat) :
    (f.pieces depth).failure? = f.subs.findSome? fun t => (t.pieces (depth + 1)).failure? := by
  have hparts (ps : List Part) : (partsPieces depth ps).failure? =
      (ps.filterMap Part.sub?).findSome? fun t => (t.pieces (depth + 1)).failure? := by
    induction ps with
    | nil => rfl
    | cons p ps ih =>
      have hchain : (partsPieces depth (p :: ps)).failure? =
          (p.pieces depth).failure?.or (partsPieces depth ps).failure? :=
        Outcome.failure?_bind _ fun _ => Outcome.failure?_map (partsPieces depth ps) _
      rw [hchain, ih]
      cases p with
      | sql text => rfl
      | sub t =>
        have hpart : (Part.pieces depth (.sub t)).failure? = (t.pieces (depth + 1)).failure? :=
          Outcome.failure?_map (t.pieces (depth + 1)) _
        have hsubs : (Part.sub t :: ps).filterMap Part.sub? = t :: ps.filterMap Part.sub? :=
          List.filterMap_cons_some rfl
        rw [hpart, hsubs, findSome?_cons_eq_or]
  rw [pieces_eq, hparts, subs]

end Fragment

namespace Snapshot

variable {s t : Snapshot}

def fault? (s : Snapshot) : Option SqlError :=
  (s.clauses.map fun fs => fs.getD []).fault? s.kind s.table

def agenda (s : Snapshot) : List (Option Fragment) :=
  (s.clauses.map fun fs => fs.getD []).agenda s.kind

/-- The other statement stands in a clause that the kind of this one renders. -/
def Renders (s t : Snapshot) : Prop := t ∈ s.subsIn (s.kind.getD .select).clauses

theorem Renders.holds (h : s.Renders t) : s.Holds t := by
  obtain ⟨c, -, hc⟩ := mem_subsIn.mp h
  exact holds_iff.mpr ⟨c, hc⟩

theorem mem_agenda {f : Fragment} :
    some f ∈ s.agenda ↔ ∃ c ∈ (s.kind.getD .select).clauses, f ∈ s.clause c := by
  have hget (c : ClauseKind) : s.clause c = (s.clauses.map fun fs => fs.getD []).get c := by
    rw [PerClause.get_map, clause]
  simp only [hget]
  rw [agenda, PerClause.agenda]
  cases s.kind.getD .select with
  | insert =>
    simp only [List.mem_cons, reduceCtorEq, false_or, List.mem_map, Option.some.injEq,
      exists_eq_right, StatementKind.clauses, List.not_mem_nil, or_false, exists_eq_left,
      PerClause.get]
    rw [List.mem_append, or_comm, ← List.mem_append, List.take_append_drop]
  | _ => simp [StatementKind.clauses, PerClause.get]

theorem none_mem_agenda (s : Snapshot) : none ∈ s.agenda := by
  rw [agenda, PerClause.agenda]
  cases s.kind.getD .select <;> simp

theorem renders_iff : s.Renders t ↔ ∃ f, some f ∈ s.agenda ∧ t ∈ f.subs := by
  simp only [Renders, mem_subsIn, mem_agenda, Fragment.mem_subs]
  constructor
  · rintro ⟨c, hc, f, hf, ht⟩
    exact ⟨f, ⟨c, hc, hf⟩, ht⟩
  · rintro ⟨f, ⟨c, hc, hf⟩, ht⟩
    exact ⟨c, hc, f, hf, ht⟩

/-- The statement and those nested in what it renders, in the order in which they are checked. -/
def checks (s : Snapshot) : List Snapshot :=
  s.agenda.attach.flatMap fun
    | ⟨none, _⟩ => [s]
    | ⟨some f, hf⟩ => f.subs.attach.flatMap fun ⟨t, ht⟩ =>
      have := sizeOf_of_holds (renders_iff.mpr ⟨f, hf, ht⟩).holds
      checks t
termination_by sizeOf s

/-- What is checked for one entry of the agenda. -/
def checksOf (s : Snapshot) : Option Fragment → List Snapshot
  | none => [s]
  | some f => f.subs.flatMap checks

theorem checks_eq (s : Snapshot) : s.checks = s.agenda.flatMap s.checksOf := by
  rw [checks]
  conv_rhs => rw [← List.attach_map_subtype_val s.agenda, List.flatMap_map]
  congr 1
  funext entry
  obtain ⟨_ | f, hf⟩ := entry
  · rfl
  · conv_rhs => rw [checksOf, ← List.attach_map_subtype_val f.subs, List.flatMap_map]

theorem failure?_pieces (s : Snapshot) (depth : Nat) :
    (s.pieces depth).failure? = s.checks.findSome? fault? := by
  induction s using nesting_induction generalizing depth with
  | step s ih =>
    have htable : tableEntries depth s.clauses =
        (s.clauses.map fun fs => fs.getD []).map (List.map (Fragment.entry depth)) := by
      rw [tableEntries_eq_map]
      rfl
    rw [pieces_eq, Outcome.failure?_map, Lines.failure?_ofKind, htable, PerClause.fault?_map,
      PerClause.agenda_map, Lines.firstFault, List.findSome?_map, checks_eq]
    refine findSome?_flatMap_of fun entry hentry => ?_
    cases entry with
    | none =>
      show s.fault? = [s].findSome? fault?
      rw [findSome?_cons_eq_or, List.findSome?_nil, Option.or_none]
    | some f =>
      refine (Fragment.failure?_pieces f depth).trans (findSome?_flatMap_of fun t ht => ?_)
      obtain ⟨c, -, hf⟩ := mem_agenda.mp hentry
      exact ih c f hf t (Fragment.mem_subs.mp ht) (depth + 1)

/-- Those that are checked are those that a chain of rendered clauses leads to. -/
theorem mem_checks : t ∈ s.checks ↔ ReflTransGen Renders s t := by
  induction s using nesting_induction with
  | step s ih =>
    rw [checks_eq, List.mem_flatMap, ReflTransGen.cases_head_iff]
    constructor
    · rintro ⟨_ | f, hentry, ht⟩
      · exact .inl (List.mem_singleton.mp ht).symm
      · obtain ⟨u, hu, ht⟩ := List.mem_flatMap.mp ht
        obtain ⟨c, -, hf⟩ := mem_agenda.mp hentry
        exact .inr ⟨u, renders_iff.mpr ⟨f, hentry, hu⟩,
          (ih c f hf u (Fragment.mem_subs.mp hu)).mp ht⟩
    · rintro (rfl | ⟨u, hu, ht⟩)
      · exact ⟨none, none_mem_agenda s, List.mem_singleton.mpr rfl⟩
      · obtain ⟨f, hentry, hsub⟩ := renders_iff.mp hu
        obtain ⟨c, -, hf⟩ := mem_agenda.mp hentry
        exact ⟨some f, hentry, List.mem_flatMap.mpr ⟨u, hsub,
          (ih c f hf u (Fragment.mem_subs.mp hsub)).mpr ht⟩⟩

theorem exists_pieces_of_renders {depth : Nat} {ps : Pieces} (h : s.pieces depth = .ok ps)
    (ht : ReflTransGen Renders s t) (depth' : Nat) : ∃ qs, t.pieces depth' = .ok qs := by
  have hclean : s.checks.findSome? fault? = none := by
    rw [← failure?_pieces s depth, h]
    rfl
  rw [List.findSome?_eq_none_iff] at hclean
  have hfailure : (t.pieces depth').failure? = none := by
    rw [failure?_pieces, List.findSome?_eq_none_iff]
    exact fun u hu => hclean u (mem_checks.mpr (ht.trans (mem_checks.mp hu)))
  cases hpieces : t.pieces depth' with
  | ok qs => exact ⟨qs, rfl⟩
  | error e =>
    rw [hpieces] at hfailure
    cases hfailure

/-- The statement has no target where its kind needs one. -/
structure LacksTable (s : Snapshot) : Prop where
  none : s.table = none
  unsourced : s.kind.getD .select = .select → s.clause .source = []

inductive IllFormed (s : Snapshot) : Prop where
  | noTable : s.LacksTable → IllFormed s
  | foreignClause (c : ClauseKind) : s.kind = some .insert → c ≠ .insert → s.clause c ≠ [] →
      IllFormed s
  | noRow : s.kind = some .insert → (s.clause .insert).length < 2 → IllFormed s
  | noAssignment : s.kind = some .update → s.clause .update = [] → IllFormed s

theorem fault?_of_lacksTable (h : s.LacksTable) : s.fault? = some .missingTable := by
  rw [fault?, PerClause.fault?, h.none]
  cases hkind : s.kind.getD .select with
  | select =>
    show (if (s.clause .source).isEmpty then tableFault? none else none) = some .missingTable
    rw [h.unsourced hkind]
    rfl
  | _ => rfl

theorem fault?_of_not_lacksTable (h : ¬s.LacksTable) : s.fault? =
    match s.kind.getD .select with
    | .insert => match ClauseKind.all.find? fun k => k ≠ .insert && !(s.clause k).isEmpty with
      | some k => some (.shape (.clauseOnInsert k))
      | none => if (s.clause .insert).length < 2 then some (.shape .insertWithoutRow) else none
    | .update => if (s.clause .update).isEmpty then some (.shape .updateWithoutAssignment) else none
    | _ => none := by
  have hget (c : ClauseKind) : (s.clauses.map fun fs => fs.getD []).get c = s.clause c := by
    rw [PerClause.get_map, clause]
  have htable (hkind : s.kind.getD .select ≠ .select) : tableFault? s.table = none := by
    cases hnone : s.table with
    | none => exact absurd ⟨hnone, fun hselect => absurd hselect hkind⟩ h
    | some name => rfl
  rw [fault?, PerClause.fault?]
  cases hkind : s.kind.getD .select with
  | select =>
    show (if (s.clause .source).isEmpty then tableFault? s.table else none) = none
    cases hnone : s.table with
    | some name => exact ite_self none
    | none =>
      rw [if_neg fun hempty => h ⟨hnone, fun _ => List.isEmpty_iff.mp hempty⟩]
  | insert =>
    rw [htable (by rw [hkind]; decide), PerClause.foreign?]
    simp only [hget, Option.none_or]
    rfl
  | update =>
    rw [htable (by rw [hkind]; decide)]
    rfl
  | delete => exact htable (by rw [hkind]; decide)

theorem fault?_eq_missingTable : s.fault? = some .missingTable ↔ s.LacksTable := by
  refine ⟨fun h => ?_, fault?_of_lacksTable⟩
  by_contra hnot
  rw [fault?_of_not_lacksTable hnot] at h
  repeat' split at h
  all_goals cases h

theorem kind_eq_some {kind : StatementKind} (h : s.kind.getD .select = kind)
    (hne : kind ≠ .select) : s.kind = some kind := by
  cases hkind : s.kind with
  | none =>
    rw [hkind] at h
    exact absurd h.symm hne
  | some k =>
    rw [hkind] at h
    exact congrArg some h

theorem illFormed_of_fault? {e : SqlError} (h : s.fault? = some e) : s.IllFormed := by
  by_cases htable : s.LacksTable
  · exact .noTable htable
  rw [fault?_of_not_lacksTable htable] at h
  split at h
  · rename_i hkind
    have hinsert := kind_eq_some hkind (by decide)
    split at h
    · rename_i k hfind
      have hk := List.find?_some hfind
      simp only [Bool.and_eq_true, decide_eq_true_eq, Bool.not_eq_true',
        List.isEmpty_eq_false_iff] at hk
      exact .foreignClause k hinsert hk.1 hk.2
    split at h
    · rename_i hrows
      exact .noRow hinsert hrows
    · cases h
  · rename_i hkind
    split at h
    · rename_i hempty
      exact .noAssignment (kind_eq_some hkind (by decide)) (List.isEmpty_iff.mp hempty)
    · cases h
  · cases h

theorem exists_fault?_iff : (∃ e, s.fault? = some e) ↔ s.IllFormed := by
  constructor
  · rintro ⟨e, h⟩
    exact illFormed_of_fault? h
  intro h
  by_cases htable : s.LacksTable
  · exact ⟨_, fault?_of_lacksTable htable⟩
  rw [fault?_of_not_lacksTable htable]
  rcases h with hno | ⟨c, hkind, hne, hclause⟩ | ⟨hkind, hrows⟩ | ⟨hkind, hempty⟩
  · exact absurd hno htable
  · have hsome : (ClauseKind.all.find? fun k => k ≠ .insert && !(s.clause k).isEmpty).isSome := by
      rw [List.find?_isSome]
      exact ⟨c, ClauseKind.mem_all c, by simp [hne, hclause]⟩
    obtain ⟨k, hfind⟩ := Option.isSome_iff_exists.mp hsome
    exact ⟨.shape (.clauseOnInsert k), by simp only [hkind, Option.getD_some, hfind]⟩
  · simp only [hkind, Option.getD_some]
    split
    · exact ⟨_, rfl⟩
    · exact ⟨_, if_pos hrows⟩
  · exact ⟨.shape .updateWithoutAssignment, by simp [hkind, hempty]⟩

/-- Rendering fails exactly when the statement, or one nested at any depth in a clause that the
kind of its holder renders, is ill-formed. Each of these is checked in its turn; the error is that
of the first ill-formed one, and it tells of a missing table exactly when the target was missing
there. -/
theorem render_fails_iff (s : Snapshot) (layout : Layout) :
    (∀ t, t ∈ s.checks ↔ ReflTransGen Renders s t) ∧
    ((∃ e, s.render layout = .error e) ↔ ∃ t, ReflTransGen Renders s t ∧ t.IllFormed) ∧
    ∀ e, s.render layout = .error e ↔ ∃ before t behind, s.checks = before ++ t :: behind ∧
      (∀ u ∈ before, ¬u.IllFormed) ∧ t.IllFormed ∧ t.fault? = some e ∧
      (e = .missingTable ↔ t.LacksTable) := by
  have hfailure : (s.render layout).failure? = s.checks.findSome? fault? := by
    rw [render_eq, Outcome.failure?_map, failure?_pieces]
  refine ⟨fun t => mem_checks, ?_, ?_⟩
  · simp only [← Outcome.failure?_eq_some, hfailure, ← mem_checks, ← exists_fault?_iff]
    rw [← Option.isSome_iff_exists, List.findSome?_isSome_iff]
    simp only [Option.isSome_iff_exists]
  · intro e
    rw [← Outcome.failure?_eq_some, hfailure, List.findSome?_eq_some_iff]
    have hbefore (u : Snapshot) : u.fault? = none ↔ ¬u.IllFormed := by
      rw [← exists_fault?_iff, ← Option.isSome_iff_exists, Option.not_isSome_iff_eq_none]
    constructor
    · rintro ⟨before, t, behind, hchecks, ht, hclean⟩
      refine ⟨before, t, behind, hchecks, fun u hu => (hbefore u).mp (hclean u hu),
        exists_fault?_iff.mp ⟨e, ht⟩, ht, ?_⟩
      rw [← fault?_eq_missingTable, ht, Option.some.injEq]
    · rintro ⟨before, t, behind, hchecks, hclean, -, ht, -⟩
      exact ⟨before, t, behind, hchecks, ht, fun u hu => (hbefore u).mpr (hclean u hu)⟩

end Snapshot

end SqlBuilder
