import SqlBuilder.Proofs.Additions
import SqlBuilder.Proofs.Insertion
import SqlBuilder.Proofs.Template.Expansion

/-!
# Assignments

An UPDATE gathers the assignments of all calls since it was begun, and no other call touches them.
That a column is assigned once is checked within each of these calls, and not from one to the next.
-/
namespace SqlBuilder.Statement

open List (Forall₂)

variable {d : Dialect} {s t : Statement} {e : Engine} {c : Call} {row : Row} {rows : List Row}

theorem shapeOnly_columnValue (e : Engine) (column : String) (v : Value) :
    Template.ShapeOnly (columnValue e column v) := by
  unfold columnValue
  split
  · exact .error _
  · exact Template.shapeOnly_escape e v

theorem shapeOnly_escapeRow (e : Engine) (seen : List String) (row : Row) :
    Template.ShapeOnly (escapeRow e seen row) := by
  induction row generalizing seen with
  | nil => exact .ok []
  | cons entry row ih =>
    obtain ⟨column, v⟩ := entry
    rw [escapeRow]
    refine (Template.shapeOnly_quoteIdent e column).bind fun name => ?_
    split
    · exact .error _
    · exact (shapeOnly_columnValue e column v).bind fun value =>
        (ih (name :: seen)).bind fun rest => .ok _

theorem shapeOnly_checkLimit (s : Statement) : Template.ShapeOnly s.checkLimit := by
  rw [checkLimit]
  split
  · exact .error _
  · exact .ok s

def assignment (p : String × String) : String := p.1 ++ " = " ++ p.2

def assignRow (row : Row) (s : Statement) : Outcome Statement :=
  if row.isEmpty then .error (.shape .noAssignments)
  else do
    let pairs ← escapeRow s.engine [] row
    (s.pushAll .update (pairs.map fun p => .ofText (assignment p))).checkLimit

theorem shapeOnly_assignRow (row : Row) (s : Statement) :
    Template.ShapeOnly (assignRow row s) := by
  rw [assignRow]
  split
  · exact .error _
  · exact (shapeOnly_escapeRow s.engine [] row).bind fun pairs => shapeOnly_checkLimit _

def assigning (s : Statement) (pairs : List (String × String)) : Statement :=
  (s.switchKind .update).pushAll .update (pairs.map fun p => .ofText (assignment p))

theorem kind_assigning (s : Statement) (pairs : List (String × String)) :
    (s.assigning pairs).kind = some .update :=
  (Snapshot.kind_pushAll (s.switchKind .update).state .update _).trans (kind_switchKind s .update)

def LimitFits (s : Statement) : Prop :=
  s.engine = .postgres → (s.switchKind .update).state.clause .limit = []

theorem checkLimit_assigning (s : Statement) (pairs : List (String × String)) :
    (s.assigning pairs).checkLimit = .ok t ↔ t = s.assigning pairs ∧ LimitFits s := by
  have hengine : (s.assigning pairs).engine = s.engine := engine_switchKind s .update
  have hlimit : (s.assigning pairs).state.clause .limit =
      (s.switchKind .update).state.clause .limit :=
    Snapshot.clause_pushAll_of_ne _ _ (by decide)
  rw [checkLimit_eq_ok_iff, LimitAllowed, hengine, hlimit, kind_assigning]
  simp [LimitFits]

/-- What an `update` comes to is decided by its own row, and by limits where they have no place. -/
theorem update_cases (herror : s.error = none) (row : Row) :
    (LimitFits s ∧ ∃ pairs, Accepted s.engine row pairs ∧ s.update row = s.assigning pairs) ∨
      (¬(Writable s.engine row ∧ LimitFits s) ∧ ∃ err : SqlError, err.kind = .shape ∧
        s.update row = { s.switchKind .update with error := some err }) := by
  have hnone : (s.switchKind .update).error = none := (error_switchKind s .update).trans herror
  have hupdate : s.update row = (s.switchKind .update).attempt (assignRow row) := by
    rw [update, attemptAs, herror]
    rfl
  rw [hupdate]
  rcases attempt_cases (s.switchKind .update) (assignRow row) with ⟨⟨err, he⟩, -⟩ |
    ⟨-, t, hstep, ht⟩ | ⟨-, err, hstep, ht⟩
  · rw [hnone] at he
    cases he
  · left
    rw [assignRow] at hstep
    split at hstep
    · cases hstep
    rename_i hrow
    obtain ⟨pairs, hpairs, hlimit⟩ := Outcome.exists_of_bind_eq_ok hstep
    rw [engine_switchKind] at hpairs
    obtain ⟨rfl, hfits⟩ := (checkLimit_assigning s pairs).mp hlimit
    exact ⟨hfits, pairs, accepted_iff.mpr ⟨mt List.isEmpty_iff.mpr hrow, hpairs⟩, ht⟩
  · refine .inr ⟨?_, err, shapeOnly_assignRow row _ err hstep, ht⟩
    rintro ⟨hwritable, hfits⟩
    obtain ⟨pairs, haccepted⟩ := writable_iff.mp hwritable
    obtain ⟨hrow, hpairs⟩ := accepted_iff.mp haccepted
    have hlimit := (checkLimit_assigning s pairs).mpr ⟨rfl, hfits⟩
    rw [assignRow, if_neg (mt List.isEmpty_iff.mp hrow), engine_switchKind, hpairs] at hstep
    cases hstep.symm.trans hlimit

def assign (rows : List Row) : Call → List Row
  | .update row => rows ++ [row]
  | .reset => []
  | c => if c.chosen?.isSome then [] else rows

/-- The rows that calls assign, from the last reset or the last choice of another kind on. -/
def assigned (calls : List Call) : List Row := calls.foldl assign []

/-- The statement assigns what these rows say, and nothing else. -/
structure Assigned (e : Engine) (rows : List Row) (s : Statement) : Prop where
  kind : rows ≠ [] → s.kind = some .update
  clause : ∃ written, Forall₂ (Accepted e) rows written ∧
    s.state.clause .update = written.flatten.map fun p => .ofText (assignment p)
  predicate : s.lastPredicate ≠ some .update

namespace Assigned

theorem nothing (hclause : s.state.clause .update = [])
    (hpredicate : s.lastPredicate ≠ some .update) : Assigned e [] s :=
  ⟨fun h => absurd rfl h, ⟨[], .nil, hclause⟩, hpredicate⟩

theorem clause_eq_nil (h : Assigned e [] s) : s.state.clause .update = [] := by
  obtain ⟨written, hwritten, hclause⟩ := h.clause
  cases hwritten
  exact hclause

theorem leaves (h : Assigned e rows s) (hst : Leaves .update s t) : Assigned e rows t where
  kind := fun hrows => hst.kind.trans (h.kind hrows)
  clause := hst.clause ▸ h.clause
  predicate := hst.predicate h.predicate

theorem switchKind (h : Assigned e rows s) (kind : StatementKind) :
    Assigned e (if kind = .update then rows else []) (s.switchKind kind) := by
  have hnil (hs : s.kind ≠ some .update) : rows = [] :=
    by_contra fun hrows => hs (h.kind hrows)
  by_cases hsame : s.kind = some kind
  · rw [switchKind_of_kind hsame]
    split
    · exact h
    · rename_i hk
      rw [hnil (by rw [hsame]; exact fun heq => hk (Option.some.inj heq))] at h
      exact h
  · have hrows : (if kind = .update then rows else []) = [] := by
      split
      · rename_i hk
        exact hnil (hk ▸ hsame)
      · rfl
    rw [hrows, Statement.switchKind]
    cases hs : s.kind with
    | none =>
      obtain rfl := hnil (by simp [hs])
      exact nothing h.clause_eq_nil h.predicate
    | some k =>
      have hne : k ≠ kind := fun hk => hsame (hs.trans (congrArg some hk))
      simp only [hne, if_false]
      exact nothing (Snapshot.clause_clear s.state .update) (Option.some_ne_none _).symm

theorem begun (h : Assigned e rows s) (hreset : c ≠ .reset) (hupdate : ∀ row, c ≠ .update row) :
    Assigned e (assign rows c) (s.begun c) := by
  rw [Statement.begun]
  cases c with
  | update row => exact absurd rfl (hupdate row)
  | reset => exact absurd rfl hreset
  | source | select | selectJson | aggregate => exact h.switchKind .select
  | insert => exact h.switchKind .insert
  | delete => exact h.switchKind .delete
  | _ => exact h

theorem update (h : Assigned s.engine rows s) (herror : s.error = none)
    (hok : (s.update row).error = none) : Assigned s.engine (rows ++ [row]) (s.update row) := by
  have hswitched := h.switchKind .update
  rw [if_pos rfl] at hswitched
  obtain ⟨written, hwritten, hclause⟩ := hswitched.clause
  rcases update_cases herror row with ⟨-, pairs, haccepted, heq⟩ | ⟨-, err, -, heq⟩
  · rw [heq]
    refine ⟨fun _ => kind_assigning s pairs, ⟨written ++ [pairs], ?_, ?_⟩, hswitched.predicate⟩
    · exact List.rel_append hwritten (.cons haccepted .nil)
    · rw [List.flatten_append, List.map_append, List.flatten_singleton, ← hclause]
      exact Snapshot.clause_pushAll_self (s.switchKind .update).state .update _
  · rw [heq] at hok
    cases hok

theorem apply (h : Assigned s.engine rows s) (hbuilt : c.Built) (hreset : c ≠ .reset)
    (herror : s.error = none) (hok : (s.apply c).error = none) :
    Assigned s.engine (assign rows c) (s.apply c) := by
  by_cases hupdate : ∃ row, c = .update row
  · obtain ⟨row, rfl⟩ := hupdate
    exact h.update herror hok
  · have hclause : c.clause? ≠ some .update := by
      intro hc
      cases c with
      | update row => exact hupdate ⟨row, rfl⟩
      | pushClause => exact hbuilt.elim
      | _ => cases hc
    have heffect := effect_apply hbuilt hreset herror hok
    exact (h.begun hreset (not_exists.mp hupdate)).leaves
      (heffect.leaves hclause (by decide) h.predicate)

theorem run (d : Dialect) {calls : List Call} (hbuilt : ∀ c ∈ calls, c.Built)
    (hok : ((new d).run calls).error = none) :
    Assigned d.engine (assigned calls) ((new d).run calls) := by
  refine run_induction (P := fun calls s => Assigned d.engine (assigned calls) s) ?_ ?_ ?_
    hbuilt hok
  · exact nothing rfl (Option.some_ne_none _).symm
  · intro calls s _
    rw [assigned, List.foldl_append]
    exact nothing (Snapshot.clause_clear s.state .update) (Option.some_ne_none _).symm
  · intro calls s c h hdialect hbuilt hreset herror hok
    have hengine : s.engine = d.engine := congrArg Dialect.engine hdialect
    rw [← hengine] at h ⊢
    rw [assigned, List.foldl_append]
    exact h.apply hbuilt hreset herror hok

end Assigned

/-- No column stands in both rows. -/
def Apart (e : Engine) (row row' : Row) : Prop := ∀ c, HasColumn e row c → ¬HasColumn e row' c

theorem mem_columns_flatten {written : List (List (String × String))}
    (h : Forall₂ (Accepted e) rows written) (column : String) :
    column ∈ written.flatten.map Prod.fst ↔ ∃ row ∈ rows, HasColumn e row column := by
  induction h with
  | nil => simp
  | cons haccepted _ ih =>
    rw [List.flatten_cons, List.map_append, List.mem_append, ih, haccepted.mem_columns_iff,
      List.exists_mem_cons_iff]

/-- Each row has distinct columns, so together they have as long as no two of them share one. -/
theorem nodup_columns_iff {written : List (List (String × String))}
    (h : Forall₂ (Accepted e) rows written) :
    (written.flatten.map Prod.fst).Nodup ↔ rows.Pairwise (Apart e) := by
  induction h with
  | nil => simp
  | @cons row pairs rows written haccepted hrest ih =>
    have hdisjoint : List.Disjoint (pairs.map Prod.fst) (written.flatten.map Prod.fst) ↔
        ∀ row' ∈ rows, Apart e row row' := by
      constructor
      · intro hapart row' hrow' c hc hc'
        exact hapart (haccepted.mem_columns_iff.mpr hc)
          ((mem_columns_flatten hrest c).mpr ⟨row', hrow', hc'⟩)
      · intro hapart c hc hc'
        obtain ⟨row', hrow', hin⟩ := (mem_columns_flatten hrest c).mp hc'
        exact hapart row' hrow' c (haccepted.mem_columns_iff.mp hc) hin
    rw [List.flatten_cons, List.map_append, List.nodup_append', ih, hdisjoint, List.pairwise_cons]
    exact ⟨fun h => ⟨h.2.2, h.2.1⟩, fun h => ⟨haccepted.distinct, h.2, h.1⟩⟩

def updateText (layout : Layout) (table : String) (assignments : List String) : String :=
  "UPDATE " ++ table ++ (Piece.clause 0).written layout ++ "SET " ++
    Engine.commaJoined assignments

theorem commaList_ofTexts (texts : List String) :
    Entry.commaList (texts.map fun text => (Fragment.ofText text).entry 0) =
      .ok ([Piece.text ", "].intercalate (texts.map fun text => [.text text])) := by
  induction texts with
  | nil => rfl
  | cons text texts ih =>
    cases texts with
    | nil => rfl
    | cons text' texts =>
      rw [List.map_cons] at ih
      rw [List.map_cons, List.map_cons, Entry.commaList, ih]
      · rfl
      · exact List.cons_ne_nil _ _

theorem write_line_cons (layout : Layout) (line : Pieces) (lines : Lines) :
    ∃ rest, layout.write ([Piece.clause 0].intercalate (line :: lines)) =
        layout.write line ++ rest ∧
      (rest = "" ∨ ∃ more, rest = (Piece.clause 0).written layout ++ more) := by
  cases lines with
  | nil => exact ⟨"", by simp, .inl rfl⟩
  | cons next lines =>
    rw [List.intercalate_cons_cons, List.append_assoc, Layout.write_append,
      List.singleton_append, Layout.write_cons]
    exact ⟨_, rfl, .inr ⟨_, rfl⟩⟩

theorem render_update {view : Snapshot} (hkind : view.kind = some .update) {texts : List String}
    (hclause : view.clause .update = texts.map .ofText) {layout : Layout} {text : String}
    (h : view.render layout = .ok text) :
    ∃ table rest, view.table = some table ∧ text = updateText layout table texts ++ rest ∧
      (rest = "" ∨ ∃ more, rest = (Piece.clause 0).written layout ++ more) := by
  have hentries : (tableEntries 0 view.clauses).update =
      texts.map fun text => (Fragment.ofText text).entry 0 := by
    refine (get_tableEntries view 0 .update).trans ?_
    rw [hclause, List.map_map]
    rfl
  obtain ⟨ps, hps, rfl⟩ := Snapshot.exists_pieces h
  rw [Snapshot.pieces_eq, hkind, Lines.ofKind, Option.getD_some] at hps
  obtain ⟨lines, hlines, rfl⟩ := Outcome.exists_of_map_eq_ok hps
  obtain ⟨table, htable, hlines⟩ := Outcome.exists_of_bind_eq_ok hlines
  split at hlines
  · cases hlines
  obtain ⟨list, hlist, hlines⟩ := Outcome.exists_of_bind_eq_ok hlines
  obtain ⟨filter, -, hlines⟩ := Outcome.exists_of_bind_eq_ok hlines
  obtain ⟨tail, -, hlines⟩ := Outcome.exists_of_bind_eq_ok hlines
  cases hlines
  rw [hentries, commaList_ofTexts] at hlist
  cases hlist
  have hname : view.table = some table := by
    cases hview : view.table with
    | none =>
      rw [hview] at htable
      cases htable
    | some name =>
      rw [hview] at htable
      cases htable
      rfl
  let set : Pieces :=
    .text "SET " :: [Piece.text ", "].intercalate (texts.map fun text => [.text text])
  obtain ⟨rest, hrest, hends⟩ := write_line_cons layout set (filter ++ tail)
  refine ⟨table, rest, hname, ?_, hends⟩
  have hset : layout.write set = "SET " ++ Engine.commaJoined texts := by
    have hmap : (texts.map fun text => [Piece.text text]).map layout.write = texts := by
      rw [List.map_map]
      refine (List.map_congr_left fun text _ => ?_).trans (List.map_id texts)
      exact Layout.write_singleton layout (.text text)
    rw [Layout.write_cons, Layout.write_intercalate, hmap]
    rfl
  have hjoin : Lines.join 0 view.isSub ([[.text ("UPDATE " ++ table)], set] ++ filter ++ tail) =
      [.text ("UPDATE " ++ table), .clause 0] ++
        [Piece.clause 0].intercalate (set :: (filter ++ tail)) := by
    simp [Lines.join, List.intercalate_cons_cons]
  refine (congrArg layout.write hjoin).trans ?_
  rw [Layout.write_append, hrest, hset, Layout.write_cons, Layout.write_singleton, updateText]
  simp only [Piece.written, String.append_assoc]

/-- An UPDATE assigns the rows of its own calls in their order, each entry as it is written. So
its columns are distinct exactly if no two of these rows share one. Whether a row is taken does
not depend on the rows before it: one that repeats a column is refused, with an error that lasts
to the next reset, while columns of earlier calls may come again. -/
theorem update_assigns_rows (d : Dialect) :
    (∀ calls : List Call, (∀ c ∈ calls, c.Built) → ((new d).run calls).error = none →
      ((new d).run calls).kind = some .update →
      ∃ written, Forall₂ (Accepted d.engine) (assigned calls) written ∧
        (∀ layout text, ((new d).run calls).toSql layout = .ok text →
          ∃ table rest, ((new d).run calls).state.table = some table ∧
            text = updateText layout table (written.flatten.map assignment) ++ rest ∧
            (rest = "" ∨ ∃ more, rest = (Piece.clause 0).written layout ++ more)) ∧
        ((written.flatten.map Prod.fst).Nodup ↔ (assigned calls).Pairwise (Apart d.engine))) ∧
    ∀ (before : List Call) (row : Row), ((new d).run before).error = none →
      (((new d).run (before ++ [.update row])).error = none ↔
        Writable d.engine row ∧ LimitFits ((new d).run before)) ∧
      ∀ err, ((new d).run (before ++ [.update row])).error = some err →
        err.kind = .shape ∧ ∀ after, .reset ∉ after →
          ((new d).run (before ++ .update row :: after)).error = some err := by
  constructor
  · intro calls hbuilt herror hkind
    obtain ⟨written, hwritten, hclause⟩ := (Assigned.run d hbuilt herror).clause
    refine ⟨written, hwritten, fun layout text htext => ?_, nodup_columns_iff hwritten⟩
    rw [toSql, checked, herror] at htext
    refine render_update hkind ?_ htext
    rw [hclause, List.map_map]
    rfl
  · intro before row herror
    have hengine : ((new d).run before).engine = d.engine :=
      congrArg Dialect.engine (run_outside (new d) before).dialect
    rw [run_append, run_cons, run_nil, apply]
    refine ⟨?_, fun err herr => ⟨?_, fun after hreset => ?_⟩⟩
    · rcases update_cases herror row with ⟨hfits, pairs, haccepted, heq⟩ | ⟨hnot, err, -, heq⟩
      · have hwritable : Writable d.engine row := hengine ▸ writable_iff.mpr ⟨pairs, haccepted⟩
        rw [heq]
        exact iff_of_true ((error_switchKind _ .update).trans herror) ⟨hwritable, hfits⟩
      · rw [heq]
        rw [hengine] at hnot
        exact iff_of_false (Option.some_ne_none err) hnot
    · rcases update_cases herror row with ⟨-, pairs, -, heq⟩ | ⟨-, err', hshape, heq⟩
      · have hnone : (((new d).run before).assigning pairs).error = none :=
          (error_switchKind _ .update).trans herror
        rw [heq, hnone] at herr
        cases herr
      · rw [heq] at herr
        cases herr
        exact hshape
    · rw [run_append, run_cons]
      exact (run_of_error herr herr (.refl _) hreset).1

def twoColumns : List Call :=
  [.table "t", .select (.text "x"), .update [("a", .int 1)], .filter "id = ?" [.int 3],
   .update [("b", .int 2)]]

theorem twoColumns_assigned :
    (∃ written rest, Forall₂ (Accepted .postgres) [[("a", .int 1)], [("b", .int 2)]] written ∧
      "UPDATE \"t\" SET \"a\" = 1, \"b\" = 2 WHERE (id = 3)" =
        updateText .compact "\"t\"" (written.flatten.map assignment) ++ rest ∧
      (written.flatten.map Prod.fst).Nodup) ∧
    ∃ err, err.kind = .shape ∧
      ((new .postgres).run (twoColumns ++ [.update [("c", .int 4), ("\"c\"", .int 5)]])).error =
        some err := by
  have hbuilt : ∀ c ∈ twoColumns, c.Built := by simp [twoColumns, Call.Built]
  have herror : ((new .postgres).run twoColumns).error = none :=
    Option.isNone_iff_eq_none.mp (by decide +kernel)
  have hkind : ((new .postgres).run twoColumns).kind = some .update := by decide +kernel
  have htext : ((new .postgres).run twoColumns).toSql .compact =
      .ok "UPDATE \"t\" SET \"a\" = 1, \"b\" = 2 WHERE (id = 3)" :=
    Outcome.eq_ok_of_toOption (by decide +kernel)
  have htable : ((new .postgres).run twoColumns).state.table = some "\"t\"" := by decide +kernel
  obtain ⟨hassigns, hrefuses⟩ := update_assigns_rows .postgres
  constructor
  · obtain ⟨written, hwritten, hshown, hnodup⟩ := hassigns twoColumns hbuilt herror hkind
    obtain ⟨table, rest, hname, heq, -⟩ := hshown .compact _ htext
    cases htable.symm.trans hname
    refine ⟨written, rest, hwritten, heq, hnodup.mpr ?_⟩
    have hapart : Apart .postgres [("a", .int 1)] [("b", .int 2)] := by
      rintro c ⟨p, hp, hname⟩ ⟨q, hq, hname'⟩
      rw [List.mem_singleton] at hp hq
      rw [hp] at hname
      rw [hq] at hname'
      have hsame := congrArg Except.toOption (hname.trans hname'.symm)
      revert hsame
      decide +kernel
    exact List.pairwise_pair.mpr hapart
  · have hname : Engine.postgres.quoteIdent "c" = .ok "\"c\"" :=
      Outcome.eq_ok_of_toOption (by decide +kernel)
    have hquoted : Engine.postgres.quoteIdent "\"c\"" = .ok "\"c\"" :=
      Outcome.eq_ok_of_toOption (by decide +kernel)
    obtain ⟨hwritable, herr⟩ :=
      hrefuses twoColumns [("c", .int 4), ("\"c\"", .int 5)] herror
    obtain ⟨err, he⟩ := Option.ne_none_iff_exists'.mp fun hnone => by
      have hdistinct := (hwritable.mp hnone).1.distinct
      rw [List.map_cons, List.nodup_cons] at hdistinct
      exact hdistinct.1 (List.mem_singleton.mpr (hname.trans hquoted.symm))
    exact ⟨err, (herr err he).1, he⟩

def oneColumnTwice : List Call :=
  [.table "t", .update [("a", .int 1)], .update [("a", .int 2)]]

theorem oneColumnTwice_repeats :
    (∀ c ∈ oneColumnTwice, c.Built) ∧ ((new .postgres).run oneColumnTwice).error = none ∧
    ((new .postgres).run oneColumnTwice).kind = some .update ∧
    ((new .postgres).run oneColumnTwice).toSql .compact =
      .ok "UPDATE \"t\" SET \"a\" = 1, \"a\" = 2" ∧
    ∀ written, Forall₂ (Accepted .postgres) (assigned oneColumnTwice) written →
      ¬(written.flatten.map Prod.fst).Nodup := by
  refine ⟨by simp [oneColumnTwice, Call.Built], Option.isNone_iff_eq_none.mp (by decide +kernel),
    by decide +kernel, Outcome.eq_ok_of_toOption (by decide +kernel), fun written h hnodup => ?_⟩
  have hname : Engine.postgres.quoteIdent "a" = .ok "\"a\"" :=
    Outcome.eq_ok_of_toOption (by decide +kernel)
  have hapart : Apart .postgres [("a", .int 1)] [("a", .int 2)] :=
    List.pairwise_pair.mp ((nodup_columns_iff h).mp hnodup)
  exact hapart "\"a\"" ⟨_, List.mem_singleton_self _, hname⟩
    ⟨_, List.mem_singleton_self _, hname⟩

end SqlBuilder.Statement
