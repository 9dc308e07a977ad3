import SqlBuilder.Proofs.Ident
import SqlBuilder.Proofs.Lockstep
import SqlBuilder.Proofs.Pieces

/-!
# Statements restored from their views

A view does not hold the columns of the rows inserted so far. They are read back from where
they are written, whatever their names, and so a restored statement goes on as the one that
was viewed.
-/
namespace SqlBuilder.Statement

variable {d : Dialect} {s t : Statement}

theorem writtenColumns_eq_nil {view : Snapshot} (h : view.clause .insert = []) :
    writtenColumns view = [] := by
  rw [writtenColumns, h]

theorem writtenColumns_congr {view view' : Snapshot} {f : Fragment} {fs gs : List Fragment}
    (h : view.clause .insert = f :: fs) (h' : view'.clause .insert = f :: gs) :
    writtenColumns view = writtenColumns view' := by
  rw [writtenColumns, writtenColumns, h, h']

theorem writtenColumns_commaJoined {e : Engine} {columns : List String}
    (hcolumns : RowColumns e columns) {view : Snapshot} {fs : List Fragment}
    (h : view.clause .insert = .ofText (Engine.commaJoined columns) :: fs) :
    writtenColumns view = columns := by
  have hread := Ident.splitTop_commaJoined hcolumns.nonempty hcolumns.quoted
  rw [writtenColumns, h]
  exact (List.append_nil _).trans hread

/-- The view of the statement tells all that later calls read. -/
structure Restorable (d : Dialect) (s : Statement) : Prop where
  dialect : s.dialect = d
  columns : writtenColumns s.state = s.insertColumns
  noRows : s.insertColumns = [] → s.state.clause .insert = []
  predicate : s.lastPredicate ≠ some .insert

namespace Restorable

theorem withoutRows (hdialect : s.dialect = d) (hclause : s.state.clause .insert = [])
    (hcolumns : s.insertColumns = []) (hpredicate : s.lastPredicate = none) : Restorable d s where
  dialect := hdialect
  columns := (writtenColumns_eq_nil hclause).trans hcolumns.symm
  noRows := fun _ => hclause
  predicate := by
    rw [hpredicate]
    decide

theorem new (d : Dialect) : Restorable d (.new d) :=
  withoutRows rfl rfl rfl rfl

theorem withState (h : Restorable d s) {state : Snapshot}
    (hclause : state.clause .insert = s.state.clause .insert) :
    Restorable d { s with state := state } where
  dialect := h.dialect
  columns := by
    rw [← h.columns, writtenColumns, hclause, writtenColumns]
  noRows := fun hnone => hclause.trans (h.noRows hnone)
  predicate := h.predicate

theorem switchKind (h : Restorable d s) (kind : StatementKind) :
    Restorable d (s.switchKind kind) := by
  rw [Statement.switchKind]
  cases s.kind with
  | none => exact h.withState rfl
  | some k =>
    by_cases hk : k = kind
    · simp only [hk, if_true]
      exact h
    · simp only [hk, if_false]
      exact withoutRows h.dialect (Snapshot.clause_clear s.state .insert) rfl rfl

theorem setLastOp (h : Restorable d s) {c : ClauseKind} (hc : c ≠ .insert) (op : BoolOp) :
    Restorable d (s.setLastOp c op) :=
  h.withState (Snapshot.clause_setLastOp_of_ne s.state op hc.symm)

theorem connect (h : Restorable d s) (op : BoolOp) : Restorable d (s.connect op) := by
  have hpredicate := h.predicate
  rw [Statement.connect]
  cases hlast : s.lastPredicate with
  | none => exact h.setLastOp (by decide) op
  | some c =>
    rw [hlast] at hpredicate
    exact h.setLastOp (fun hc => hpredicate (congrArg some hc)) op

theorem row (h : Restorable d s) {columns : List String}
    (hcolumns : RowColumns s.engine columns) (f : Fragment) :
    Restorable d ((s.setColumns columns).push .insert f) := by
  rw [setColumns]
  by_cases hnone : s.insertColumns = []
  -- Without columns the clause is empty, so they come to stand first in it.
  · have hclause : (((s.state.push .insert (.ofText (Engine.commaJoined columns))).push
        .insert f).clause .insert) = [.ofText (Engine.commaJoined columns), f] := by
      rw [Snapshot.clause_push_self, Snapshot.clause_push_self, h.noRows hnone]
      rfl
    rw [if_pos hnone]
    exact ⟨h.dialect, writtenColumns_commaJoined hcolumns hclause,
      fun hnil => absurd hnil hcolumns.nonempty, h.predicate⟩
  · rw [if_neg hnone]
    refine ⟨h.dialect, ?_, fun hnil => absurd hnil hnone, h.predicate⟩
    cases hclause : s.state.clause .insert with
    | nil => exact absurd (h.columns.symm.trans (writtenColumns_eq_nil hclause)) hnone
    | cons g gs =>
      have hpushed : (s.state.push .insert f).clause .insert = g :: (gs ++ [f]) := by
        rw [Snapshot.clause_push_self, hclause]
        rfl
      exact (writtenColumns_congr hpushed hclause).trans h.columns

theorem lockstep (d : Dialect) : Lockstep fun s t => s = t ∧ Restorable d s where
  twin := by
    rintro s _ ⟨rfl, -⟩
    exact ⟨rfl, rfl, rfl, rfl⟩
  config config := by
    rintro s _ ⟨rfl, h⟩
    exact ⟨rfl, h.dialect, h.columns, h.noRows, h.predicate⟩
  name aliasName := by
    rintro s _ ⟨rfl, h⟩
    exact ⟨rfl, h.dialect, h.columns, h.noRows, h.predicate⟩
  target name := by
    rintro s _ ⟨rfl, h⟩
    exact ⟨rfl, h.withState rfl⟩
  fail e := by
    rintro s _ ⟨rfl, h⟩
    exact ⟨rfl, h.dialect, h.columns, h.noRows, h.predicate⟩
  switch kind := by
    rintro s _ ⟨rfl, h⟩
    exact ⟨rfl, h.switchKind kind⟩
  push hc f := by
    rintro s _ ⟨rfl, h⟩
    exact ⟨rfl, h.withState (Snapshot.clause_setClause_of_ne _ _ hc.symm)⟩
  row f := by
    rintro s _ hcolumns ⟨rfl, h⟩
    exact ⟨rfl, h.row hcolumns f⟩
  predicate hc := by
    rintro s _ ⟨rfl, h⟩
    exact ⟨rfl, h.dialect, h.columns, h.noRows, fun heq => hc (Option.some.inj heq)⟩
  limitClause f := by
    rintro s _ ⟨rfl, h⟩
    exact ⟨rfl, h.withState (Snapshot.clause_setClause_of_ne _ _ (by decide))⟩
  op hc op := by
    rintro s _ ⟨rfl, h⟩
    exact ⟨rfl, h.setLastOp hc op⟩
  reset := by
    rintro s _ ⟨rfl, h⟩
    exact ⟨rfl, withoutRows h.dialect (Snapshot.clause_clear s.state .insert) rfl rfl⟩

theorem run (h : Restorable d s) {calls : List Call}
    (hcalls : ∀ f, Call.pushClause .insert f ∉ calls) : Restorable d (s.run calls) := by
  refine ((lockstep d).run ⟨rfl, h⟩ ?_ ?_).2
  · rintro s _ op - ⟨rfl, h⟩
    exact ⟨rfl, h.connect op⟩
  · intro s t f hf
    exact absurd hf (hcalls f)

end Restorable

namespace Twin

theorem refl (s : Statement) : Twin s s := ⟨rfl, rfl, rfl, rfl⟩

theorem push (h : Twin s t) (c : ClauseKind) (f : Fragment) : Twin (s.push c f) (t.push c f) :=
  { h with state := congrArg (Snapshot.push · c f) h.state }

theorem switchKind (h : Twin s t) (kind : StatementKind) :
    Twin (s.switchKind kind) (t.switchKind kind) := by
  rw [Statement.switchKind, Statement.switchKind, h.kind, h.state]
  cases t.kind with
  | none => exact { h with state := rfl }
  | some k =>
    by_cases hk : k = kind
    · simp only [hk, if_true]
      exact h
    · simp only [hk, if_false]
      exact ⟨h.dialect, rfl, rfl, h.error⟩

theorem lockstep : Lockstep Twin where
  twin := id
  config _ := fun h => { h with }
  name _ := fun h => { h with }
  target name := fun h =>
    { h with state := congrArg (fun v : Snapshot => { v with table := some name }) h.state }
  fail _ := fun h => { h with error := rfl }
  switch kind := fun h => h.switchKind kind
  push _ f := fun h => h.push _ f
  row f := fun _ h => (h.setColumns _).push .insert f
  predicate _ := fun h => { h with }
  limitClause f := fun h =>
    { h with state := congrArg (Snapshot.setClause · .limit [f]) h.state }
  op _ op := fun h => { h with state := congrArg (Snapshot.setLastOp · _ op) h.state }
  reset := fun h =>
    { h with
      state := congrArg (fun v : Snapshot => { v.clear with kind := none }) h.state
      insertColumns := rfl
      error := rfl }

/-- Twins stay twins under any calls but a bare connective. -/
theorem run (h : Twin s t) {calls : List Call} (hcalls : ∀ op, Call.connect op ∉ calls) :
    Twin (s.run calls) (t.run calls) := by
  refine lockstep.run h ?_ ?_
  · intro s t op hop
    exact absurd hop (hcalls op)
  · intro s t f _ h
    exact h.push .insert f

theorem checked (h : Twin s t) : s.checked = t.checked := by
  rw [Statement.checked, Statement.checked, h.error, h.state]

theorem toSql (h : Twin s t) (layout : Layout) : s.toSql layout = t.toSql layout := by
  rw [Statement.toSql, Statement.toSql, h.checked]

end Twin

theorem Restorable.twin (h : Restorable d s) (herror : s.error = none) :
    Twin (ofStructured d s.state) s :=
  ⟨h.dialect.symm, rfl, h.columns, herror.symm⟩

/-- A statement that was built without an error, and without fragments put among its rows as
they are, has a view. Restored from it the statement has the same columns, whatever their names,
and under all calls but a bare connective it goes on as if it had never been left: it holds the
same error, or has the same view and the same texts. -/
theorem restored_goes_on_alike (d : Dialect) {calls : List Call}
    (hcalls : ∀ f, Call.pushClause .insert f ∉ calls)
    (herror : ((new d).run calls).error = none) :
    ∃ view, ((new d).run calls).toStructured = .ok view ∧
      (ofStructured d view).insertColumns = ((new d).run calls).insertColumns ∧
      ∀ more, (∀ op, Call.connect op ∉ more) →
        ((ofStructured d view).run more).error = (((new d).run calls).run more).error ∧
        ((ofStructured d view).run more).toStructured =
          (((new d).run calls).run more).toStructured ∧
        ∀ layout, ((ofStructured d view).run more).toSql layout =
          (((new d).run calls).run more).toSql layout := by
  have hrestorable : Restorable d ((new d).run calls) := (Restorable.new d).run hcalls
  have hview : ((new d).run calls).toStructured = .ok ((new d).run calls).state := by
    rw [toStructured, checked, herror]
  refine ⟨_, hview, hrestorable.columns, fun more hmore => ?_⟩
  have htwin := (hrestorable.twin herror).run hmore
  exact ⟨htwin.error, htwin.checked, htwin.toSql⟩

def oddRow : Row :=
  [("a,b", .int 1), ("f(x", .int 2), ("it's \"x\"", .int 3), ("we\x60ird.*", .int 4)]

def oddInsert : List Call := [.table "t", .insert [oddRow]]

theorem oddInsert_goes_on :
    ((new .mysql).run oddInsert).error = none ∧
    ∃ view, ((new .mysql).run oddInsert).toStructured = .ok view ∧
      (ofStructured .mysql view).insertColumns =
        ["\x60a,b\x60", "\x60f(x\x60", "\x60it's \"x\"\x60", "\x60we\x60\x60ird\x60.*"] ∧
      ((ofStructured .mysql view).run [.insert [oddRow.reverse]]).toSql .compact =
        .ok ("INSERT INTO \x60t\x60 (\x60a,b\x60, \x60f(x\x60, \x60it's \"x\"\x60, " ++
          "\x60we\x60\x60ird\x60.*) VALUES (1, 2, 3, 4), (1, 2, 3, 4)") := by
  have hcalls : ∀ f, Call.pushClause .insert f ∉ oddInsert := by simp [oddInsert]
  have herror : ((new .mysql).run oddInsert).error = none :=
    Option.isNone_iff_eq_none.mp (by decide +kernel)
  have hmore : ∀ op, Call.connect op ∉ [Call.insert [oddRow.reverse]] := by simp
  obtain ⟨view, hview, hcolumns, hgoes⟩ := restored_goes_on_alike .mysql hcalls herror
  refine ⟨herror, view, hview, hcolumns.trans (by decide +kernel), ?_⟩
  rw [(hgoes _ hmore).2.2]
  exact Outcome.eq_ok_of_toOption (by decide +kernel)

end SqlBuilder.Statement
