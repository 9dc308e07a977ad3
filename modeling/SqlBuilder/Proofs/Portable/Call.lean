import SqlBuilder.Statement.Call
import SqlBuilder.Proofs.Portable.Field

/-!
# Programs in two engines

A program of builder calls runs on two engines, with its sub-statements built for the engine of
the statement around them. As long as no statement in it limits its rows, the two runs fail at
the same call and for the same kind of reason, or give snapshots of one shape, and these both
render or both fail alike.
-/
namespace SqlBuilder.Portable

open List (Forall₂)
open Outcome (Alike SameEnd isEmpty_eq)

variable {e e' : Engine} {s t : Statement}

/-- The same call, but for the statements in it. There is no such call that writes a limit.
Fragments given as they are may hold statements too. -/
inductive CallPair (S : Statement → Statement → Prop) : Call → Call → Prop where
  | config (config : Config) : CallPair S (.config config) (.config config)
  | table (name : String) : CallPair S (.table name) (.table name)
  | withAlias (name : String) : CallPair S (.withAlias name) (.withAlias name)
  | source {f g : Field} : FieldPair S f g → CallPair S (.source f) (.source g)
  | select {f g : Field} : FieldPair S f g → CallPair S (.select f) (.select g)
  | selectJson (spec : JsonSpec) (shape : JsonShape) (aliasName : String) :
      CallPair S (.selectJson spec shape aliasName) (.selectJson spec shape aliasName)
  | aggregate (function : String) {f g : Field} (aliasName : Option String) : FieldPair S f g →
      CallPair S (.aggregate function f aliasName) (.aggregate function g aliasName)
  | insert (rows : List Row) : CallPair S (.insert rows) (.insert rows)
  | update (row : Row) : CallPair S (.update row) (.update row)
  | delete : CallPair S .delete .delete
  | join (kind : JoinKind) {f g : Field} (on : String) (params : List Value) : FieldPair S f g →
      CallPair S (.join kind f on params) (.join kind g on params)
  | filter (template : String) (params : List Value) :
      CallPair S (.filter template params) (.filter template params)
  | filterWith (template : String) (params : List Value) (op : String) :
      CallPair S (.filterWith template params op) (.filterWith template params op)
  | orFilter (template : String) (params : List Value) :
      CallPair S (.orFilter template params) (.orFilter template params)
  | andFilter (template : String) (params : List Value) :
      CallPair S (.andFilter template params) (.andFilter template params)
  | filterIn (field : String) (values : Value) :
      CallPair S (.filterIn field values) (.filterIn field values)
  | filterInSub (field : String) {s t : Statement} : S s t →
      CallPair S (.filterInSub field s) (.filterInSub field t)
  | search {f g : Field} (term : String) : FieldPair S f g →
      CallPair S (.search f term) (.search g term)
  | having (template : String) (params : List Value) :
      CallPair S (.having template params) (.having template params)
  | havingWith (template : String) (params : List Value) (op : String) :
      CallPair S (.havingWith template params op) (.havingWith template params op)
  | orHaving (template : String) (params : List Value) :
      CallPair S (.orHaving template params) (.orHaving template params)
  | connect (op : BoolOp) : CallPair S (.connect op) (.connect op)
  | groupBy {f g : Field} : FieldPair S f g → CallPair S (.groupBy f) (.groupBy g)
  | orderBy {f g : Field} (direction : String) : FieldPair S f g →
      CallPair S (.orderBy f direction) (.orderBy g direction)
  | pushClause {c : ClauseKind} {f g : Fragment} : c ≠ .limit → f.SameShape g →
      CallPair S (.pushClause c f) (.pushClause c g)
  | reset : CallPair S .reset .reset

namespace Counterpart

variable {f g : Field} {c : ClauseKind}

theorem pushAll (h : Counterpart e e' s t) (hc : c ≠ .limit) {fs gs : List Fragment}
    (hfg : Forall₂ Fragment.SameShape fs gs) :
    Counterpart e e' (s.pushAll c fs) (t.pushAll c gs) :=
  h.withState (h.state.pushAll c hfg)
    ((Snapshot.clause_pushAll_of_ne _ fs hc.symm).trans h.unlimited)

theorem push (h : Counterpart e e' s t) (hc : c ≠ .limit) {f g : Fragment}
    (hfg : f.SameShape g) : Counterpart e e' (s.push c f) (t.push c g) :=
  h.pushAll hc (.cons hfg .nil)

theorem pushPredicate (h : Counterpart e e' s t) (hc : c ≠ .limit) {f g : Fragment}
    (hfg : f.SameShape g) (op : BoolOp) :
    Counterpart e e' (s.pushPredicate c f op) (t.pushPredicate c g op) :=
  { h.push hc (hfg.withOp op) with lastPredicate := rfl }

theorem setLastOp (h : Counterpart e e' s t) (c : ClauseKind) (op : BoolOp) :
    Counterpart e e' (s.setLastOp c op) (t.setLastOp c op) := by
  refine h.withState (h.state.setLastOp c op) ?_
  by_cases hc : c = .limit
  · rw [hc, Snapshot.setLastOp, h.unlimited]
    exact h.unlimited
  · exact (Snapshot.clause_setLastOp_of_ne _ op (Ne.symm hc)).trans h.unlimited

theorem attempt (h : Counterpart e e' s t) {f g : Statement → Outcome Statement}
    (hstep : Alike (Counterpart e e') (f s) (g t)) :
    Counterpart e e' (s.attempt f) (t.attempt g) :=
  (simulation e e').attempt h hstep

theorem attemptAs (h : Counterpart e e' s t) (kind : StatementKind)
    {f g : Statement → Outcome Statement}
    (hstep : ∀ s t, Counterpart e e' s t → Alike (Counterpart e e') (f s) (g t)) :
    Counterpart e e' (s.attemptAs kind f) (t.attemptAs kind g) :=
  (simulation e e').attemptAs h kind hstep

theorem table (h : Counterpart e e' s t) (name : String) :
    Counterpart e e' (s.table name) (t.table name) := by
  apply h.attempt
  rw [h.engine, h.engine']
  apply (joined_alike (.text name)).bind
  intro f g hfg
  exact (fragment_end hfg .compact 0).bind fun name name' _ =>
    .ok (h.withState (h.state.withTable name name') h.unlimited)

theorem pushField (h : Counterpart e e' s t) (hf : FieldPair (Counterpart e e') f g)
    (place : NamedPlace) (hc : c ≠ .limit) :
    Alike (Counterpart e e')
      (do
        f.requireName place
        return s.pushAll c (← f.fragments s.engine))
      (do
        g.requireName place
        return t.pushAll c (← g.fragments t.engine)) := by
  rw [h.engine, h.engine', ← hf.requireName place]
  apply Alike.bind_left
  intro _
  exact (fragments_alike hf).bind fun fs gs hfg => .ok (h.pushAll hc hfg)

theorem source (h : Counterpart e e' s t) (hf : FieldPair (Counterpart e e') f g) :
    Counterpart e e' (s.source f) (t.source g) :=
  h.attemptAs _ fun _ _ h => h.pushField hf .source (by decide)

theorem select (h : Counterpart e e' s t) (hf : FieldPair (Counterpart e e') f g) :
    Counterpart e e' (s.select f) (t.select g) :=
  h.attemptAs _ fun _ _ h => h.pushField hf .selectList (by decide)

theorem selectJson (h : Counterpart e e' s t) (spec : JsonSpec) (shape : JsonShape)
    (aliasName : String) :
    Counterpart e e' (s.selectJson spec shape aliasName) (t.selectJson spec shape aliasName) := by
  apply h.attemptAs
  intro s t h
  rw [h.dialect, h.dialect', h.engine, h.engine']
  apply (compile_alike e e' spec shape).bind
  intro text text' hempty
  by_cases htext : text = ""
  · rw [if_pos htext, if_pos (hempty.mp htext)]
    exact .ok h
  rw [if_neg htext, if_neg (fun htext' => htext (hempty.mpr htext'))]
  by_cases hblank : Text.blank aliasName = true
  · rw [if_pos hblank, if_pos hblank]
    exact .ok (h.push (by decide) (.ofText text text'))
  · rw [if_neg hblank, if_neg hblank]
    exact (quoteIdent_end e e' aliasName).bind fun name name' _ =>
      .ok (h.push (by decide) (.ofText _ _))

theorem aggregate (h : Counterpart e e' s t) (function : String)
    (hf : FieldPair (Counterpart e e') f g) (aliasName : Option String) :
    Counterpart e e' (s.aggregate function f aliasName) (t.aggregate function g aliasName) := by
  apply h.attemptAs
  intro s t h
  rw [h.engine, h.engine']
  cases Aggregate.ofText? function with
  | none => exact .error rfl
  | some function =>
    apply (fragments_alike hf).bind
    intro fs gs hfg
    cases hfg with
    | nil => exact .error rfl
    | cons hab hrest =>
      cases hrest with
      | cons _ _ => exact .error rfl
      | nil =>
        have hcall := (hab.after (function.keyword ++ "(") (function.keyword ++ "(")).before ")" ")"
        cases aliasName with
        | none => exact .ok (h.push (by decide) hcall)
        | some aliasName =>
          exact (quoteIdent_end e e' aliasName).bind fun name name' _ =>
            .ok (h.push (by decide) (hcall.before _ _))

theorem setColumns (h : Counterpart e e' s t) {columns columns' : List String}
    (hcolumns : Forall₂ (SameName e e') columns columns') :
    Counterpart e e' (s.setColumns columns) (t.setColumns columns') := by
  rw [Statement.setColumns, Statement.setColumns]
  have hnil : s.insertColumns = [] ↔ t.insertColumns = [] := by
    rw [← List.isEmpty_iff, ← List.isEmpty_iff, isEmpty_eq h.insertColumns]
  by_cases hs : s.insertColumns = []
  · rw [if_pos hs, if_pos (hnil.mp hs)]
    exact { h.push (c := .insert) (by decide) (.ofText _ _) with insertColumns := hcolumns }
  · rw [if_neg hs, if_neg (fun ht => hs (hnil.mpr ht))]
    exact h

theorem pushRow (h : Counterpart e e' s t) (row : Row) :
    Alike (Counterpart e e') (s.pushRow row) (t.pushRow row) := by
  rw [Statement.pushRow, Statement.pushRow, h.engine, h.engine']
  split
  · exact .error rfl
  apply (escapeRow_alike row .nil).bind
  intro ps qs hpq
  have hset := h.setColumns (names_of_columns hpq)
  exact (alignRow_end hpq hset.insertColumns).bind fun _ _ _ =>
    .ok (hset.push (by decide) (.ofText _ _))

theorem insert (h : Counterpart e e' s t) (rows : List Row) :
    Counterpart e e' (s.insert rows) (t.insert rows) := by
  apply h.attemptAs
  intro s t h
  split
  · exact .error rfl
  · exact Alike.foldlM (P := Eq) (List.forall₂_same.mpr fun _ _ => rfl)
      (fun s t row row' h hrow => hrow ▸ h.pushRow row) h

theorem checkLimit (h : Counterpart e e' s t) :
    Alike (Counterpart e e') s.checkLimit t.checkLimit := by
  rw [Statement.checkLimit, Statement.checkLimit, h.unlimited, h.unlimited']
  exact .ok h

theorem update (h : Counterpart e e' s t) (row : Row) :
    Counterpart e e' (s.update row) (t.update row) := by
  apply h.attemptAs
  intro s t h
  rw [h.engine, h.engine']
  split
  · exact .error rfl
  apply (escapeRow_alike row .nil).bind
  intro ps qs hpq
  refine (h.pushAll (by decide) ?_).checkLimit
  rw [List.forall₂_map_left_iff, List.forall₂_map_right_iff]
  exact hpq.imp fun p q _ => .ofText _ _

theorem delete (h : Counterpart e e' s t) : Counterpart e e' s.delete t.delete :=
  h.attemptAs _ fun _ _ h => h.checkLimit

theorem join (h : Counterpart e e' s t) (kind : JoinKind)
    (hf : FieldPair (Counterpart e e') f g) (on : String) (params : List Value) :
    Counterpart e e' (s.join kind f on params) (t.join kind g on params) := by
  apply h.attempt
  rw [h.engine, h.engine', ← hf.requireName .join]
  apply Alike.bind_left
  intro _
  apply (joined_alike hf).bind
  intro a b hab
  have hjoin := hab.after (kind.keyword ++ " ") (kind.keyword ++ " ")
  dsimp only
  split
  · exact .ok (h.push (by decide) hjoin)
  · exact (prepare_end e e' on params).bind fun _ _ _ =>
      .ok (h.push (by decide) (hjoin.before _ _))

theorem pushTemplate (h : Counterpart e e' s t) (hc : c ≠ .limit) (template : String)
    (params : List Value) (op : BoolOp) :
    Alike (Counterpart e e') (s.pushTemplate c template params op)
      (t.pushTemplate c template params op) := by
  rw [Statement.pushTemplate, Statement.pushTemplate, h.engine, h.engine']
  split
  · exact .error rfl
  · exact (prepare_end e e' template params).bind fun _ _ _ =>
      .ok (h.pushPredicate hc (.ofText _ _) op)

theorem predicateWith (h : Counterpart e e' s t) (hc : c ≠ .limit) (template : String)
    (params : List Value) (op : String) :
    Counterpart e e' (s.predicateWith c template params op)
      (t.predicateWith c template params op) := by
  apply h.attempt
  cases BoolOp.ofText? op with
  | none => exact .error rfl
  | some op => exact h.pushTemplate hc template params op

theorem filterWith (h : Counterpart e e' s t) (template : String) (params : List Value)
    (op : String) :
    Counterpart e e' (s.filterWith template params op) (t.filterWith template params op) :=
  h.predicateWith (by decide) template params op

theorem havingWith (h : Counterpart e e' s t) (template : String) (params : List Value)
    (op : String) :
    Counterpart e e' (s.havingWith template params op) (t.havingWith template params op) :=
  h.predicateWith (by decide) template params op

theorem filterIn (h : Counterpart e e' s t) (field : String) (values : Value) :
    Counterpart e e' (s.filterIn field values) (t.filterIn field values) := by
  apply h.attempt
  rw [h.engine, h.engine']
  exact (prepare_end e e' "?? IN (?)" [.text field, values]).bind fun _ _ _ =>
    .ok (h.pushPredicate (by decide) (.ofText _ _) .and)

theorem filterInSub (h : Counterpart e e' s t) (field : String) {a b : Statement}
    (hab : Counterpart e e' a b) :
    Counterpart e e' (s.filterInSub field a) (t.filterInSub field b) := by
  apply h.attempt
  rw [h.engine, h.engine']
  apply (quoteIdent_end e e' field).bind
  intro name name' _
  refine hab.nested.bind fun x y hxy => .ok (h.pushPredicate (by decide) ?_ .and)
  exact .mk _ (.cons (.sql _ _) (.cons (.sub hxy) .nil))

theorem search (h : Counterpart e e' s t) (hf : FieldPair (Counterpart e e') f g)
    (term : String) : Counterpart e e' (s.search f term) (t.search g term) := by
  apply h.attempt
  rw [h.engine, h.engine', ← hf.hasNoSearchField]
  split
  · exact .error rfl
  apply (fragments_alike hf).bind
  intro fs gs hfg
  apply (Alike.mapM (Q := fun _ _ => True) hfg fun _ _ hab => searchColumn_end hab).bind
  intro columns columns' hcolumns
  exact (fulltext_end e e' hcolumns term).bind fun _ _ _ =>
    .ok (h.pushPredicate (by decide) (.ofText _ _) .and)

theorem connect (h : Counterpart e e' s t) (op : BoolOp) :
    Counterpart e e' (s.connect op) (t.connect op) := by
  rw [Statement.connect, Statement.connect, ← h.lastPredicate]
  exact h.setLastOp _ op

theorem groupBy (h : Counterpart e e' s t) (hf : FieldPair (Counterpart e e') f g) :
    Counterpart e e' (s.groupBy f) (t.groupBy g) := by
  apply h.attempt
  rw [h.engine, h.engine']
  exact (fragments_alike hf).bind fun fs gs hfg => .ok (h.pushAll (by decide) hfg)

theorem orderBy (h : Counterpart e e' s t) (hf : FieldPair (Counterpart e e') f g)
    (direction : String) :
    Counterpart e e' (s.orderBy f direction) (t.orderBy g direction) := by
  apply h.attempt
  rw [h.engine, h.engine']
  cases SortOrder.ofText? direction with
  | none => exact .error rfl
  | some order =>
    refine (fragments_alike hf).bind fun fs gs hfg => .ok (h.pushAll (by decide) ?_)
    rw [List.forall₂_map_left_iff, List.forall₂_map_right_iff]
    exact hfg.imp fun _ _ hab => hab.before _ _

theorem pushClause (h : Counterpart e e' s t) (hc : c ≠ .limit) {f g : Fragment}
    (hfg : f.SameShape g) : Counterpart e e' (s.pushClause c f) (t.pushClause c g) := by
  have hpredicate := h.pushPredicate hc hfg g.opOrAnd
  cases c with
  | filter | having =>
    unfold Statement.pushClause
    rw [hfg.opOrAnd]
    exact hpredicate
  | _ => exact h.push hc hfg

theorem reset (h : Counterpart e e' s t) : Counterpart e e' s.reset t.reset :=
  { h with
    insertColumns := .nil
    lastPredicate := rfl
    error := rfl
    state := h.state.clear.withKind none
    unlimited := Snapshot.clause_clear s.state .limit }

theorem apply {S : Statement → Statement → Prop} (hS : ∀ s t, S s t → Counterpart e e' s t)
    {c d : Call} (hcd : CallPair S c d) (h : Counterpart e e' s t) :
    Counterpart e e' (s.apply c) (t.apply d) := by
  cases hcd with
  | config config =>
    exact { h with
      dialect := h.dialect
      dialect' := h.dialect' }
  | table name => exact h.table name
  | withAlias name => exact { h with aliasName := rfl }
  | source hf => exact h.source (hf.mono hS)
  | select hf => exact h.select (hf.mono hS)
  | selectJson spec shape aliasName => exact h.selectJson spec shape aliasName
  | aggregate function aliasName hf => exact h.aggregate function (hf.mono hS) aliasName
  | insert rows => exact h.insert rows
  | update row => exact h.update row
  | delete => exact h.delete
  | join kind on params hf => exact h.join kind (hf.mono hS) on params
  | filter template params => exact h.filterWith template params "AND"
  | filterWith template params op => exact h.filterWith template params op
  | orFilter template params => exact (h.setLastOp .filter .or).filterWith template params "AND"
  | andFilter template params => exact (h.setLastOp .filter .and).filterWith template params "AND"
  | filterIn field values => exact h.filterIn field values
  | filterInSub field hsub => exact h.filterInSub field (hS _ _ hsub)
  | search term hf => exact h.search (hf.mono hS) term
  | having template params => exact h.havingWith template params "AND"
  | havingWith template params op => exact h.havingWith template params op
  | orHaving template params => exact (h.setLastOp .having .or).havingWith template params "AND"
  | connect op => exact h.connect op
  | groupBy hf => exact h.groupBy (hf.mono hS)
  | orderBy direction hf => exact h.orderBy (hf.mono hS) direction
  | pushClause hc hfg => exact h.pushClause hc hfg
  | reset => exact h.reset

theorem run {S : Statement → Statement → Prop} (hS : ∀ s t, S s t → Counterpart e e' s t)
    {cs ds : List Call} (hcd : Forall₂ (CallPair S) cs ds) (h : Counterpart e e' s t) :
    Counterpart e e' (s.run cs) (t.run ds) := by
  induction hcd generalizing s t with
  | nil => exact h
  | cons hc _ ih => exact ih (h.apply hS hc)

theorem toSql_end (h : Counterpart e e' s t) (layout : Layout) :
    SameEnd (s.toSql layout) (t.toSql layout) :=
  h.checked.bind fun _ _ hab => render_end hab layout

end Counterpart

/-- One program run on MySQL and on PostgreSQL. Statements nest less than `n` deep in it, each
built for the engine of the one around it. -/
def Ported : Nat → Statement → Statement → Prop
  | 0, _, _ => False
  | n + 1, s, t => ∃ cs ds, Forall₂ (CallPair (Ported n)) cs ds ∧
      s = (Statement.new .mysql).run cs ∧ t = (Statement.new .postgres).run ds

theorem Ported.counterpart {n : Nat} (h : Ported n s t) : Counterpart .mysql .postgres s t := by
  induction n generalizing s t with
  | zero => exact h.elim
  | succ n ih =>
    obtain ⟨cs, ds, hcd, rfl, rfl⟩ := h
    exact Counterpart.run (fun _ _ => ih) hcd (.new .mysql .postgres)

/-- The two dialects accept the same programs: after every call the two runs hold the same kind of
error or none, and without one their snapshots have one shape, and both render or both fail with
the same kind of error. -/
theorem dialects_accept_alike {n : Nat} {cs ds : List Call}
    (h : Forall₂ (CallPair (Ported n)) cs ds) (k : Nat) :
    let s := (Statement.new .mysql).run (cs.take k)
    let t := (Statement.new .postgres).run (ds.take k)
    s.error.map SqlError.kind = t.error.map SqlError.kind ∧
    Alike Snapshot.SameShape s.toStructured t.toStructured ∧
    ∀ layout, SameEnd (s.toSql layout) (t.toSql layout) := by
  have hrun := Counterpart.run (fun _ _ => Ported.counterpart) (List.forall₂_take k h)
    (.new .mysql .postgres)
  exact ⟨hrun.error, hrun.checked, hrun.toSql_end⟩

def userImport (d : Dialect) : List Call :=
  [.table "users",
   .insert [[("id", .int 1), ("s.name", .text "it's")],
     [("\x60s\x60.name", .null), (" \"id\" ", .int 2)]],
   .insert [[("id", .int 3), ("name", .null)]],
   .reset,
   .select (.text "id, s.name AS n"),
   .filterInSub "id" ((Statement.new d).run
     [.table "logins", .select (.text "user_id"), .filter "at > ?" [.int 7]]),
   .pushClause .ordering (.ofText "id DESC")]

theorem userImport_ported :
    Forall₂ (CallPair (Ported 1)) (userImport .mysql) (userImport .postgres) := by
  refine .cons (.table _) (.cons (.insert _) (.cons (.insert _) (.cons .reset
    (.cons (.select (.text _)) (.cons (.filterInSub _ ?_)
      (.cons (.pushClause (by decide) (.refl _)) .nil))))))
  exact ⟨_, _, .cons (.table _) (.cons (.select (.text _)) (.cons (.filter _ _) .nil)), rfl, rfl⟩

/-- What the calls come to on PostgreSQL is known from MySQL. -/
theorem dialects_accept_userImport :
    Forall₂ (CallPair (Ported 1)) (userImport .mysql) (userImport .postgres) ∧
    (((Statement.new .postgres).run ((userImport .postgres).take 2)).toSql
      .pretty).toOption.isSome ∧
    ((Statement.new .postgres).run ((userImport .postgres).take 3)).error.map SqlError.kind =
      some .shape ∧
    (((Statement.new .postgres).run (userImport .postgres)).toSql .compact).toOption.isSome := by
  have hrows := (dialects_accept_alike userImport_ported 2).2.2 .pretty
  have hrefused := (dialects_accept_alike userImport_ported 3).1
  have hnested := (dialects_accept_alike userImport_ported 7).2.2 .compact
  refine ⟨userImport_ported, ?_, ?_, ?_⟩
  · rw [← hrows.isSome_eq]
    decide +kernel
  · rw [← hrefused]
    decide +kernel
  · exact hnested.isSome_eq ▸ (by decide +kernel)

end SqlBuilder.Portable
