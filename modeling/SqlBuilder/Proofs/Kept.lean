import SqlBuilder.Proofs.Edits
import SqlBuilder.Proofs.Render

/-!
# Which clauses reach the text

A clause that belongs to one kind of statement is empty in every other, at any time of
building. So a rendered statement holds every fragment of its state, unless it is an UPDATE
or a DELETE with joins, a grouping or a HAVING, which are left out without an error.
-/
namespace SqlBuilder

open List (Forall₂)
open Relation (ReflTransGen)

namespace Statement

variable {s t : Statement}

/-- A clause that only one kind of statement has is empty in the others. -/
def Confined (s : Statement) : Prop :=
  ∀ c k, c.owner? = some k → s.state.clause c ≠ [] → s.kind = some k

theorem clause_setLastOp_eq_nil (s : Snapshot) (c c' : ClauseKind) (op : BoolOp) :
    (s.setLastOp c op).clause c' = [] ↔ s.clause c' = [] := by
  rw [Snapshot.setLastOp]
  rcases List.eq_nil_or_concat (s.clause c) with h | ⟨fs, f, h⟩
  · rw [h]
    rfl
  · rw [h, List.concat_eq_append, List.getLast?_concat, List.dropLast_concat]
    by_cases hc : c' = c
    · subst hc
      simp [h]
    · rw [Snapshot.clause_setClause_of_ne _ _ hc]

theorem kind_setLastOp (s : Snapshot) (c : ClauseKind) (op : BoolOp) :
    (s.setLastOp c op).kind = s.kind := by
  rw [Snapshot.setLastOp]
  split <;> rfl

theorem confined_of_empty (h : ∀ c, s.state.clause c = []) : Confined s :=
  fun c _ _ hne => absurd (h c) hne

theorem confined_switchKind (h : Confined s) (kind : StatementKind) :
    Confined (s.switchKind kind) := by
  rw [switchKind]
  cases hs : s.kind with
  | none =>
    intro c k hc hne
    have hk := h c k hc hne
    rw [hs] at hk
    cases hk
  | some k =>
    by_cases hk : k = kind
    · simp only [hk, if_true]
      exact h
    · simp only [hk, if_false]
      exact confined_of_empty fun c => Snapshot.clause_clear s.state c

theorem confined_edit (hedit : Edit s t) (h : Confined s) : Confined t := by
  cases hedit with
  | switch kind => exact confined_switchKind h kind
  | push c f hc =>
    intro c' k hk hne
    by_cases heq : c' = c
    · subst heq
      exact hc k hk
    · refine h c' k hk fun hnil => hne ?_
      exact (Snapshot.clause_setClause_of_ne _ _ heq).trans hnil
  | limit f =>
    intro c k hk hne
    have hc : c ≠ .limit := by
      rintro rfl
      cases hk
    refine h c k hk fun hnil => hne ?_
    exact (Snapshot.clause_setClause_of_ne _ _ hc).trans hnil
  | op c op =>
    intro c' k hk hne
    have hkind : (s.setLastOp c op).kind = s.kind := kind_setLastOp s.state c op
    rw [hkind]
    exact h c' k hk fun hnil => hne ((clause_setLastOp_eq_nil s.state c c' op).mpr hnil)
  | reset => exact confined_of_empty fun c => Snapshot.clause_clear s.state c
  | _ => exact h

/-- However a statement is built, its clauses fit its kind. -/
theorem confined_edits (hedits : Edits s t) (h : Confined s) : Confined t := by
  induction hedits with
  | refl => exact h
  | tail _ hedit ih => exact confined_edit hedit ih

theorem confined_new (d : Dialect) : Confined (new d) :=
  confined_of_empty fun c => by cases c <;> rfl

end Statement

/-- The parts stand in the text one behind the other, with anything around them. -/
inductive InOrder : List (List Char) → List Char → Prop where
  | none : InOrder [] []
  | other (c : Char) {parts : List (List Char)} {text : List Char} : InOrder parts text →
      InOrder parts (c :: text)
  | part (a : List Char) {parts : List (List Char)} {text : List Char} : InOrder parts text →
      InOrder (a :: parts) (a ++ text)

namespace InOrder

variable {parts parts' : List (List Char)} {text text' : List Char}

theorem after (h : InOrder parts text) (g : List Char) : InOrder parts (g ++ text) := by
  induction g with
  | nil => exact h
  | cons c g ih => exact .other c ih

theorem append (h : InOrder parts text) (h' : InOrder parts' text') :
    InOrder (parts ++ parts') (text ++ text') := by
  induction h with
  | none => exact h'
  | other c _ ih => exact .other c ih
  | part a _ ih =>
    rw [List.cons_append, List.append_assoc]
    exact .part a ih

theorem length_le (h : InOrder parts text) {a : List Char} (ha : a ∈ parts) :
    a.length ≤ text.length := by
  induction h with
  | none => exact absurd ha List.not_mem_nil
  | other c _ ih => exact Nat.le_succ_of_le (ih ha)
  | part b _ ih =>
    rw [List.length_append]
    rcases List.mem_cons.mp ha with rfl | ha
    · omega
    · have := ih ha
      omega

theorem of_woven {lines : List Pieces} {line : Pieces} (layout : Layout)
    (h : Woven lines line) :
    InOrder (lines.map fun a => (layout.write a).toList) (layout.write line).toList := by
  induction h with
  | none => exact .none
  | glue text _ ih =>
    rw [Layout.write_cons, String.toList_append]
    exact ih.after _
  | part a _ ih =>
    rw [Layout.write_append, String.toList_append]
    exact .part _ ih

end InOrder

namespace Snapshot

/-- The text holds these fragments, each rendered as it is rendered alone, in this order. -/
def Shows (layout : Layout) (fs : List Fragment) (text : String) : Prop :=
  ∃ texts, Forall₂ (fun f t => f.render layout 0 = .ok t) fs texts ∧
    InOrder (texts.map String.toList) text.toList

theorem Shows.append {layout : Layout} {fs gs : List Fragment} {a b : String}
    (h : Shows layout fs a) (h' : Shows layout gs b) : Shows layout (fs ++ gs) (a ++ b) := by
  obtain ⟨texts, htexts, ha⟩ := h
  obtain ⟨texts', htexts', hb⟩ := h'
  refine ⟨texts ++ texts', List.rel_append htexts htexts', ?_⟩
  rw [List.map_append, String.toList_append]
  exact ha.append hb

theorem Shows.length_le {layout : Layout} {fs : List Fragment} {text : String}
    (h : Shows layout fs text) {f : Fragment} (hf : f ∈ fs) {t : String}
    (ht : f.render layout 0 = .ok t) : t.toList.length ≤ text.toList.length := by
  obtain ⟨texts, htexts, horder⟩ := h
  have hmem : t ∈ texts := by
    clear horder
    induction htexts with
    | nil => exact absurd hf List.not_mem_nil
    | @cons g s fs texts hgs _ ih =>
      rcases List.mem_cons.mp hf with rfl | hf
      · rw [ht] at hgs
        cases hgs
        exact List.mem_cons_self
      · exact List.mem_cons_of_mem _ (ih hf)
  exact horder.length_le (List.mem_map_of_mem hmem)

theorem shows_of_line {layout : Layout} {fs : List Fragment} {line : Pieces}
    (h : Line 0 fs line) : Shows layout fs (layout.write line) := by
  obtain ⟨parts, hparts, hwoven⟩ := h
  refine ⟨parts.map layout.write, ?_, ?_⟩
  · rw [List.forall₂_map_right_iff]
    apply hparts.imp
    intro f a ha
    rw [Fragment.render_eq, ha]
    rfl
  · rw [List.map_map]
    exact .of_woven layout hwoven

theorem shows_of_lines {layout : Layout} {fss : List (List Fragment)} {lines : Lines}
    (h : Forall₂ (Line 0) fss lines) :
    Shows layout fss.flatten (layout.write ([Piece.clause 0].intercalate lines)) := by
  induction h with
  | nil => exact ⟨[], .nil, .none⟩
  | cons hline hrest ih =>
    cases hrest with
    | nil =>
      rw [List.intercalate_singleton, List.flatten_cons, List.flatten_nil, List.append_nil]
      exact shows_of_line hline
    | cons _ _ =>
      have hboundary : Shows layout [] (layout.write [Piece.clause 0]) :=
        ⟨[], .nil, by simpa using InOrder.none.after (layout.write [Piece.clause 0]).toList⟩
      rw [List.intercalate_cons_cons, List.flatten_cons, Layout.write_append, Layout.write_append]
      simpa using ((shows_of_line hline).append hboundary).append ih

theorem shows_of_render {s : Snapshot} {layout : Layout} {text : String}
    (h : s.render layout = .ok text) : Shows layout s.lines.flatten text := by
  obtain ⟨ps, hps, rfl⟩ := exists_pieces h
  obtain ⟨lines, hlines, rfl⟩ := lines_of_pieces hps
  have hjoin : Lines.join 0 s.isSub lines = [Piece.clause 0].intercalate lines := by
    simp [Lines.join]
  rw [hjoin]
  exact shows_of_lines hlines

def fragments (s : Snapshot) : List Fragment := ClauseKind.all.flatMap s.clause

/-- The clauses that a change of rows leaves out without an error. -/
def leftOut : List ClauseKind := [.join, .grouping, .having]

/-- An UPDATE or a DELETE that holds one of the clauses it leaves out. -/
def Drops (s : Snapshot) : Prop :=
  (s.kind = some .update ∨ s.kind = some .delete) ∧ ∃ c ∈ leftOut, s.clause c ≠ []

instance (s : Snapshot) : Decidable s.Drops := inferInstanceAs (Decidable (_ ∧ _))

/-- The statement with nothing in the clauses that may be left out. -/
def withoutLeftOut (s : Snapshot) : Snapshot :=
  leftOut.foldl (fun s c => s.setClause c []) s

theorem get_eq_nil_of_foreign? {α : Type} {c : PerClause (List α)} (h : c.foreign? = none)
    {k : ClauseKind} (hk : k ≠ .insert) : c.get k = [] := by
  have hall := List.find?_eq_none.mp h k (ClauseKind.mem_all k)
  simpa [hk] using hall

theorem clause_eq_nil_of_insert {s : Snapshot} (hkind : s.kind = some .insert) {layout : Layout}
    {text : String} (h : s.render layout = .ok text) {k : ClauseKind} (hk : k ≠ .insert) :
    s.clause k = [] := by
  obtain ⟨ps, hps, -⟩ := exists_pieces h
  rw [pieces_eq] at hps
  obtain ⟨lines, hlines, -⟩ := Outcome.exists_of_map_eq_ok hps
  rw [hkind] at hlines
  obtain ⟨name, -, hlines⟩ := Outcome.exists_of_bind_eq_ok hlines
  split at hlines
  · cases hlines
  · rename_i hrefused
    have hget := get_eq_nil_of_foreign? hrefused hk
    rw [get_tableEntries] at hget
    exact List.map_eq_nil_iff.mp hget

theorem fragments_eq (s : Snapshot) :
    s.fragments = s.clause .select ++ s.clause .aggregate ++ s.clause .source ++ s.clause .join
      ++ s.clause .filter ++ s.clause .grouping ++ s.clause .having ++ s.clause .ordering
      ++ s.clause .limit ++ s.clause .insert ++ s.clause .update := by
  simp [fragments, ClauseKind.all]

section Confined

variable {s : Statement} (hs : s.Confined)
include hs

theorem clause_eq_nil_of_owner (c : ClauseKind) (k : StatementKind) (hc : c.owner? = some k)
    (hk : s.state.kind ≠ some k) : s.state.clause c = [] := by
  by_contra hne
  exact hk (hs c k hc hne)

theorem fragments_of_select (hkind : s.state.kind.getD .select = .select) :
    s.state.lines.flatten = s.state.fragments := by
  have hinsert : s.state.kind ≠ some .insert := by
    intro h
    rw [h] at hkind
    cases hkind
  have hupdate : s.state.kind ≠ some .update := by
    intro h
    rw [h] at hkind
    cases hkind
  rw [flatten_lines, hkind, fragments_eq, clause_eq_nil_of_owner hs .insert .insert rfl hinsert,
    clause_eq_nil_of_owner hs .update .update rfl hupdate]
  simp [StatementKind.clauses]

theorem fragments_of_change
    (hkind : s.state.kind = some .update ∨ s.state.kind = some .delete)
    (hleft : ∀ c ∈ leftOut, s.state.clause c = []) :
    s.state.fragments = s.state.clause .filter ++ s.state.clause .ordering
      ++ s.state.clause .limit ++ s.state.clause .update := by
  have hselect : s.state.kind ≠ some .select := by
    rcases hkind with h | h <;> rw [h] <;> decide
  have hinsert : s.state.kind ≠ some .insert := by
    rcases hkind with h | h <;> rw [h] <;> decide
  rw [fragments_eq, clause_eq_nil_of_owner hs .select .select rfl hselect,
    clause_eq_nil_of_owner hs .aggregate .select rfl hselect,
    clause_eq_nil_of_owner hs .source .select rfl hselect,
    clause_eq_nil_of_owner hs .insert .insert rfl hinsert, hleft .join (by decide),
    hleft .grouping (by decide), hleft .having (by decide)]
  simp

/-- The lines of a rendered statement hold all its fragments, each once, if none is left
out. -/
theorem lines_perm_fragments (hdrops : ¬ s.state.Drops) {layout : Layout} {text : String}
    (h : s.state.render layout = .ok text) : s.state.lines.flatten.Perm s.state.fragments := by
  have hleft (hkind : s.state.kind = some .update ∨ s.state.kind = some .delete) :
      ∀ c ∈ leftOut, s.state.clause c = [] := by
    intro c hc
    by_contra hne
    exact hdrops ⟨hkind, c, hc, hne⟩
  cases hkind : s.state.kind with
  | none => exact .of_eq (fragments_of_select hs (by rw [hkind]; rfl))
  | some kind =>
    cases kind with
    | select => exact .of_eq (fragments_of_select hs (by rw [hkind]; rfl))
    | insert =>
      have hnil (k : ClauseKind) (hk : k ≠ .insert) : s.state.clause k = [] :=
        clause_eq_nil_of_insert hkind h hk
      rw [flatten_lines, hkind, fragments_eq]
      simp [StatementKind.clauses, hnil]
    | update =>
      have hswap : (s.state.clause .update ++ (s.state.clause .filter ++ s.state.clause .ordering
          ++ s.state.clause .limit)).Perm (s.state.clause .filter ++ s.state.clause .ordering
          ++ s.state.clause .limit ++ s.state.clause .update) := List.perm_append_comm
      rw [flatten_lines, hkind, fragments_of_change hs (.inl hkind) (hleft (.inl hkind))]
      simpa [StatementKind.clauses] using hswap
    | delete =>
      have hupdate := clause_eq_nil_of_owner hs .update .update rfl (by simp [hkind])
      rw [flatten_lines, hkind, fragments_of_change hs (.inr hkind) (hleft (.inr hkind)), hupdate]
      simp [StatementKind.clauses]

end Confined

theorem update_congr (table : Option String) {c c' : PerClause (List Entry)}
    (h : ∀ k ∈ StatementKind.update.clauses, c.get k = c'.get k) :
    Lines.update table c = Lines.update table c' := by
  have hupdate : c.update = c'.update := h .update (by decide)
  have hfilter : c.filter = c'.filter := h .filter (by decide)
  have hordering : c.ordering = c'.ordering := h .ordering (by decide)
  have hlimit : c.limit = c'.limit := h .limit (by decide)
  unfold Lines.update Lines.tail
  rw [hupdate, hfilter, hordering, hlimit]

theorem delete_congr (table : Option String) {c c' : PerClause (List Entry)}
    (h : ∀ k ∈ StatementKind.delete.clauses, c.get k = c'.get k) :
    Lines.delete table c = Lines.delete table c' := by
  have hfilter : c.filter = c'.filter := h .filter (by decide)
  have hordering : c.ordering = c'.ordering := h .ordering (by decide)
  have hlimit : c.limit = c'.limit := h .limit (by decide)
  unfold Lines.delete Lines.tail
  rw [hfilter, hordering, hlimit]

theorem clause_withoutLeftOut (s : Snapshot) {c : ClauseKind} (hc : c ∉ leftOut) :
    s.withoutLeftOut.clause c = s.clause c := by
  have hjoin : c ≠ .join := fun h => hc (h ▸ by decide)
  have hgrouping : c ≠ .grouping := fun h => hc (h ▸ by decide)
  have hhaving : c ≠ .having := fun h => hc (h ▸ by decide)
  simp only [withoutLeftOut, leftOut, List.foldl_cons, List.foldl_nil]
  rw [clause_setClause_of_ne _ _ hhaving, clause_setClause_of_ne _ _ hgrouping,
    clause_setClause_of_ne _ _ hjoin]

/-- Joins, a grouping and a HAVING never show in an UPDATE or a DELETE. -/
theorem render_withoutLeftOut {s : Snapshot}
    (hkind : s.kind = some .update ∨ s.kind = some .delete) (layout : Layout) :
    s.withoutLeftOut.render layout = s.render layout := by
  have hget (c : ClauseKind) (hc : c ∉ leftOut) :
      (tableEntries 0 s.withoutLeftOut.clauses).get c = (tableEntries 0 s.clauses).get c := by
    rw [get_tableEntries, get_tableEntries, clause_withoutLeftOut s hc]
  have hlines : Lines.ofKind s.kind s.table (tableEntries 0 s.withoutLeftOut.clauses) =
      Lines.ofKind s.kind s.table (tableEntries 0 s.clauses) := by
    rcases hkind with h | h
    · rw [h]
      refine update_congr _ fun k hk => hget k ?_
      revert k
      decide
    · rw [h]
      refine delete_congr _ fun k hk => hget k ?_
      revert k
      decide
  rw [render_eq, render_eq, pieces_eq, pieces_eq, ← hlines]
  rfl

end Snapshot

namespace Statement

/-- A statement built without finished fragments renders every fragment of its state, each
once, or fails. The only exceptions are an UPDATE and a DELETE with joins, a grouping or a
HAVING: they render as if these clauses were empty. -/
theorem fragments_shown_or_left_out (d : Dialect) {calls : List Call}
    (hbuilt : ∀ c ∈ calls, c.Built) (herror : ((new d).run calls).error = none)
    (layout : Layout) :
    (¬ ((new d).run calls).state.Drops → ∀ text, ((new d).run calls).toSql layout = .ok text →
      ∃ fs, fs.Perm ((new d).run calls).state.fragments ∧ Snapshot.Shows layout fs text) ∧
    (((new d).run calls).state.Drops →
      ((new d).run calls).toSql layout =
        ((new d).run calls).state.withoutLeftOut.render layout) := by
  have hconfined := confined_edits (edits_run (new d) hbuilt) (confined_new d)
  have hsql : ((new d).run calls).toSql layout = ((new d).run calls).state.render layout := by
    rw [toSql, checked, herror]
    rfl
  rw [hsql]
  constructor
  · intro hdrops text htext
    exact ⟨_, Snapshot.lines_perm_fragments hconfined hdrops htext,
      Snapshot.shows_of_render htext⟩
  · intro hdrops
    exact (Snapshot.render_withoutLeftOut hdrops.1 layout).symm

def userRename : List Call :=
  [.table "users", .update [("name", .text "rose")], .filter "id = ?" [.int 1]]

theorem userRename_shows_all :
    ((new .mysql).run userRename).error = none ∧ ¬ ((new .mysql).run userRename).state.Drops ∧
    ∃ fs, fs.Perm ((new .mysql).run userRename).state.fragments ∧
      Snapshot.Shows .compact fs
        "UPDATE \x60users\x60 SET \x60name\x60 = 'rose' WHERE (id = 1)" := by
  have hbuilt : ∀ c ∈ userRename, c.Built := by simp [userRename, Call.Built]
  have herror : ((new .mysql).run userRename).error = none :=
    Option.isNone_iff_eq_none.mp (by decide +kernel)
  have hdrops : ¬ ((new .mysql).run userRename).state.Drops := by decide +kernel
  have htext : ((new .mysql).run userRename).toSql .compact =
      .ok "UPDATE \x60users\x60 SET \x60name\x60 = 'rose' WHERE (id = 1)" :=
    Outcome.eq_ok_of_toOption (by decide +kernel)
  have hshown := (fragments_shown_or_left_out .mysql hbuilt herror .compact).1
  exact ⟨herror, hdrops, hshown hdrops _ htext⟩

def roleRemoval : List Call :=
  [.table "users", .join .inner (.text "roles") "?? = ??" [.text "users.role_id", .text "roles.id"],
   .delete]

/-- A DELETE with a join renders to a text without it, and removes all users. -/
theorem roleRemoval_loses_join :
    ¬ ∀ (d : Dialect) (calls : List Call), (∀ c ∈ calls, c.Built) →
      ((new d).run calls).error = none → ∀ layout text,
      ((new d).run calls).toSql layout = .ok text →
      ∃ fs, fs.Perm ((new d).run calls).state.fragments ∧ Snapshot.Shows layout fs text := by
  intro h
  have hbuilt : ∀ c ∈ roleRemoval, c.Built := by simp [roleRemoval, Call.Built]
  have herror : ((new .mysql).run roleRemoval).error = none :=
    Option.isNone_iff_eq_none.mp (by decide +kernel)
  have htext : ((new .mysql).run roleRemoval).toSql .compact =
      .ok "DELETE FROM \x60users\x60" := Outcome.eq_ok_of_toOption (by decide +kernel)
  let on := "\x60users\x60.\x60role_id\x60 = \x60roles\x60.\x60id\x60"
  have hjoin : some ("INNER JOIN \x60roles\x60 ON " ++ on) ∈
      ((new .mysql).run roleRemoval).state.fragments.map fun f =>
        (f.render .compact 0).toOption := by
    decide +kernel
  obtain ⟨f, hf, hrender⟩ := List.exists_of_mem_map hjoin
  obtain ⟨fs, hperm, hshows⟩ := h .mysql roleRemoval hbuilt herror .compact _ htext
  have hlength := hshows.length_le (hperm.mem_iff.mpr hf) (Outcome.eq_ok_of_toOption hrender)
  exact absurd hlength (by decide)

end Statement

end SqlBuilder
