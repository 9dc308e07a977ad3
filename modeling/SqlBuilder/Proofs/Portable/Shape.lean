import SqlBuilder.Proofs.Block

/-!
# Snapshots of one shape

Two snapshots that differ in their texts only. What is added to both in the same place keeps
their shape, and so does every change that builder calls make.
-/
namespace SqlBuilder

open List (Forall₂)

mutual

inductive Part.SameShape : Part → Part → Prop where
  | sql (s t : String) : Part.SameShape (.sql s) (.sql t)
  | sub {a b : Snapshot} : Snapshot.SameShape a b → Part.SameShape (.sub a) (.sub b)

inductive Fragment.SameShape : Fragment → Fragment → Prop where
  | mk {ps qs : List Part} (op : Option BoolOp) : Forall₂ Part.SameShape ps qs →
      Fragment.SameShape ⟨ps, op⟩ ⟨qs, op⟩

/-- The same kind, a target in both or in neither, the same clauses written, and in each of them
fragments of one shape. -/
inductive Snapshot.SameShape : Snapshot → Snapshot → Prop where
  | mk {a b : Snapshot} : a.kind = b.kind → a.table.isSome = b.table.isSome →
      a.isSub = b.isSub →
      (∀ c, Option.Rel (Forall₂ Fragment.SameShape) (a.clauses.get c) (b.clauses.get c)) →
      Snapshot.SameShape a b

end

namespace Fragment.SameShape

variable {f g f' g' : Fragment} {s t : String}

theorem op (h : f.SameShape g) : f.op = g.op := by
  cases h with
  | mk op hparts => rfl

theorem parts (h : f.SameShape g) : Forall₂ Part.SameShape f.parts g.parts := by
  cases h with
  | mk op hparts => exact hparts

theorem of_parts (hparts : Forall₂ Part.SameShape f.parts g.parts) (hop : f.op = g.op) :
    f.SameShape g := by
  cases f
  cases g
  cases hop
  exact .mk _ hparts

theorem of_subs (hsub : ∀ a, .sub a ∈ f.parts → a.SameShape a) : f.SameShape f := by
  refine of_parts (List.forall₂_same.mpr fun p hp => ?_) rfl
  cases p with
  | sql text => exact .sql text text
  | sub a => exact .sub (hsub a hp)

theorem ofText (s t : String) : SameShape (.ofText s) (.ofText t) := .mk _ (.cons (.sql s t) .nil)

theorem withOp (h : f.SameShape g) (op : BoolOp) : SameShape (f.withOp op) (g.withOp op) :=
  .mk _ h.parts

theorem opOrAnd (h : f.SameShape g) : f.opOrAnd = g.opOrAnd := by
  rw [Fragment.opOrAnd, Fragment.opOrAnd, h.op]

theorem after (h : f.SameShape g) (s t : String) : SameShape (f.after s) (g.after t) :=
  of_parts (.cons (.sql s t) h.parts) h.op

theorem before (h : f.SameShape g) (s t : String) : SameShape (f.before s) (g.before t) :=
  of_parts (List.rel_append h.parts (.cons (.sql s t) .nil)) h.op

theorem join (h : f.SameShape g) (sep : String) (h' : f'.SameShape g') :
    SameShape (f.join sep f') (g.join sep g') :=
  of_parts (List.rel_append h.parts (.cons (.sql sep sep) h'.parts)) h.op

theorem hasSub (h : f.SameShape g) : f.hasSub = g.hasSub := by
  have hparts := h.parts
  rw [Fragment.hasSub, Fragment.hasSub]
  generalize f.parts = ps at hparts
  generalize g.parts = qs at hparts
  induction hparts with
  | nil => rfl
  | cons hpq _ ih =>
    cases hpq with
    | sql s t => exact ih
    | sub hab => rfl

end Fragment.SameShape

namespace Snapshot.SameShape

variable {a b : Snapshot}

theorem kind (h : a.SameShape b) : a.kind = b.kind := by
  cases h with
  | mk hkind htable hsub hclauses => exact hkind

theorem table (h : a.SameShape b) : a.table.isSome = b.table.isSome := by
  cases h with
  | mk hkind htable hsub hclauses => exact htable

theorem isSub (h : a.SameShape b) : a.isSub = b.isSub := by
  cases h with
  | mk hkind htable hsub hclauses => exact hsub

theorem clauses (h : a.SameShape b) (c : ClauseKind) :
    Option.Rel (Forall₂ Fragment.SameShape) (a.clauses.get c) (b.clauses.get c) := by
  cases h with
  | mk hkind htable hsub hclauses => exact hclauses c

theorem clause (h : a.SameShape b) (c : ClauseKind) :
    Forall₂ Fragment.SameShape (a.clause c) (b.clause c) := by
  have hc := h.clauses c
  rw [Snapshot.clause, Snapshot.clause]
  generalize a.clauses.get c = x at hc
  generalize b.clauses.get c = y at hc
  cases hc with
  | none => exact .nil
  | some hfg => exact hfg

theorem refl (a : Snapshot) : a.SameShape a := by
  induction a using Snapshot.nesting_induction with
  | step a ih =>
    refine .mk rfl rfl rfl fun c => ?_
    cases hfs : a.clauses.get c with
    | none => exact .none
    | some fs =>
      refine .some (List.forall₂_same.mpr fun f hf => .of_subs (ih c f ?_))
      rwa [Snapshot.clause, hfs]

theorem setClause (h : a.SameShape b) (c : ClauseKind) {fs gs : List Fragment}
    (hfg : Forall₂ Fragment.SameShape fs gs) :
    (a.setClause c fs).SameShape (b.setClause c gs) := by
  refine .mk h.kind h.table h.isSub fun c' => ?_
  rw [Snapshot.setClause, Snapshot.setClause]
  by_cases hc : c' = c
  · subst hc
    rw [PerClause.get_set_self, PerClause.get_set_self]
    exact .some hfg
  · rw [PerClause.get_set_of_ne _ _ hc, PerClause.get_set_of_ne _ _ hc]
    exact h.clauses c'

theorem push (h : a.SameShape b) (c : ClauseKind) {f g : Fragment} (hfg : f.SameShape g) :
    (a.push c f).SameShape (b.push c g) :=
  h.setClause c (List.rel_append (h.clause c) (.cons hfg .nil))

theorem pushAll (h : a.SameShape b) (c : ClauseKind) {fs gs : List Fragment}
    (hfg : Forall₂ Fragment.SameShape fs gs) : (a.pushAll c fs).SameShape (b.pushAll c gs) :=
  List.rel_foldl (fun _ _ h _ _ hfg => h.push c hfg) h hfg

theorem clear (h : a.SameShape b) : a.clear.SameShape b.clear := by
  refine .mk h.kind h.table h.isSub fun c => ?_
  rw [Snapshot.clear, Snapshot.clear, PerClause.get_ofFn]
  exact .none

theorem withKind (h : a.SameShape b) (kind : Option StatementKind) :
    SameShape { a with kind := kind } { b with kind := kind } :=
  .mk rfl h.table h.isSub h.clauses

theorem withTable (h : a.SameShape b) (name name' : String) :
    SameShape { a with table := some name } { b with table := some name' } :=
  .mk h.kind rfl h.isSub h.clauses

theorem nested (h : a.SameShape b) :
    SameShape { a with isSub := true } { b with isSub := true } :=
  .mk h.kind h.table rfl h.clauses

theorem setLastOp (h : a.SameShape b) (c : ClauseKind) (op : BoolOp) :
    (a.setLastOp c op).SameShape (b.setLastOp c op) := by
  rw [Snapshot.setLastOp, Snapshot.setLastOp]
  rcases Outcome.concat_of_forall₂ (h.clause c) with ⟨ha, hb⟩ | ⟨fs, f, gs, g, ha, hb, hs, hfg⟩
  · rw [ha, hb]
    exact h
  · rw [ha, hb, List.getLast?_concat, List.getLast?_concat, List.dropLast_concat,
      List.dropLast_concat]
    exact h.setClause c (List.rel_append hs (.cons (hfg.withOp op) .nil))

end Snapshot.SameShape

theorem Fragment.SameShape.refl (f : Fragment) : f.SameShape f := .of_subs fun a _ => .refl a

end SqlBuilder
