import Mathlib.Logic.Relation
import SqlBuilder.Proofs.Pieces

/-!
# Nested statements

A statement holds others in the fragments of its clauses, and these hold others in turn. A nested
statement is smaller than the one that holds it, which is what every induction over the nesting
rests on.
-/
namespace SqlBuilder

open Relation (ReflTransGen)

def Part.sub? : Part → Option Snapshot
  | .sql _ => none
  | .sub s => some s

namespace Fragment

/-- The statements nested in a fragment, in their order. -/
def subs (f : Fragment) : List Snapshot := f.parts.filterMap Part.sub?

theorem mem_subs {f : Fragment} {t : Snapshot} : t ∈ f.subs ↔ .sub t ∈ f.parts := by
  rw [subs, List.mem_filterMap]
  constructor
  · rintro ⟨p, hp, hsub⟩
    cases p with
    | sql text => cases hsub
    | sub s =>
      cases hsub
      exact hp
  · intro h
    exact ⟨.sub t, h, rfl⟩

@[simp] theorem subs_ofText (text : String) : (ofText text).subs = [] := rfl

@[simp] theorem subs_withOp (f : Fragment) (op : BoolOp) : (f.withOp op).subs = f.subs := rfl

@[simp] theorem subs_after (f : Fragment) (text : String) : (f.after text).subs = f.subs := rfl

@[simp] theorem subs_before (f : Fragment) (text : String) : (f.before text).subs = f.subs := by
  rw [subs, before, List.filterMap_append]
  exact List.append_nil _

@[simp] theorem subs_join (sep : String) (f g : Fragment) :
    (join sep f g).subs = f.subs ++ g.subs := by
  rw [subs, join, List.filterMap_append]
  rfl

end Fragment

namespace Snapshot

def subsIn (s : Snapshot) (cs : List ClauseKind) : List Snapshot :=
  (cs.flatMap s.clause).flatMap Fragment.subs

/-- The other statement stands in some clause of this one. -/
def Holds (s t : Snapshot) : Prop := ∃ c, t ∈ s.subsIn [c]

/-- The other statement is this one, or nested in it at any depth. -/
def Within (s t : Snapshot) : Prop := ReflTransGen Holds s t

theorem mem_subsIn {s t : Snapshot} {cs : List ClauseKind} :
    t ∈ s.subsIn cs ↔ ∃ c ∈ cs, ∃ f ∈ s.clause c, .sub t ∈ f.parts := by
  simp only [subsIn, List.mem_flatMap, Fragment.mem_subs]
  constructor
  · rintro ⟨f, ⟨c, hc, hf⟩, ht⟩
    exact ⟨c, hc, f, hf, ht⟩
  · rintro ⟨c, hc, f, hf, ht⟩
    exact ⟨f, ⟨c, hc, hf⟩, ht⟩

theorem holds_iff {s t : Snapshot} : s.Holds t ↔ ∃ c, ∃ f ∈ s.clause c, .sub t ∈ f.parts := by
  simp only [Holds, mem_subsIn, List.mem_singleton, exists_eq_left]

theorem holds_iff_mem {s t : Snapshot} : s.Holds t ↔ t ∈ s.subsIn ClauseKind.all := by
  rw [holds_iff, mem_subsIn]
  exact exists_congr fun c => ⟨fun h => ⟨ClauseKind.mem_all c, h⟩, fun h => h.2⟩

/-- What is to be shown of a statement and all that is nested in it, level by level. -/
theorem forall_within {s : Snapshot} {P : Snapshot → Prop} (hself : P s)
    (hheld : ∀ t ∈ s.subsIn ClauseKind.all, ∀ u, t.Within u → P u) :
    ∀ u, s.Within u → P u := by
  intro u hu
  rcases ReflTransGen.cases_head_iff.mp hu with rfl | ⟨t, ht, hu⟩
  · exact hself
  · exact hheld t (holds_iff_mem.mp ht) u hu

end Snapshot

theorem sizeOf_of_mem_getD {fs : Option (List Fragment)} {f : Fragment} (h : f ∈ fs.getD []) :
    sizeOf f < sizeOf fs := by
  cases fs with
  | none => exact absurd h List.not_mem_nil
  | some fs =>
    have hmem := List.sizeOf_lt_of_mem h
    simp only [Option.getD_some] at hmem
    simp only [Option.some.sizeOf_spec]
    omega

theorem sizeOf_get {α : Type} [SizeOf α] (p : PerClause α) (c : ClauseKind) :
    sizeOf (p.get c) < sizeOf p := by
  cases p
  cases c <;> simp only [PerClause.get, PerClause.mk.sizeOf_spec] <;> omega

theorem sizeOf_of_mem_clause {s : Snapshot} {c : ClauseKind} {f : Fragment}
    (h : f ∈ s.clause c) : sizeOf f < sizeOf s := by
  obtain ⟨kind, table, isSub, clauses⟩ := s
  have hclause : sizeOf f < sizeOf (clauses.get c) := sizeOf_of_mem_getD h
  have htable := sizeOf_get clauses c
  simp only [Snapshot.mk.sizeOf_spec]
  omega

namespace Snapshot

theorem sizeOf_of_holds {s t : Snapshot} (h : s.Holds t) : sizeOf t < sizeOf s := by
  obtain ⟨c, f, hf, ht⟩ := holds_iff.mp h
  have hclause := sizeOf_of_mem_clause hf
  have hpart : sizeOf t < sizeOf f := by
    have hmem := List.sizeOf_lt_of_mem ht
    cases f
    simp only [Part.sub.sizeOf_spec, Fragment.mk.sizeOf_spec] at hmem ⊢
    omega
  omega

/-- A property of all statements holds once it passes from the nested statements of a
statement to the statement itself. -/
theorem nesting_induction {P : Snapshot → Prop}
    (step : ∀ s : Snapshot, (∀ c, ∀ f ∈ s.clause c, ∀ t, .sub t ∈ f.parts → P t) → P s)
    (s : Snapshot) : P s := by
  apply step s
  intro c f hf t ht
  have hsize := sizeOf_of_holds (holds_iff.mpr ⟨c, f, hf, ht⟩)
  exact nesting_induction step t
termination_by sizeOf s

end Snapshot

end SqlBuilder
