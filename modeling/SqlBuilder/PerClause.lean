import SqlBuilder.Keyword

/-!
# One thing per clause

A total table indexed by clause. Two tables are equal when they agree everywhere, and
writing one place changes no other.
-/
namespace SqlBuilder

structure PerClause (α : Type) where
  select : α
  aggregate : α
  source : α
  join : α
  filter : α
  grouping : α
  having : α
  ordering : α
  limit : α
  insert : α
  update : α
  deriving DecidableEq

namespace PerClause

def get (p : PerClause α) : ClauseKind → α
  | .select => p.select
  | .aggregate => p.aggregate
  | .source => p.source
  | .join => p.join
  | .filter => p.filter
  | .grouping => p.grouping
  | .having => p.having
  | .ordering => p.ordering
  | .limit => p.limit
  | .insert => p.insert
  | .update => p.update

def set (p : PerClause α) (c : ClauseKind) (a : α) : PerClause α :=
  match c with
  | .select => { p with select := a }
  | .aggregate => { p with aggregate := a }
  | .source => { p with source := a }
  | .join => { p with join := a }
  | .filter => { p with filter := a }
  | .grouping => { p with grouping := a }
  | .having => { p with having := a }
  | .ordering => { p with ordering := a }
  | .limit => { p with limit := a }
  | .insert => { p with insert := a }
  | .update => { p with update := a }

def ofFn (f : ClauseKind → α) : PerClause α :=
  ⟨f .select, f .aggregate, f .source, f .join, f .filter, f .grouping, f .having,
   f .ordering, f .limit, f .insert, f .update⟩

def map (f : α → β) (p : PerClause α) : PerClause β :=
  ⟨f p.select, f p.aggregate, f p.source, f p.join, f p.filter, f p.grouping, f p.having,
   f p.ordering, f p.limit, f p.insert, f p.update⟩

@[simp] theorem get_ofFn (f : ClauseKind → α) (c : ClauseKind) : (ofFn f).get c = f c := by
  cases c <;> rfl

@[simp] theorem get_map (f : α → β) (p : PerClause α) (c : ClauseKind) :
    (p.map f).get c = f (p.get c) := by
  cases c <;> rfl

@[simp] theorem get_set_self (p : PerClause α) (c : ClauseKind) (a : α) :
    (p.set c a).get c = a := by
  cases c <;> rfl

theorem get_set_of_ne (p : PerClause α) {c c' : ClauseKind} (a : α) (h : c' ≠ c) :
    (p.set c a).get c' = p.get c' := by
  cases c <;> cases c' <;> first | rfl | exact absurd rfl h

@[simp] theorem set_get (p : PerClause α) (c : ClauseKind) : p.set c (p.get c) = p := by
  cases c <;> rfl

@[simp] theorem set_set (p : PerClause α) (c : ClauseKind) (a b : α) :
    (p.set c a).set c b = p.set c b := by
  cases c <;> rfl

theorem ext_get {p q : PerClause α} (h : ∀ c, p.get c = q.get c) : p = q := by
  have h₁ := h .select
  have h₂ := h .aggregate
  have h₃ := h .source
  have h₄ := h .join
  have h₅ := h .filter
  have h₆ := h .grouping
  have h₇ := h .having
  have h₈ := h .ordering
  have h₉ := h .limit
  have h₁₀ := h .insert
  have h₁₁ := h .update
  cases p
  cases q
  simp_all [get]

end PerClause

end SqlBuilder
