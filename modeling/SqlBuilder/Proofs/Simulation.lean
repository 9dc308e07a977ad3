import SqlBuilder.Statement.Build
import SqlBuilder.Proofs.Outcome

/-!
# Statements that fail together

Two statements under two programs. Where a relation says that both hold the same kind of error,
if any, a step keeps it as soon as both succeed with related results or fail alike.
-/
namespace SqlBuilder.Statement

open Outcome (Alike)

variable {s t : Statement}

theorem error_cases (h : s.error.map SqlError.kind = t.error.map SqlError.kind) :
    (s.error = none ∧ t.error = none) ∨
      ∃ x y, s.error = some x ∧ t.error = some y ∧ x.kind = y.kind := by
  cases hs : s.error with
  | none =>
    cases ht : t.error with
    | none => exact .inl ⟨rfl, rfl⟩
    | some y =>
      rw [hs, ht] at h
      cases h
  | some x =>
    cases ht : t.error with
    | none =>
      rw [hs, ht] at h
      cases h
    | some y =>
      rw [hs, ht] at h
      exact .inr ⟨x, y, rfl, rfl, Option.some.inj h⟩

theorem checked_alike {P : Snapshot → Snapshot → Prop}
    (h : s.error.map SqlError.kind = t.error.map SqlError.kind) (hstate : P s.state t.state) :
    Alike P s.checked t.checked := by
  rw [checked, checked]
  rcases error_cases h with ⟨hs, ht⟩ | ⟨x, y, hs, ht, hk⟩
  · rw [hs, ht]
    exact .ok hstate
  · rw [hs, ht]
    exact .error hk

/-- Related statements hold errors of one kind, and stay related when both fail alike or both
choose a kind. -/
structure Simulation (S : Statement → Statement → Prop) : Prop where
  error : ∀ {s t}, S s t → s.error.map SqlError.kind = t.error.map SqlError.kind
  fail : ∀ {s t} {x y : SqlError}, S s t → x.kind = y.kind →
    S { s with error := some x } { t with error := some y }
  switch (kind : StatementKind) : ∀ {s t}, S s t → S (s.switchKind kind) (t.switchKind kind)

namespace Simulation

variable {S : Statement → Statement → Prop} (hS : Simulation S)
  {f g : Statement → Outcome Statement}
include hS

theorem attempt (h : S s t) (hstep : Alike S (f s) (g t)) :
    S (s.attempt f) (t.attempt g) := by
  rw [Statement.attempt, Statement.attempt]
  rcases error_cases (hS.error h) with ⟨hs, ht⟩ | ⟨x, y, hs, ht, -⟩
  · rw [hs, ht]
    generalize f s = x at hstep
    generalize g t = y at hstep
    cases hstep with
    | ok hab => exact hab
    | error hk => exact hS.fail h hk
  · rw [hs, ht]
    exact h

theorem attemptAs (h : S s t) (kind : StatementKind)
    (hstep : ∀ s t, S s t → Alike S (f s) (g t)) :
    S (s.attemptAs kind f) (t.attemptAs kind g) := by
  have hswitched := hS.switch kind h
  rw [Statement.attemptAs, Statement.attemptAs]
  rcases error_cases (hS.error h) with ⟨hs, ht⟩ | ⟨x, y, hs, ht, -⟩
  · rw [hs, ht]
    exact hS.attempt hswitched (hstep _ _ hswitched)
  · rw [hs, ht]
    exact h

end Simulation

end SqlBuilder.Statement
