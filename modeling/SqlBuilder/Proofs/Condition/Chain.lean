import SqlBuilder.Proofs.Condition.Level

/-!
# Chains of conditions

The level that a predicate list is written as: where the operator changes, the rest goes
into parentheses of its own. Its meaning is the conditions combined from the right.
-/
namespace SqlBuilder.Condition

variable {α : Type}

/-- A condition, the operator behind it and the conditions after it. A group holds the rest
where the operator changes, unless the rest is only one condition. -/
def chain (x : α × BoolOp) : List (α × BoolOp) → Level α
  | [] => .last (.cond x.1)
  | y :: rest =>
    if x.2 ≠ y.2 && !rest.isEmpty then .more (.cond x.1) x.2 (.last (.group (chain y rest)))
    else .more (.cond x.1) x.2 (chain y rest)

/-- The conditions combined from the right, each by the operator behind it. The last
operator joins nothing. -/
def rightNested (v : α → Bool) : List (α × BoolOp) → Bool
  | [] => true
  | [x] => v x.1
  | x :: y :: rest => combine x.2 (v x.1) (rightNested v (y :: rest))

theorem chain_cons (x y : α × BoolOp) (rest : List (α × BoolOp)) :
    chain x (y :: rest) =
      if x.2 ≠ y.2 && !rest.isEmpty then .more (.cond x.1) x.2 (.last (.group (chain y rest)))
      else .more (.cond x.1) x.2 (chain y rest) := rfl

theorem ops_chain (x : α × BoolOp) (xs : List (α × BoolOp)) :
    ∀ o ∈ (chain x xs).ops, o = x.2 := by
  induction xs generalizing x with
  | nil =>
    intro o ho
    exact absurd ho List.not_mem_nil
  | cons y rest ih =>
    rw [chain_cons]
    by_cases hgroup : (x.2 ≠ y.2 && !rest.isEmpty) = true
    · rw [if_pos hgroup]
      simp [Level.ops]
    · rw [if_neg hgroup, Level.ops, List.forall_mem_cons]
      refine ⟨rfl, fun o ho => ?_⟩
      by_cases hrest : rest = []
      · subst hrest
        exact absurd ho List.not_mem_nil
      · by_cases hop : x.2 = y.2
        · rw [hop]
          exact ih y o ho
        · exact absurd (by simp [hop, hrest]) hgroup

theorem uniform_chain (x : α × BoolOp) (xs : List (α × BoolOp)) : (chain x xs).Uniform := by
  induction xs generalizing x with
  | nil => exact trivial
  | cons y rest ih =>
    have hops := ops_chain x (y :: rest)
    rw [chain_cons] at hops ⊢
    split at hops
    · rw [if_pos ‹_›]
      exact ⟨trivial, ih y, fun o ho => absurd ho List.not_mem_nil⟩
    · rw [if_neg ‹_›]
      rw [Level.ops, List.forall_mem_cons] at hops
      exact ⟨trivial, ih y, hops.2⟩

theorem conds_chain (x : α × BoolOp) (xs : List (α × BoolOp)) :
    (chain x xs).conds = (x :: xs).map Prod.fst := by
  induction xs generalizing x with
  | nil => rfl
  | cons y rest ih =>
    rw [chain_cons]
    split <;> simp [Level.conds, Operand.conds, ih y]

/-- A chain means its conditions combined from the right, whichever operator binds tighter. -/
theorem value_chain (tighter : BoolOp) (v : α → Bool) (x : α × BoolOp)
    (xs : List (α × BoolOp)) : (chain x xs).value tighter v = rightNested v (x :: xs) := by
  induction xs generalizing x with
  | nil => simp [chain, Level.value, Level.valueAfter, Operand.value, rightNested]
  | cons y rest ih =>
    have hops := ops_chain x (y :: rest)
    rw [chain_cons] at hops ⊢
    by_cases hgroup : (x.2 ≠ y.2 && !rest.isEmpty) = true
    · have hops' : ∀ o ∈ (Level.last (.group (chain y rest))).ops, o = x.2 :=
        fun o ho => absurd ho List.not_mem_nil
      rw [if_pos hgroup, value_more hops', value_group, ih y]
      rfl
    · rw [if_neg hgroup, Level.ops, List.forall_mem_cons] at hops
      rw [if_neg hgroup, value_more hops.2, ih y]
      rfl

def numbered (n : Nat) : List (α × BoolOp) → List ((α × Nat) × BoolOp)
  | [] => []
  | x :: xs => ((x.1, n), x.2) :: numbered (n + 1) xs

theorem numbered_zip (n : Nat) (as : List α) (ops : List BoolOp) :
    numbered n (as.zip ops) = (as.zipIdx n).zip ops := by
  induction as generalizing n ops with
  | nil => rfl
  | cons a as ih =>
    cases ops with
    | nil => rfl
    | cons op ops => simp [numbered, ih]

theorem isEmpty_numbered (n : Nat) (xs : List (α × BoolOp)) :
    (numbered n xs).isEmpty = xs.isEmpty := by
  cases xs <;> rfl

theorem number_chain (n : Nat) (x : α × BoolOp) (xs : List (α × BoolOp))
    (ms : List (Mark α)) :
    number n ((chain x xs).marks ++ ms) =
      (chain ((x.1, n), x.2) (numbered (n + 1) xs)).marks ++ number (n + 1 + xs.length) ms := by
  induction xs generalizing n x ms with
  | nil => rfl
  | cons y rest ih =>
    have hlen : n + 1 + 1 + rest.length = n + 1 + (rest.length + 1) := by omega
    rw [numbered, chain_cons, chain_cons, isEmpty_numbered]
    split
    · have h := ih (n + 1) y (.closing :: ms)
      simp only [Level.marks, Operand.marks, List.cons_append, List.nil_append, List.append_assoc,
        number, h, List.length_cons, hlen]
    · have h := ih (n + 1) y ms
      simp only [Level.marks, Operand.marks, List.cons_append, List.nil_append, number, h,
        List.length_cons, hlen]

end SqlBuilder.Condition
