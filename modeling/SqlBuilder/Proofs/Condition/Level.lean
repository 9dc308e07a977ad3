import SqlBuilder.Keyword

/-!
# Levels of a condition

A boolean expression is a chain of operands on each level of parentheses. Its meaning may
depend on which operator binds tighter, except where only one operator occurs on a level.
-/
namespace SqlBuilder.Condition

mutual

inductive Operand (α : Type) where
  | cond (a : α)
  | group (inner : Level α)

/-- Operands on one level of parentheses, with an operator between any two. -/
inductive Level (α : Type) where
  | last (x : Operand α)
  | more (x : Operand α) (op : BoolOp) (rest : Level α)

end

/-- What stands in a text apart from blanks. -/
inductive Mark (α : Type) where
  | opening
  | closing
  | op (op : BoolOp)
  | cond (a : α)
  deriving DecidableEq, Repr

def combine : BoolOp → Bool → Bool → Bool
  | .and, a, b => a && b
  | .or, a, b => a || b

def neutral : BoolOp → Bool
  | .and => true
  | .or => false

variable {α β : Type}

mutual

/-- The value when `tighter` binds tighter than the other operator. -/
def Operand.value (tighter : BoolOp) (v : α → Bool) : Operand α → Bool
  | .cond a => v a
  | .group inner => inner.valueAfter tighter v (neutral tighter)

/-- The value of a level behind operands that `tighter` joins to its first one. -/
def Level.valueAfter (tighter : BoolOp) (v : α → Bool) (run : Bool) : Level α → Bool
  | .last x => combine tighter run (x.value tighter v)
  | .more x op rest =>
    if op = tighter then rest.valueAfter tighter v (combine tighter run (x.value tighter v))
    else combine op (combine tighter run (x.value tighter v))
      (rest.valueAfter tighter v (neutral tighter))

end

def Level.value (tighter : BoolOp) (v : α → Bool) (l : Level α) : Bool :=
  l.valueAfter tighter v (neutral tighter)

/-- The operators of a level, those in parentheses aside. -/
def Level.ops : Level α → List BoolOp
  | .last _ => []
  | .more _ op rest => op :: rest.ops

mutual

def Operand.conds : Operand α → List α
  | .cond a => [a]
  | .group inner => inner.conds

def Level.conds : Level α → List α
  | .last x => x.conds
  | .more x _ rest => x.conds ++ rest.conds

end

mutual

def Operand.Uniform : Operand α → Prop
  | .cond _ => True
  | .group inner => inner.Uniform

/-- Only one kind of operator occurs on each level. -/
def Level.Uniform : Level α → Prop
  | .last x => x.Uniform
  | .more x op rest => x.Uniform ∧ rest.Uniform ∧ ∀ o ∈ rest.ops, o = op

end

@[simp] theorem combine_neutral (op : BoolOp) (a : Bool) : combine op (neutral op) a = a := by
  cases op <;> cases a <;> rfl

theorem combine_assoc (op : BoolOp) (a b c : Bool) :
    combine op (combine op a b) c = combine op a (combine op b c) := by
  cases op <;> cases a <;> cases b <;> rfl

theorem value_group (l : Level α) (tighter : BoolOp) (v : α → Bool) :
    (Level.last (.group l)).value tighter v = l.value tighter v := by
  rw [Level.value, Level.valueAfter, combine_neutral, Operand.value]
  rfl

/-- Where only the tighter operator occurs, what stands before a level is combined with its
value. -/
theorem valueAfter_of_ops {tighter : BoolOp} {v : α → Bool} {l : Level α}
    (h : ∀ o ∈ l.ops, o = tighter) (run : Bool) :
    l.valueAfter tighter v run = combine tighter run (l.value tighter v) := by
  cases l with
  | last x => simp [Level.value, Level.valueAfter]
  | more x op rest =>
    rw [Level.ops, List.forall_mem_cons] at h
    simp only [Level.value, Level.valueAfter, h.1, if_true, combine_neutral]
    rw [valueAfter_of_ops h.2, valueAfter_of_ops h.2 (x.value tighter v), combine_assoc]

/-- On a level with one kind of operator it does not matter which one binds tighter. -/
theorem value_more {x : Operand α} {op : BoolOp} {rest : Level α}
    (h : ∀ o ∈ rest.ops, o = op) (tighter : BoolOp) (v : α → Bool) :
    (Level.more x op rest).value tighter v =
      combine op (x.value tighter v) (rest.value tighter v) := by
  by_cases hop : op = tighter
  · subst hop
    simp only [Level.value, Level.valueAfter, if_true, combine_neutral]
    exact valueAfter_of_ops h _
  · simp only [Level.value, Level.valueAfter, hop, if_false, combine_neutral]

mutual

def Operand.marks : Operand α → List (Mark α)
  | .cond a => [.cond a]
  | .group inner => .opening :: inner.marks ++ [.closing]

def Level.marks : Level α → List (Mark α)
  | .last x => x.marks
  | .more x op rest => x.marks ++ .op op :: rest.marks

end

/-- Operands with the operators behind them, the newest first. -/
abbrev Begun (α : Type) := List (Operand α × BoolOp)

def Begun.followedBy (begun : Begun α) (l : Level α) : Level α :=
  begun.foldl (fun l p => .more p.1 p.2 l) l

/-- Reads a level. `outer` are the levels around it, and `x` is the operand just read. -/
def read (begun : Begun α) (outer : List (Begun α)) (x : Option (Operand α)) :
    List (Mark α) → Option (Level α)
  | [] => match x, outer with
    | some x, [] => some (begun.followedBy (.last x))
    | _, _ => none
  | m :: ms => match m, x, outer with
    | .cond a, none, outer => read begun outer (some (.cond a)) ms
    | .opening, none, outer => read [] (begun :: outer) none ms
    | .op op, some x, outer => read ((x, op) :: begun) outer none ms
    | .closing, some x, begun' :: outer =>
      read begun' outer (some (.group (begun.followedBy (.last x)))) ms
    | _, _, _ => none

mutual

theorem read_operand (x : Operand α) (begun : Begun α) (outer : List (Begun α))
    (ms : List (Mark α)) :
    read begun outer none (x.marks ++ ms) = read begun outer (some x) ms := by
  cases x with
  | cond a => rfl
  | group inner =>
    have hmarks : (Operand.group inner).marks ++ ms =
        .opening :: (inner.marks ++ .closing :: ms) := by simp [Operand.marks]
    rw [hmarks]
    exact read_group inner [] begun outer ms

theorem read_group (l : Level α) (begun begun' : Begun α) (outer : List (Begun α))
    (ms : List (Mark α)) :
    read begun (begun' :: outer) none (l.marks ++ .closing :: ms) =
      read begun' outer (some (.group (begun.followedBy l))) ms := by
  cases l with
  | last x =>
    rw [Level.marks, read_operand]
    rfl
  | more x op rest =>
    rw [Level.marks, List.append_assoc, read_operand, List.cons_append]
    exact read_group rest ((x, op) :: begun) begun' outer ms

end

/-- Reading gives back the level whose marks are read. -/
theorem read_marks (l : Level α) (begun : Begun α) :
    read begun [] none l.marks = some (begun.followedBy l) := by
  cases l with
  | last x =>
    have hx := read_operand x begun [] []
    rw [List.append_nil] at hx
    rw [Level.marks, hx]
    rfl
  | more x op rest =>
    rw [Level.marks, read_operand]
    exact read_marks rest ((x, op) :: begun)

/-- Numbers the conditions in the order in which they stand. -/
def number (n : Nat) : List (Mark α) → List (Mark (α × Nat))
  | [] => []
  | .cond a :: ms => .cond (a, n) :: number (n + 1) ms
  | .opening :: ms => .opening :: number n ms
  | .closing :: ms => .closing :: number n ms
  | .op op :: ms => .op op :: number n ms

end SqlBuilder.Condition
