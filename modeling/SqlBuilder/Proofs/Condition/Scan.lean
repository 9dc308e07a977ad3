import Mathlib.Data.List.DropRight
import SqlBuilder.Text.Blank
import SqlBuilder.Proofs.Lexer
import SqlBuilder.Proofs.Condition.Level

/-!
# Conditions in a text

An engine reads a boolean expression as conditions, parentheses and operators. A condition
runs on to an operator or a parenthesis that is not its own: its parentheses, its `CASE`
and the `AND` of its `BETWEEN` belong to it. The operators are the words `AND` and `OR`;
comments are not read.
-/
namespace SqlBuilder.Condition

open Lexer

def isBlank : Token → Bool
  | .symbol c => Text.isBlank c
  | _ => false

def isWord (keyword : String) : Token → Bool
  | .word cs => cs.map Char.toUpper = keyword.toList
  | _ => false

def boolOp? (t : Token) : Option BoolOp := [BoolOp.and, .or].find? fun op => isWord op.keyword t

def endsOperand (ts : List Token) : Bool :=
  match ts.dropWhile isBlank with
  | [] => true
  | t :: _ => t = .symbol ')' || (boolOp? t).isSome

/-- How deep parentheses are open behind a token, unless it closes one that is not open. -/
def depthAfter (depth : Nat) (t : Token) : Option Nat :=
  if t = .symbol '(' then some (depth + 1)
  else if t = .symbol ')' then (if depth = 0 then none else some (depth - 1))
  else some depth

def nesting (depth : Nat) (ts : List Token) : Option Nat := ts.foldlM depthAfter depth

/-- Whether parentheses that are open `depth` deep hold a whole operand. -/
def groups (depth : Nat) : List Token → Bool
  | [] => true
  | t :: ts => match depthAfter depth t with
    | some depth => groups depth ts
    | none => endsOperand ts

/-- A condition that is being read. -/
structure Progress where
  tokens : List Token
  depth : Nat
  cases : Nat
  /-- `BETWEEN`s that wait for their `AND`. -/
  ranges : Nat
  deriving DecidableEq

namespace Progress

def start : Progress := ⟨[], 0, 0, 0⟩

/-- What ends the condition: a parenthesis or an operator that is not its own. -/
def ends? (p : Progress) (t : Token) : Option (Mark (List Token)) :=
  if p.depth ≠ 0 then none
  else if t = .symbol ')' then some .closing
  else if p.cases ≠ 0 then none
  else match boolOp? t with
    | some .and => if p.ranges = 0 then some (.op .and) else none
    | some .or => some (.op .or)
    | none => none

def add (p : Progress) (t : Token) : Progress where
  tokens := p.tokens ++ [t]
  depth := (depthAfter p.depth t).getD 0
  cases :=
    if p.depth ≠ 0 then p.cases
    else if isWord "CASE" t then p.cases + 1
    else if isWord "END" t then p.cases - 1
    else p.cases
  ranges :=
    if p.depth ≠ 0 || p.cases ≠ 0 then p.ranges
    else if isWord "BETWEEN" t then p.ranges + 1
    else if isWord "AND" t then p.ranges - 1
    else p.ranges

/-- The condition behind more of its tokens, unless one of them ends it. -/
def run (p : Progress) : List Token → Option Progress
  | [] => some p
  | t :: ts => match p.ends? t with
    | some _ => none
    | none => (p.add t).run ts

def bare (p : Progress) : List Token := p.tokens.rdropWhile isBlank

def Whole (p : Progress) : Prop := p.depth = 0 ∧ p.cases = 0 ∧ p.ranges = 0

instance (p : Progress) : Decidable p.Whole := inferInstanceAs (Decidable (_ ∧ _ ∧ _))

end Progress

inductive Mode where
  | operand
  | cond (p : Progress)
  | closed

/-- Where the reading stands behind what ended an operand. -/
def Mode.after : Mark (List Token) → Mode
  | .op _ => .operand
  | _ => .closed

def marks : Mode → List Token → List (Mark (List Token))
  | .operand, [] => []
  | .operand, t :: ts =>
    if isBlank t then marks .operand ts
    else if t = .symbol '(' && groups 0 ts then .opening :: marks .operand ts
    else match Progress.start.ends? t with
      | some m => m :: marks (.after m) ts
      | none => marks (.cond (Progress.start.add t)) ts
  | .cond p, [] => [.cond p.bare]
  | .cond p, t :: ts => match p.ends? t with
    | some m => .cond p.bare :: m :: marks (.after m) ts
    | none => marks (.cond (p.add t)) ts
  | .closed, [] => []
  | .closed, t :: ts =>
    if isBlank t then marks .closed ts
    else match Progress.start.ends? t with
      | some m => m :: marks (.after m) ts
      | none => marks (.cond (Progress.start.add t)) ts

/-- What an engine reads in a text, its conditions numbered from left to right. -/
def level? (e : Engine) (text : String) : Option (Level (List Token × Nat)) :=
  read [] [] none (number 0 (marks .operand (tokens e text.toList)))

/-- The condition that some tokens are on their own. -/
def condition? (ts : List Token) : Option (List Token) :=
  match ts.dropWhile isBlank with
  | [] => none
  | t :: ts =>
    if t = .symbol '(' && groups 0 ts then none
    else match Progress.start.run (t :: ts) with
      | some p => if p.Whole then some p.bare else none
      | none => none

/-- A text that is one condition, with no operator of its own outside parentheses. -/
structure Atomic (e : Engine) (text : String) (cond : List Token) : Prop where
  closed : Closed e text.toList
  condition : condition? (tokens e text.toList) = some cond

instance (e : Engine) (text : String) (cond : List Token) : Decidable (Atomic e text cond) :=
  decidable_of_iff (Closed e text.toList ∧ condition? (tokens e text.toList) = some cond)
    ⟨fun h => ⟨h.1, h.2⟩, fun h => ⟨h.closed, h.condition⟩⟩

end SqlBuilder.Condition
