/-!
# Layouts

A rendered statement before its line breaks are chosen. On one line a clause boundary
is a space; on many it is a line break at the depth of the statement.
-/
namespace SqlBuilder

inductive Layout where
  | compact
  | pretty
  deriving DecidableEq, Repr

inductive Piece where
  | text (s : String)
  /-- Between two clauses of a statement at some depth. -/
  | clause (depth : Nat)
  /-- Just inside a parenthesis around a nested statement. -/
  | edge (depth : Nat)
  deriving DecidableEq, Repr

namespace Piece

def lineBreak (depth : Nat) : String := String.ofList ('\n' :: List.replicate depth '\t')

def written (layout : Layout) : Piece → String
  | .text s => s
  | .clause depth => match layout with
    | .compact => " "
    | .pretty => lineBreak depth
  | .edge depth => match layout with
    | .compact => ""
    | .pretty => lineBreak depth

end Piece

def Layout.write (layout : Layout) (pieces : List Piece) : String :=
  String.join (pieces.map (Piece.written layout))

end SqlBuilder
