import TwoWaySql.Expr.Operator
import TwoWaySql.Location
import TwoWaySql.Value.Basic

/-!
# Expression trees

Every node knows where it was written: a binary node at its operator, a member at its dot.
-/

namespace TwoWaySql.Expr

inductive Tree where
  | literal (value : BoundValue) (location : Location)
  | name (name : String) (location : Location)
  | property (receiver : Tree) (name : String) (location : Location)
  /-- The arguments are empty, one expression, or a list of two or more. -/
  | call (receiver : Tree) (name : String) (arguments : Tree) (location : Location)
  | list (items : List Tree) (location : Location)
  | not (operand : Tree) (location : Location)
  | binary (op : BinaryOp) (left right : Tree) (location : Location)
  /-- No expression at all. -/
  | empty (location : Location)

namespace Tree

def location : Tree → Location
  | literal _ l | name _ l | property _ _ l | call _ _ _ l => l
  | list _ l | not _ l | binary _ _ _ l | empty l => l

mutual

/-- The names that the expression reads, in order. -/
def names : Tree → List String
  | literal _ _ => []
  | name n _ => [n]
  | property receiver _ _ => receiver.names
  | call receiver _ arguments _ => receiver.names ++ arguments.names
  | list items _ => itemNames items
  | not operand _ => operand.names
  | binary _ left right _ => left.names ++ right.names
  | empty _ => []

def itemNames : List Tree → List String
  | [] => []
  | t :: ts => t.names ++ itemNames ts

end

/-- The names that the expression reads, each where it occurs first. -/
def freeNames (t : Tree) : List String := t.names.eraseDups

mutual

/-- The greatest number of nodes on a path from the root. -/
def height : Tree → Nat
  | literal _ _ | name _ _ | empty _ => 1
  | property receiver _ _ => receiver.height + 1
  | call receiver _ arguments _ => max receiver.height arguments.height + 1
  | list items _ => itemHeight items + 1
  | not operand _ => operand.height + 1
  | binary _ left right _ => max left.height right.height + 1

def itemHeight : List Tree → Nat
  | [] => 0
  | t :: ts => max t.height (itemHeight ts)

end

end Tree

end TwoWaySql.Expr
