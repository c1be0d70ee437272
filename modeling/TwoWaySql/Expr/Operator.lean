/-!
# Operators

The operators of expressions and how tightly they bind. Members are applied to the operand before
them as soon as they are read, so they bind tighter than any operator.
-/

namespace TwoWaySql.Expr

/-- An operator between two operands. -/
inductive BinaryOp where
  | and
  | or
  | eq
  | ne
  | ge
  | le
  | gt
  | lt
  deriving DecidableEq

namespace BinaryOp

def symbol : BinaryOp → String
  | and => "&&"
  | or => "||"
  | eq => "=="
  | ne => "!="
  | ge => ">="
  | le => "<="
  | gt => ">"
  | lt => "<"

/-- Whether the operands are truth values. -/
def isLogical : BinaryOp → Bool
  | and | or => true
  | _ => false

end BinaryOp

/-- An operator. The comma joins the items of a list. -/
inductive Operator where
  | comma
  | not
  | binary (op : BinaryOp)
  deriving DecidableEq

namespace Operator

def symbol : Operator → String
  | comma => ","
  | not => "!"
  | binary op => op.symbol

def priority : Operator → Nat
  | comma => 0
  | binary .or => 10
  | binary .and => 20
  | binary _ => 40
  | not => 50

/-- The priority of property and function access. -/
def memberPriority : Nat := 60

/-- Whether the operator stands before its only operand. -/
def leads : Operator → Bool
  | not => true
  | _ => false

/-- Whether an operator that waits for its operands is applied before `incoming` is taken up. Equal
priorities are, so operators are left associative; nothing is before a leading operator, whose
operand is still to come. -/
def appliesBefore (op incoming : Operator) : Bool :=
  !incoming.leads && incoming.priority ≤ op.priority

/-- The operators, as messages and tables list them. -/
def all : List Operator :=
  [not, binary .and, binary .or, binary .eq, binary .ne, binary .ge, binary .le, binary .gt,
    binary .lt, comma]

end Operator

end TwoWaySql.Expr
