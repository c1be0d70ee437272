import TwoWaySql.Expr.Registry
import TwoWaySql.Expr.Tree
import TwoWaySql.Scope
import TwoWaySql.Value.Order

/-!
# Evaluating expressions

An expression is evaluated in a scope of names and a registry of members. `&&` and `||` evaluate
their right operand only if the left one does not decide. Null equals only null; other values are
compared only with values of their own type.
-/

namespace TwoWaySql.Expr

def evaluationError (cause : EvaluationCause) (location : Location) : Error :=
  ⟨.evaluation cause, location⟩

/-- The truth value of an operand. -/
def truthOf (op : Operator) (location : Location) (operand : BoundValue) : Except Error Bool :=
  match operand.value with
  | .bool b => .ok b
  | value => .error (evaluationError (.operandNotBoolean op value.type) location)

/-- Equality as expressions see it; none between values that cannot be compared. -/
def equal? (left right : Value) : Option Bool :=
  if left.isNull || right.isNull then some (left.isNull && right.isNull)
  else if left.type ≠ right.type then none
  else match left.compare? right with
    | some order => some (order == .eq)
    | none => some (left.same right)

/-- The truth of a comparison; none between values that cannot be compared. -/
def compareBy? (op : BinaryOp) (left right : Value) : Option Bool :=
  match op with
  | .eq => equal? left right
  | .ne => (equal? left right).map (!·)
  | .ge => (left.compare? right).map (· != .lt)
  | .le => (left.compare? right).map (· != .gt)
  | .gt => (left.compare? right).map (· == .gt)
  | .lt => (left.compare? right).map (· == .lt)
  | .and | .or => none

mutual

/-- The value of an expression, with its declared type. -/
def eval (registry : Registry) (scope : Scope) : Tree → Except Error BoundValue
  | .literal value _ => .ok value
  | .name name location =>
    match scope.lookup name with
    | some value => .ok value
    | none => .error (evaluationError (.unboundName name) location)
  | .property receiver name location => do
    let receiver ← eval registry scope receiver
    if receiver.value.isNull then
      throw (evaluationError (.nullReceiver .property name) location)
    match registry.property? receiver.value name with
    | some value => return value
    | none =>
      throw (evaluationError (.unknownMember .property name receiver.value.type) location)
  | .call receiver name arguments location => do
    let receiver ← eval registry scope receiver
    if receiver.value.isNull then
      throw (evaluationError (.nullReceiver .function name) location)
    match registry.function? receiver.value name with
    | none => throw (evaluationError (.unknownMember .function name receiver.value.type) location)
    | some function =>
      let values ← match arguments with
        | .empty _ => .ok []
        | .list items _ => evalItems registry scope items
        | single => (eval registry scope single).map ([·])
      match function receiver.value values with
      | .ok value => return value
      | .error failure => throw (evaluationError (.failedCall name failure) location)
  | .list items _ => do
    let values ← evalItems registry scope items
    return .of (.list (values.map (·.value)))
  | .not operand location => do
    let b ← truthOf .not location (← eval registry scope operand)
    return .of (.bool !b)
  | .binary op left right location => do
    let leftValue ← eval registry scope left
    if op.isLogical then
      let b ← truthOf (.binary op) location leftValue
      if b == (op == .or) then return .of (.bool b)
      let b ← truthOf (.binary op) location (← eval registry scope right)
      return .of (.bool b)
    else
      let rightValue ← eval registry scope right
      match compareBy? op leftValue.value rightValue.value with
      | some b => return .of (.bool b)
      | none =>
        throw (evaluationError (.incomparable op leftValue.value.type rightValue.value.type)
          location)
  | .empty _ => .ok (.null .any)

/-- The values of the items of a list. -/
def evalItems (registry : Registry) (scope : Scope) : List Tree → Except Error (List BoundValue)
  | [] => .ok []
  | t :: ts => do
    let v ← eval registry scope t
    let vs ← evalItems registry scope ts
    return v :: vs

end

/-- The truth of a condition. -/
def evalCondition (registry : Registry) (scope : Scope) (tree : Tree) : Except Error Bool := do
  let result ← eval registry scope tree
  match result.value with
  | .bool b => return b
  | value => .error (evaluationError (.conditionNotBoolean value.type) tree.location)

end TwoWaySql.Expr
