import TwoWaySql.Expr.Operator
import TwoWaySql.Scanner

/-!
# Tokens of expressions
-/

namespace TwoWaySql.Expr

inductive TokenKind where
  /-- A name bound by the scope. -/
  | name
  /-- A dot and the name of a property. -/
  | property
  /-- A dot and the name of a function; an open bracket follows. -/
  | function
  | int
  | long
  | float
  | double
  | decimal
  | char
  | string
  | true
  | false
  | null
  | operator (op : Operator)
  | openBracket
  | closeBracket
  | blank
  /-- A character that is no part of the language where it stands. -/
  | other
  /-- The end of the expression. -/
  | stop
  deriving DecidableEq

namespace TokenKind

/-- Whether the token ends an operand, so that a binary operator or a member may follow. -/
def producesValue : TokenKind → Bool
  | name | property | closeBracket => Bool.true
  | int | long | float | double | decimal | char | string | true | false | null => Bool.true
  | function | operator _ | openBracket | blank | other | stop => Bool.false

end TokenKind

abbrev Token := TwoWaySql.Token TokenKind

end TwoWaySql.Expr
