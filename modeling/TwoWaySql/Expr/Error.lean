import TwoWaySql.Expr.Token
import TwoWaySql.Value.Basic

/-!
# Errors of expressions

What can go wrong in reading and evaluating an expression, and the message for each.
-/

namespace TwoWaySql.Expr

/-- Why a text is not a sequence of tokens. -/
inductive LexicalCause where
  | unclosedChar
  | unclosedString
  | illegalNumber (literal : String)
  | nothingAfterDot
  | illegalMemberStart (c : Char)
  | memberWithoutValue
  deriving DecidableEq

namespace LexicalCause

def message : LexicalCause → String
  | unclosedChar => "The end of single quotation mark is not found"
  | unclosedString => "The end of double quotation mark is not found"
  | illegalNumber literal => s!"The illegal number literal \"{literal}\" is found"
  | nothingAfterDot => "Either property or function name must follow the dot"
  | illegalMemberStart c => s!"The character \"{c}\" is illegal as an identifier start"
  | memberWithoutValue => "A property or function access must follow a value"

end LexicalCause

/-- Why a sequence of tokens is not an expression. -/
inductive SyntaxCause where
  | tooDeep (limit : Nat)
  | unclosedBracket
  | unopenedBracket
  | misplacedOperand (token : String)
  | missingOperand (op : Operator)
  | missingReceiver (token : String)
  | missingArguments
  | unsupportedToken (token : String)
  | numberOutOfRange (literal : String)
  | trailingOperand
  deriving DecidableEq

namespace SyntaxCause

def message : SyntaxCause → String
  | tooDeep limit => s!"The expression is nested deeper than {limit} levels"
  | unclosedBracket => "The close bracket is not found"
  | unopenedBracket => "The open bracket is not found"
  | misplacedOperand token => s!"The token \"{token}\" must follow an operator"
  | missingOperand op => "The operand of \"" ++ op.symbol ++ "\" is not found"
  | missingReceiver token => s!"The receiver of \"{token}\" is not found"
  | missingArguments => "The open bracket of the function arguments is not found"
  | unsupportedToken token => s!"The token \"{token}\" is not supported"
  | numberOutOfRange literal => s!"The number literal \"{literal}\" is out of range"
  | trailingOperand => "The expression has tokens that follow a complete expression"

end SyntaxCause

/-- The two kinds of members of a value. -/
inductive MemberKind where
  | property
  | function
  deriving DecidableEq

namespace MemberKind

def name : MemberKind → String
  | property => "property"
  | function => "function"

end MemberKind

/-- Why a function refused its arguments. -/
inductive CallFailure where
  | wrongCount (expected given : Nat)
  | notString (type : ValueType)
  | notIndex (declared : ValueType)
  | outOfBounds (index : Int32) (size : Nat)
  | refused (reason : String)
  deriving DecidableEq

namespace CallFailure

def message : CallFailure → String
  | wrongCount expected given =>
    s!"The function expects {expected} argument(s), but {given} were given"
  | notString type => "The argument must be a String, but it is \"" ++ type.name ++ "\""
  | notIndex declared =>
    "The argument of \"get\" must be an Int, but it is \"" ++ declared.name ++ "\""
  | outOfBounds index size =>
    "The index " ++ toString index.toInt ++ s!" is out of bounds for a list of size {size}"
  | refused reason => reason

end CallFailure

/-- Why an expression has no value in a scope. -/
inductive EvaluationCause where
  | unboundName (name : String)
  | nullReceiver (kind : MemberKind) (name : String)
  | unknownMember (kind : MemberKind) (name : String) (type : ValueType)
  | failedCall (name : String) (failure : CallFailure)
  | conditionNotBoolean (type : ValueType)
  | operandNotBoolean (op : Operator) (type : ValueType)
  | incomparable (op : BinaryOp) (left right : ValueType)
  deriving DecidableEq

namespace EvaluationCause

def message : EvaluationCause → String
  | unboundName name => s!"The value \"{name}\" is not found"
  | nullReceiver kind name => "The receiver of the " ++ kind.name ++ s!" \"{name}\" is null"
  | unknownMember kind name type =>
    "The " ++ kind.name ++ s!" \"{name}\" is not found in the type \"" ++ type.name ++ "\""
  | failedCall name failure => s!"The function \"{name}\" failed: " ++ failure.message
  | conditionNotBoolean type =>
    "The condition must be a Boolean, but it is \"" ++ type.name ++ "\""
  | operandNotBoolean op type =>
    "The operand of \"" ++ op.symbol ++ "\" must be a Boolean, but it is \"" ++ type.name ++ "\""
  | incomparable op left right =>
    "The operator \"" ++ op.symbol ++ "\" cannot compare \"" ++ left.name ++ "\" with \"" ++
      right.name ++ "\""

end EvaluationCause

/-- What went wrong, by the stage that noticed it. -/
inductive Cause where
  | lexical (cause : LexicalCause)
  | parse (cause : SyntaxCause)
  | evaluation (cause : EvaluationCause)
  deriving DecidableEq

namespace Cause

def message : Cause → String
  | lexical cause => cause.message
  | parse cause => cause.message
  | evaluation cause => cause.message

end Cause

/-- An error and the place in the expression that it concerns. -/
structure Error where
  cause : Cause
  location : Location
  deriving DecidableEq

namespace Error

def message (e : Error) : String := e.cause.message ++ " at " ++ e.location.text

/-- The error of a text of which not all is tokens. -/
def ofFailure (source : String) (failure : LexicalCause × Nat) : Error :=
  ⟨.lexical failure.1, ⟨source, failure.2⟩⟩

end Error

end TwoWaySql.Expr
