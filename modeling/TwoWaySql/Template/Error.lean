import TwoWaySql.Expr.Error
import TwoWaySql.Template.Token

/-!
# Errors of templates

What can go wrong in reading and rendering a template, and the message for each.
-/

namespace TwoWaySql.Template

/-- Why a text is not a sequence of tokens. -/
inductive LexicalCause where
  | unclosedQuote
  | unclosedIdentifier
  | unclosedComment
  | unknownDirective (text : String)
  | needlessExpression (kind : DirectiveKind)
  | missingExpression (kind : DirectiveKind)
  | malformedLoop
  deriving DecidableEq

namespace LexicalCause

def message : LexicalCause → String
  | unclosedQuote => "The end of single quotation mark is not found"
  | unclosedIdentifier => "The end of double quotation mark is not found"
  | unclosedComment => "The end of comment is not found"
  | unknownDirective text => s!"The directive \"/*%{text}*/\" is not supported"
  | needlessExpression kind => "The " ++ kind.name ++ " directive does not take an expression"
  | missingExpression kind => "The expression is not found in the " ++ kind.name ++ " directive"
  | malformedLoop => "The for directive must have the form \"<identifier> in <expression>\""

end LexicalCause

/-- Why directives and brackets do not fit together, or a value does not fit its directive. -/
inductive StructuralCause where
  | tooDeep (limit : Nat)
  | unclosedBracket
  | unopenedBracket
  | afterElse (kind : DirectiveKind)
  | branchWithoutIf
  | endWithoutBlock
  | blockWithoutEnd
  | unresolvedAlias (expression : String)
  | notIterable (expression : String) (type : ValueType)
  deriving DecidableEq

namespace StructuralCause

def message : StructuralCause → String
  | tooDeep limit => s!"The template is nested deeper than {limit} levels"
  | unclosedBracket => "The close bracket is not found"
  | unopenedBracket => "The open bracket is not found"
  | afterElse kind => "The " ++ kind.name ++ " directive follows the else directive"
  | branchWithoutIf => "The corresponding if directive is not found"
  | endWithoutBlock => "The corresponding if or for directive is not found"
  | blockWithoutEnd => "The corresponding end directive is not found"
  | unresolvedAlias expression => s!"The alias expression \"{expression}\" cannot be resolved"
  | notIterable expression type =>
    s!"The expression \"{expression}\" of the for directive is not iterable, it is \"" ++
      type.name ++ "\""

end StructuralCause

/-- What an error says about the template: its text is broken, its structure is, or the values do
not fit it. -/
inductive ErrorKind where
  | lexical
  | structural
  | evaluation
  deriving DecidableEq

/-- The kind of an error whose expression fails with the cause. An expression that is not well
formed makes the structure of the template broken. -/
def kindOfCause : Expr.Cause → ErrorKind
  | .lexical _ => .lexical
  | .parse _ => .structural
  | .evaluation _ => .evaluation

/-- An error and the place in the template that it concerns. -/
inductive Error where
  | lexical (cause : LexicalCause) (location : Location)
  | structural (cause : StructuralCause) (location : Location)
  /-- The expression of the directive at the location failed. -/
  | expression (text : String) (location : Location) (error : Expr.Error)
  deriving DecidableEq

namespace Error

/-- The error of a text of which not all is tokens. -/
def ofFailure (source : String) (failure : LexicalCause × Nat) : Error :=
  .lexical failure.1 ⟨source, failure.2⟩

def location : Error → Location
  | lexical _ l | structural _ l | expression _ l _ => l

def kind : Error → ErrorKind
  | lexical _ _ => .lexical
  | structural _ _ => .structural
  | expression _ _ e => kindOfCause e.cause

/-- The whole message; that of a failed expression comes last. -/
def message : Error → String
  | lexical cause l => cause.message ++ " at " ++ l.text
  | structural cause l => cause.message ++ " at " ++ l.text
  | expression text l e =>
    s!"The expression \"{text}\" failed at " ++ l.text ++ ": " ++ e.message

end Error

end TwoWaySql.Template
