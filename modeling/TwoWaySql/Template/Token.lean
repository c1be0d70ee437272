import TwoWaySql.Scanner
import TwoWaySql.Text.Blank

/-!
# Tokens of templates

A template is SQL in which some comments are directives. Only the keywords that matter for leaving
out clauses are told from other words.
-/

namespace TwoWaySql.Template

/-- A clause, by the keyword that opens it. -/
inductive ClauseKind where
  | select
  | source
  | filter
  | groupBy
  | having
  | orderBy
  | forUpdate
  | option
  deriving DecidableEq

namespace ClauseKind

def keyword : ClauseKind → String
  | select => "select"
  | source => "from"
  | filter => "where"
  | groupBy => "group by"
  | having => "having"
  | orderBy => "order by"
  | forUpdate => "for update"
  | option => "option"

/-- Whether the keyword stays even if nothing follows it. -/
def isAlwaysWritten : ClauseKind → Bool
  | select | source | forUpdate => true
  | _ => false

end ClauseKind

/-- An operator between two statements. -/
inductive SetOperator where
  | union
  | except
  | minus
  | intersect
  deriving DecidableEq

def SetOperator.keyword : SetOperator → String
  | union => "union"
  | except => "except"
  | minus => "minus"
  | intersect => "intersect"

/-- A connector between two predicates. -/
inductive Connector where
  | and
  | or
  deriving DecidableEq

def Connector.keyword : Connector → String
  | and => "and"
  | or => "or"

inductive DirectiveKind where
  /-- A placeholder for a value. -/
  | bind
  /-- A value written as a literal. -/
  | literal
  /-- A value written as it is. -/
  | embedded
  /-- The columns of a table. -/
  | expand
  | ifBranch
  | elseifBranch
  | elseBranch
  | blockEnd
  | forLoop
  deriving DecidableEq

namespace DirectiveKind

def name : DirectiveKind → String
  | bind => "bind value"
  | literal => "literal value"
  | embedded => "embedded value"
  | expand => "expand"
  | ifBranch => "if"
  | elseifBranch => "elseif"
  | elseBranch => "else"
  | blockEnd => "end"
  | forLoop => "for"

/-- The number of characters before the body of the directive. -/
def openingLength : DirectiveKind → Nat
  | bind => 2
  | literal | embedded => 3
  | ifBranch => 5
  | blockEnd | forLoop => 6
  | elseBranch => 7
  | elseifBranch | expand => 9

end DirectiveKind

inductive TokenKind where
  /-- A word, a number or an identifier between double quotes. -/
  | word
  /-- A text between single quotes. -/
  | quote
  | blank
  | openBracket
  | closeBracket
  /-- A semicolon. -/
  | delimiter
  | clause (kind : ClauseKind)
  | set (op : SetOperator)
  | connector (op : Connector)
  | directive (kind : DirectiveKind)
  /-- A comment that is no directive. -/
  | comment
  | other
  /-- The end of the template. -/
  | stop
  deriving DecidableEq

abbrev Token := TwoWaySql.Token TokenKind

/-- The body of a directive: its text between the opening and the end of the comment, trimmed. -/
def directiveBody (kind : DirectiveKind) (text : List Char) : List Char :=
  Text.trim ((text.drop kind.openingLength).take (text.length - 2 - kind.openingLength))

/-- The body of a directive; none of other tokens. -/
def Token.body? (t : Token) : Option String :=
  match t.kind with
  | .directive kind => some (String.ofList (directiveBody kind t.text.toList))
  | _ => none

end TwoWaySql.Template
