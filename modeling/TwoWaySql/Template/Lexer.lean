import TwoWaySql.Template.Error
import TwoWaySql.Text.Identifier
import TwoWaySql.Text.Word

/-!
# Reading tokens of templates

Keywords are whole words; those of two words have blanks between them. A comment is a directive if
it starts with `%`, `^`, `#` or an identifier. A directive is checked as far as its form goes: it
has a body unless it is `else` or `end`, and the body of `for` is an identifier, `in` and an
expression.
-/

namespace TwoWaySql.Template

open Text

/-- The kind of a token and the number of its characters after the first. -/
abbrev Scanned := Except LexicalCause (TokenKind × Nat)

/-- The number of characters up to and with the closing quote; a doubled quote does not close. -/
def quotedLength? (quote : Char) : List Char → Option Nat
  | [] => none
  | [c] => if c = quote then some 1 else none
  | c :: d :: cs =>
    if c ≠ quote then (quotedLength? quote (d :: cs)).map (· + 1)
    else if d = quote then (quotedLength? quote cs).map (· + 2)
    else some 1

/-- The number of characters before the end of a comment. -/
def commentLength? : List Char → Option Nat
  | [] => none
  | '*' :: '/' :: _ => some 0
  | _ :: cs => (commentLength? cs).map (· + 1)

/-! ## Keywords -/

/-- The number of characters of blanks and a second keyword after the first. -/
def secondWord? (keyword : String) (cs : List Char) : Option Nat :=
  let blanks := runLength isBlank cs
  let word := cs.drop blanks
  if blanks ≠ 0 ∧ isKeyword keyword (word.take keyword.length) ∧
      ¬ (word.drop keyword.length).head?.any isWordPart then
    some (blanks + keyword.length)
  else none

/-- The kind of a word of which only the first part is read, and the length of the second part. -/
def wordKind (word rest : List Char) : TokenKind × Nat :=
  if isKeyword "select" word then (.clause .select, 0)
  else if isKeyword "from" word then (.clause .source, 0)
  else if isKeyword "where" word then (.clause .filter, 0)
  else if isKeyword "having" word then (.clause .having, 0)
  else if isKeyword "option" word then (.clause .option, 0)
  else if isKeyword "union" word then (.set .union, 0)
  else if isKeyword "except" word then (.set .except, 0)
  else if isKeyword "minus" word then (.set .minus, 0)
  else if isKeyword "intersect" word then (.set .intersect, 0)
  else if isKeyword "and" word then (.connector .and, 0)
  else if isKeyword "or" word then (.connector .or, 0)
  else
    let second : Option (ClauseKind × Nat) :=
      if isKeyword "group" word then (secondWord? "by" rest).map (.groupBy, ·)
      else if isKeyword "order" word then (secondWord? "by" rest).map (.orderBy, ·)
      else if isKeyword "for" word then (secondWord? "update" rest).map (.forUpdate, ·)
      else none
    match second with
    | some (kind, length) => (.clause kind, length)
    | none => (.word, 0)

/-! ## Directives -/

/-- The directives that start with a percent sign, in the order they are tried in. -/
def namedDirectives : List DirectiveKind :=
  [.elseifBranch, .elseBranch, .blockEnd, .ifBranch, .forLoop, .expand]

/-- Whether a text starts with a name that ends there. -/
def startsWithName (name : String) (cs : List Char) : Bool :=
  name.toList.isPrefixOf cs && !(cs.drop name.length).head?.any isIdentifierPart

/-- The parts of a loop's body: an identifier, and the expression after `in`. -/
def loopParts? (body : List Char) : Option (List Char × List Char) :=
  let body := trim body
  let identifier := body.takeWhile (!isBlank ·)
  let rest := trimStart (body.dropWhile (!isBlank ·))
  match rest with
  | 'i' :: 'n' :: c :: after =>
    let expression := trim after
    if isBlank c && isIdentifier identifier && !expression.isEmpty then
      some (identifier, expression)
    else none
  | _ => none

/-- Checks that the body of a directive has the form that its kind needs. -/
def checkBody (kind : DirectiveKind) (body : List Char) : Except LexicalCause Unit :=
  match kind with
  | .elseBranch | .blockEnd => if body.isEmpty then .ok () else .error (.needlessExpression kind)
  | _ =>
    if body.isEmpty then .error (.missingExpression kind)
    else if kind = .forLoop ∧ (loopParts? body).isNone then .error .malformedLoop
    else .ok ()

/-- The kind of directive that a comment is, from the text within it; none if it is just a
comment. -/
def directiveKind? (inner : List Char) : Except LexicalCause (Option DirectiveKind) :=
  match inner with
  | '%' :: text =>
    match namedDirectives.find? fun kind => startsWithName kind.name text with
    | some kind => .ok (some kind)
    | none => .error (.unknownDirective (String.ofList text))
  | '^' :: _ => .ok (some .literal)
  | '#' :: _ => .ok (some .embedded)
  | c :: _ => .ok (if isIdentifierStart c then some .bind else none)
  | [] => .ok none

/-- A comment, from the text after its opening. -/
def scanComment (cs : List Char) : Scanned := do
  match commentLength? cs with
  | none => throw .unclosedComment
  | some length =>
    let inner := cs.take length
    match ← directiveKind? inner with
    | none => return (.comment, length + 3)
    | some kind =>
      checkBody kind (directiveBody kind (['/', '*'] ++ inner ++ ['*', '/']))
      return (.directive kind, length + 3)

/-! ## Tokens -/

/-- The token that starts with `c`. -/
def scan (c : Char) (cs : List Char) : Scanned :=
  if isBlank c then .ok (.blank, runLength isBlank cs)
  else if c = '(' then .ok (.openBracket, 0)
  else if c = ')' then .ok (.closeBracket, 0)
  else if c = ';' then .ok (.delimiter, 0)
  else if c = '\x27' then
    match quotedLength? c cs with
    | some length => .ok (.quote, length)
    | none => .error .unclosedQuote
  else if c = '"' then
    match quotedLength? c cs with
    | some length => .ok (.word, length)
    | none => .error .unclosedIdentifier
  else if c = '-' ∧ cs.head? = some '-' then .ok (.comment, runLength (· ≠ '\n') cs)
  else if c = '/' ∧ cs.head? = some '*' then scanComment (cs.drop 1)
  else if (c = '+' ∨ c = '-') ∧ cs.head?.any Char.isDigit then .ok (.word, runLength isWordPart cs)
  else if isWordPart c then
    let length := runLength isWordPart cs
    let (kind, more) := wordKind (c :: cs.take length) (cs.drop length)
    .ok (kind, length + more)
  else .ok (.other, 0)

/-- Reads templates; nothing matters of the tokens before. -/
def scanner : Scanner Unit TokenKind LexicalCause where
  scan _ c cs :=
    match scan c cs with
    | .ok (kind, length) => .token kind length ()
    | .error cause => .failure cause ()
  stop := .stop

/-- The tokens of a template. -/
def lex (source : String) : Lexed TokenKind LexicalCause := scanner.lexFrom () 0 source.toList

end TwoWaySql.Template
