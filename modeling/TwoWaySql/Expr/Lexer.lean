import TwoWaySql.Expr.Error
import TwoWaySql.Text.Blank
import TwoWaySql.Text.Identifier

/-!
# Reading tokens of expressions

Operators between operands are tokens only after a token that produces a value, blanks apart;
elsewhere their characters are unsupported ones. So are members, which are errors elsewhere. A flag
tells whether such a token comes next: each way of reading a token says which flag it leaves.
-/

namespace TwoWaySql.Expr

open Text (isBlank isIdentifierStart isIdentifierPart)

/-- What is found where a text starts, and the flag that is left. -/
abbrev Scanned := Scan Bool TokenKind LexicalCause

/-- The operator between operands that the text starts with, and its length. -/
def binaryOperator? : List Char → Option (BinaryOp × Nat)
  | '&' :: '&' :: _ => some (.and, 2)
  | '|' :: '|' :: _ => some (.or, 2)
  | '=' :: '=' :: _ => some (.eq, 2)
  | '!' :: '=' :: _ => some (.ne, 2)
  | '>' :: '=' :: _ => some (.ge, 2)
  | '<' :: '=' :: _ => some (.le, 2)
  | '>' :: _ => some (.gt, 1)
  | '<' :: _ => some (.lt, 1)
  | _ => none

/-- The number of characters up to and with the quote that ends a string; a doubled quote does
not. -/
def stringLength? : List Char → Option Nat
  | [] => none
  | '"' :: '"' :: cs => (stringLength? cs).map (· + 2)
  | c :: cs => if c = '"' then some 1 else (stringLength? cs).map (· + 1)

/-- A word is a name unless it is a literal. -/
def wordKind (word : List Char) : TokenKind :=
  if word = ['t', 'r', 'u', 'e'] then .true
  else if word = ['f', 'a', 'l', 's', 'e'] then .false
  else if word = ['n', 'u', 'l', 'l'] then .null
  else .name

/-- The type that a suffix gives to a number literal. -/
def suffixKind? : Char → Option TokenKind
  | 'L' => some .long
  | 'F' => some .float
  | 'D' => some .double
  | 'B' => some .decimal
  | _ => none

/-- What follows the digits of a number literal that starts with `c` and of which `length` more
characters are read: at most a suffix, and then no part of a word. A fraction needs a suffix, and
not that of a whole number. -/
def scanSuffix (flag : Bool) (c : Char) (cs : List Char) (length : Nat) (fraction : Bool) :
    Scanned :=
  let rest := cs.drop length
  let (kind, length, rest) := match rest with
    | [] => (none, length, rest)
    | s :: after => match suffixKind? s with
      | some kind => (some kind, length + 1, after)
      | none => (none, length, rest)
  let word := runLength isIdentifierPart rest
  let illegal := .failure (.illegalNumber (String.ofList (c :: cs.take (length + word)))) flag
  if word ≠ 0 then illegal
  else match kind, fraction with
    | none, false => .token .int length true
    | none, true | some .long, true => illegal
    | some kind, _ => .token kind length true

/-- A number literal whose first character is the digit or sign `c`. -/
def scanNumber (flag : Bool) (c : Char) (cs : List Char) : Scanned :=
  let illegal (length : Nat) :=
    .failure (.illegalNumber (String.ofList (c :: cs.take length))) flag
  let whole := runLength Char.isDigit cs
  match cs.drop whole with
  | '.' :: after =>
    let length := whole + 1 + runLength Char.isDigit after
    if length = whole + 1 then illegal length
    else if (cs.drop length).head? = some '.' then illegal (length + 1)
    else scanSuffix flag c cs length true
  | _ => scanSuffix flag c cs whole false

/-- A property or function; the text after the dot is given. -/
def scanMember (flag : Bool) : List Char → Scanned
  | [] => .failure .nothingAfterDot flag
  | c :: cs =>
    if !isIdentifierStart c then .failure (.illegalMemberStart c) flag
    else if !flag then .failure .memberWithoutValue flag
    else
      let length := runLength isIdentifierPart cs
      if (cs.drop length).head? = some '(' then .token .function (length + 1) false
      else .token .property (length + 1) true

/-- What starts with `c`. The flag tells whether an operator between operands or a member may. -/
def scan (flag : Bool) (c : Char) (cs : List Char) : Scanned :=
  match if flag then binaryOperator? (c :: cs) else none with
  | some (op, length) => .token (.operator (.binary op)) (length - 1) false
  | none =>
    if isBlank c then .token .blank (runLength isBlank cs) flag
    else if c = ',' then .token (.operator .comma) 0 false
    else if c = '(' then .token .openBracket 0 false
    else if c = ')' then .token .closeBracket 0 true
    else if c = '!' then .token (.operator .not) 0 false
    else if c = '\x27' then
      match cs with
      | _ :: '\x27' :: _ => .token .char 2 true
      | _ => .failure .unclosedChar flag
    else if c = '"' then
      match stringLength? cs with
      | some length => .token .string length true
      | none => .failure .unclosedString flag
    else if c.isDigit || ((c = '+' || c = '-') && cs.head?.any Char.isDigit) then
      scanNumber flag c cs
    else if isIdentifierStart c then
      let word := cs.takeWhile isIdentifierPart
      .token (wordKind (c :: word)) word.length true
    else if c = '.' then scanMember flag cs
    else .token .other 0 false

/-- Reads expressions; the state is the flag. The end leaves it as it was. -/
def scanner : Scanner Bool TokenKind LexicalCause where
  scan
  stop := .stop

/-- The tokens of an expression. -/
def lex (source : String) : Lexed TokenKind LexicalCause := scanner.lexFrom false 0 source.toList

end TwoWaySql.Expr
