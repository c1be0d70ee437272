import TwoWaySql.Expr.Lexer
import TwoWaySql.Expr.Tree
import TwoWaySql.Number.FixedWidth
import TwoWaySql.Number.Numeral

/-!
# Parsing expressions

Operands and operators of an open group wait on two stacks. An operator that arrives first applies
those that bind at least as tightly; the end of the group applies the rest. Brackets suspend the
group around them, so the groups form a stack too, and the parser reads the tokens once from left to
right. The nesting of brackets, the number of waiting operators and the height of every tree are
bounded by one limit.
-/

namespace TwoWaySql.Expr

open Number (Numeral)

/-- A tree and its height. -/
structure Operand where
  tree : Tree
  height : Nat

def Operand.leaf (tree : Tree) : Operand := ⟨tree, 1⟩

/-- An operator that waits for its operands, and where it was written. -/
structure Pending where
  op : Operator
  location : Location

/-- The operands and operators of one group, the last ones first. -/
structure Group where
  operands : List Operand
  operators : List Pending
  expectsOperand : Bool

def Group.start : Group := ⟨[], [], true⟩

/-- The function call that a group holds the arguments of. -/
structure Call where
  receiver : Operand
  name : String
  location : Location

/-- A group that waits for the end of the brackets within it. -/
structure Suspended where
  group : Group
  /-- The open bracket. -/
  opening : Location
  call? : Option Call

/-- The groups that are open, the innermost apart. `call?` is the function just read, whose open
bracket comes next. -/
structure ParserState where
  group : Group
  outer : List Suspended
  call? : Option Call

def ParserState.start : ParserState := ⟨.start, [], none⟩

def syntaxError (cause : SyntaxCause) (location : Location) : Error := ⟨.parse cause, location⟩

/-- Refuses a tree that is higher than the limit. -/
def Operand.checked (limit : Nat) (location : Location) (operand : Operand) :
    Except Error Operand :=
  if limit < operand.height then .error (syntaxError (.tooDeep limit) location) else .ok operand

/-- A comma joins its right operand to the list on its left. -/
def joinItems (left right : Operand) (location : Location) : Operand :=
  match left.tree with
  | .list items _ =>
    ⟨.list (items ++ [right.tree]) location, max left.height (right.height + 1)⟩
  | tree => ⟨.list [tree, right.tree] location, max left.height right.height + 1⟩

/-- Applies an operator to the last operands. -/
def applyOperator (limit : Nat) (p : Pending) (operands : List Operand) :
    Except Error (List Operand) := do
  let missing := syntaxError (.missingOperand p.op) p.location
  match p.op, operands with
  | .not, operand :: rest =>
    let result ← Operand.checked limit p.location ⟨.not operand.tree p.location, operand.height + 1⟩
    return result :: rest
  | .comma, right :: left :: rest =>
    let result ← (joinItems left right p.location).checked limit p.location
    return result :: rest
  | .binary op, right :: left :: rest =>
    let result ← Operand.checked limit p.location
      ⟨.binary op left.tree right.tree p.location, max left.height right.height + 1⟩
    return result :: rest
  | _, _ => .error missing

/-- Applies the waiting operators as long as `applies` holds of them. -/
def applyWhile (limit : Nat) (applies : Operator → Bool) :
    List Pending → List Operand → Except Error (List Pending × List Operand)
  | [], operands => .ok ([], operands)
  | p :: ps, operands =>
    if applies p.op then do applyWhile limit applies ps (← applyOperator limit p operands)
    else .ok (p :: ps, operands)

namespace Group

/-- Adds an operand where one is expected. -/
def addOperand (g : Group) (operand : Operand) : Group :=
  { g with operands := operand :: g.operands, expectsOperand := false }

/-- Refuses a token that starts an operand just after another operand. -/
def checkPosition (g : Group) (text : String) (location : Location) : Except Error Unit :=
  if g.expectsOperand then .ok () else .error (syntaxError (.misplacedOperand text) location)

/-- Takes up an operator. -/
def addOperator (limit : Nat) (g : Group) (op : Operator) (text : String) (location : Location) :
    Except Error Group := do
  if op.leads then g.checkPosition text location
  else if g.expectsOperand then throw (syntaxError (.missingOperand op) location)
  let (operators, operands) ← applyWhile limit (·.appliesBefore op) g.operators g.operands
  if limit ≤ operators.length then throw (syntaxError (.tooDeep limit) location)
  return ⟨operands, ⟨op, location⟩ :: operators, true⟩

/-- The operand that a finished group stands for. -/
def finish (limit : Nat) (g : Group) (start : Location) : Except Error Operand := do
  let (_, operands) ← applyWhile limit (fun _ => true) g.operators g.operands
  match operands.reverse with
  | [] => return .leaf (.empty start)
  | [operand] => return operand
  | _ :: second :: _ => .error (syntaxError .trailingOperand second.tree.location)

end Group

/-! ## Literals -/

/-- The text between the quotes of a string literal, a doubled quote once. -/
def unquote : List Char → List Char
  | '"' :: '"' :: cs => '"' :: unquote cs
  | '"' :: _ => []
  | c :: cs => c :: unquote cs
  | [] => []

/-- The value of a literal token; none if it is a number out of range. -/
def literalValue? (kind : TokenKind) (text : List Char) : Option Value :=
  let numeral := (Numeral.read text).1
  let n := numeral.toInt
  match kind with
  | .int => (Number.int32? n).map .int
  | .long => (Number.int64? n).map .long
  | .float => some (.float (.ofNumeral Number.single numeral))
  | .double => some (.double (.ofNumeral Number.double numeral))
  | .decimal =>
    (Number.Decimal.ofDigits? numeral.negative numeral.whole numeral.fraction).map .decimal
  | .char => text[1]?.map .char
  | .string => some (.string (String.ofList (unquote (text.drop 1))))
  | .true => some (.bool true)
  | .false => some (.bool false)
  | .null => some .null
  | _ => none

/-! ## Tokens -/

namespace ParserState

/-- The nesting of brackets. -/
def depth (s : ParserState) : Nat := s.outer.length

/-- Opens a bracket, of a call's arguments if there is a call. -/
def openBracket (limit : Nat) (s : ParserState) (location : Location) : Except Error ParserState :=
  if limit < s.depth + 1 then .error (syntaxError (.tooDeep limit) location)
  else .ok ⟨.start, ⟨s.group, location, s.call?⟩ :: s.outer, none⟩

/-- Closes the innermost bracket. -/
def closeBracket (limit : Nat) (s : ParserState) (location : Location) :
    Except Error ParserState := do
  match s.outer with
  | [] => .error (syntaxError .unopenedBracket location)
  | ⟨group, opening, call?⟩ :: outer =>
    let inner ← s.group.finish limit opening
    match call? with
    | none => return ⟨group.addOperand inner, outer, none⟩
    | some call =>
      let result ← Operand.checked limit call.location
        ⟨.call call.receiver.tree call.name inner.tree call.location,
          max call.receiver.height inner.height + 1⟩
      return ⟨{ group with operands := result :: group.operands }, outer, none⟩

/-- Takes the operand that a member is applied to. -/
def takeReceiver (s : ParserState) (text : String) (location : Location) :
    Except Error (Operand × ParserState) :=
  match s.group.operands with
  | [] => .error (syntaxError (.missingReceiver text) location)
  | receiver :: operands => .ok (receiver, { s with group := { s.group with operands } })

/-- Reads one token that is not the end. -/
def step (limit : Nat) (source : String) (s : ParserState) (t : Token) :
    Except Error ParserState := do
  let location : Location := ⟨source, t.start⟩
  if s.call?.isSome then
    if t.kind = .openBracket then s.openBracket limit location
    else .error (syntaxError .missingArguments location)
  else match t.kind with
    | .blank | .stop => return s
    | .closeBracket => s.closeBracket limit location
    | .openBracket =>
      s.group.checkPosition t.text location
      s.openBracket limit location
    | .name =>
      s.group.checkPosition t.text location
      return { s with group := s.group.addOperand (.leaf (.name t.text location)) }
    | .property =>
      let (receiver, s) ← s.takeReceiver t.text location
      let result ← Operand.checked limit location
        ⟨.property receiver.tree (String.ofList (t.text.toList.drop 1)) location,
          receiver.height + 1⟩
      return { s with group := { s.group with operands := result :: s.group.operands } }
    | .function =>
      let (receiver, s) ← s.takeReceiver t.text location
      return { s with call? := some ⟨receiver, String.ofList (t.text.toList.drop 1), location⟩ }
    | .other => .error (syntaxError (.unsupportedToken t.text) location)
    | .operator op =>
      return { s with group := ← s.group.addOperator limit op t.text location }
    | kind =>
      s.group.checkPosition t.text location
      match literalValue? kind t.text.toList with
      | none => .error (syntaxError (.numberOutOfRange t.text) location)
      | some value =>
        return { s with group := s.group.addOperand (.leaf (.literal (.of value) location)) }

/-- What the end of the expression leaves. -/
def finish (limit : Nat) (source : String) (s : ParserState) : Except Error Operand :=
  match s.call?, s.outer with
  | some _, _ =>
    .error (syntaxError .missingArguments ⟨source, byteLength source.toList⟩)
  | none, inner :: _ => .error (syntaxError .unclosedBracket inner.opening)
  | none, [] => s.group.finish limit ⟨source, 0⟩

end ParserState

/-- Parses an expression whose nesting is within the limit. An expression without any operand is
empty. -/
def parseOperand (limit : Nat) (source : String) : Except Error Operand := do
  let lexed := lex source
  let state ← lexed.tokens.foldlM (ParserState.step limit source) .start
  match lexed.failure? with
  | some failure => .error (.ofFailure source failure)
  | none => state.finish limit source

def parse (limit : Nat) (source : String) : Except Error Tree :=
  (parseOperand limit source).map (·.tree)

end TwoWaySql.Expr
