import TwoWaySql.Template.Lexer
import TwoWaySql.Template.Tree

/-!
# Parsing templates

What is open forms two stacks. A level is a statement whose end has not come, with the clauses,
connectors and blocks open in it; brackets suspend a level and start another one. A clause keyword
closes the clause before it, a connector the connector before it, `elseif`, `else` and `end` all
that is open in their block, and a set operator all of the level, which becomes its left operand.

After a directive with a sample the next token decides whether the sample is there. The limit bounds
the number of constructs that are open at any token: levels, operands, clauses, connectors, blocks
and brackets.
-/

namespace TwoWaySql.Template

/-- A construct that is open within a level. Children come last first. -/
inductive Frame where
  | clause (kind : ClauseKind) (keyword : String) (children : List Tree)
  | logical (op : Connector) (keyword : String) (children : List Tree)
  /-- A block whose first branch is open. -/
  | ifBlock (test : Directive) (children : List Tree)
  /-- A block whose last `elseif` branch is open, after a body and others, the last one first. -/
  | elseifBlock (test : Directive) (body : List Tree) (elseifs : List (Directive × List Tree))
      (directive : Directive) (children : List Tree)
  /-- A block whose `else` branch is open. -/
  | elseBlock (test : Directive) (body : List Tree) (elseifs : List (Directive × List Tree))
      (children : List Tree)
  | forBlock (directive : Directive) (identifier expression : String) (children : List Tree)

namespace Frame

def add (t : Tree) : Frame → Frame
  | clause kind keyword ts => clause kind keyword (t :: ts)
  | logical op keyword ts => logical op keyword (t :: ts)
  | ifBlock test ts => ifBlock test (t :: ts)
  | elseifBlock test body bs d ts => elseifBlock test body bs d (t :: ts)
  | elseBlock test body bs ts => elseBlock test body bs (t :: ts)
  | forBlock d i e ts => forBlock d i e (t :: ts)

/-- The tree of a frame that is complete. -/
def tree : Frame → Tree
  | clause kind keyword ts => .clause kind keyword ts.reverse
  | logical op keyword ts => .logical op keyword ts.reverse
  | ifBlock test ts => .ifBlock test ts.reverse [] none
  | elseifBlock test body bs d ts => .ifBlock test body ((d, ts.reverse) :: bs).reverse none
  | elseBlock test body bs ts => .ifBlock test body bs.reverse (some ts.reverse)
  | forBlock d i e ts => .forBlock d i e ts.reverse

def isLogical : Frame → Bool
  | logical .. => true
  | _ => false

def isClauseOrLogical : Frame → Bool
  | clause .. | logical .. => true
  | _ => false

/-- The directive that opened a block. -/
def opening? : Frame → Option Directive
  | clause .. | logical .. => none
  | ifBlock d _ | elseifBlock d _ _ _ _ | elseBlock d _ _ _ | forBlock d _ _ _ => some d

/-- A block with another branch open after those complete. -/
def branch (kind : DirectiveKind) (d : Directive) (test : Directive) (body : List Tree)
    (elseifs : List (Directive × List Tree)) : Frame :=
  if kind = .elseBranch then elseBlock test body elseifs [] else elseifBlock test body elseifs d []

end Frame

/-- Completes the frames from the top as long as `p` holds of them. Gives the tree of the last one
completed, if no frame is left to hold it, and the frames left. -/
def completeWhile (p : Frame → Bool) : Option Tree → List Frame → Option Tree × List Frame
  | t?, [] => (t?, [])
  | t?, f :: fs =>
    let f := t?.elim f f.add
    if p f then completeWhile p (some f.tree) fs else (none, f :: fs)

/-- The left operand of a set operation, and its keyword. -/
structure LeftOperand where
  tree : Tree
  op : SetOperator
  keyword : String

/-- A statement whose end has not come. Children come last first. -/
structure Level where
  left? : Option LeftOperand
  children : List Tree
  frames : List Frame

namespace Level

def start : Level := ⟨none, [], []⟩

/-- The number of constructs open. -/
def size (l : Level) : Nat := (if l.left?.isSome then 2 else 1) + l.frames.length

def add (t : Tree) (l : Level) : Level :=
  match l.frames with
  | [] => { l with children := t :: l.children }
  | f :: fs => { l with frames := f.add t :: fs }

def openFrame (f : Frame) (l : Level) : Level := { l with frames := f :: l.frames }

def complete (p : Frame → Bool) (l : Level) : Level :=
  let (t?, frames) := completeWhile p none l.frames
  { l with frames, children := t?.toList ++ l.children }

/-- The tree of the level. -/
def tree (l : Level) : Tree :=
  let right := Tree.statement l.children.reverse
  match l.left? with
  | none => right
  | some left => .setOperation left.tree left.op left.keyword right

/-- The tree of the level, if no block is open in it. -/
def finish (l : Level) : Except Error Tree :=
  let l := l.complete Frame.isClauseOrLogical
  match l.frames.head?.bind Frame.opening? with
  | some d => .error (.structural .blockWithoutEnd d.location)
  | none => .ok l.tree

end Level

/-- The directives that may have a sample after them. -/
inductive SampleKind where
  | bind
  | literal
  | expand

/-- A directive whose sample, if it has one, comes next. -/
structure Waiting where
  kind : SampleKind
  directive : Directive

namespace Waiting

def tree (w : Waiting) (sample? : Option Tree) : Tree :=
  match w.kind with
  | .bind => .bind w.directive sample?
  | .literal => .literal w.directive sample?
  | .expand => .expand w.directive sample?

/-- The sample that a token is. -/
def sample? (w : Waiting) (t : Token) : Option Tree :=
  match w.kind, t.kind with
  | .bind, .word | .bind, .quote | .literal, .word | .literal, .quote => some (.word t.text)
  | .expand, .other => if t.text = "*" then some (.other t.text) else none
  | _, _ => none

/-- Whether brackets are a sample. -/
def takesBrackets (w : Waiting) : Bool :=
  match w.kind with
  | .bind | .literal => true
  | .expand => false

end Waiting

/-- A level that waits for the end of the brackets within it, which are the sample of a directive or
stand for themselves. -/
structure Suspended where
  level : Level
  opening : Location
  sampleOf? : Option Waiting

structure ParserState where
  level : Level
  outer : List Suspended
  waiting? : Option Waiting

namespace ParserState

def start : ParserState := ⟨.start, [], none⟩

/-- The number of constructs open. -/
def depth (s : ParserState) : Nat :=
  s.outer.foldr (fun o n => o.level.size + 1 + n) s.level.size

def add (t : Tree) (s : ParserState) : ParserState := { s with level := s.level.add t }

def openFrame (f : Frame) (s : ParserState) : ParserState :=
  { s with level := s.level.openFrame f }

/-- The state after the end of a directive that had no sample. -/
def settle (s : ParserState) : ParserState :=
  match s.waiting? with
  | none => s
  | some w => { s.add (w.tree none) with waiting? := none }

def openBracket (limit : Nat) (s : ParserState) (location : Location) (sampleOf? : Option Waiting) :
    Except Error ParserState :=
  if limit < s.depth + 1 then .error (.structural (.tooDeep limit) location)
  else .ok ⟨.start, ⟨s.level, location, sampleOf?⟩ :: s.outer, none⟩

def closeBracket (s : ParserState) (location : Location) : Except Error ParserState :=
  match s.outer with
  | [] => .error (.structural .unopenedBracket location)
  | o :: outer => do
    let group := Tree.brackets (← s.level.finish)
    let tree := match o.sampleOf? with
      | none => group
      | some w => w.tree (some group)
    return ⟨o.level.add tree, outer, none⟩

/-- Opens another branch of the innermost block. -/
def addBranch (s : ParserState) (kind : DirectiveKind) (d : Directive) : Except Error ParserState :=
  let level := s.level.complete Frame.isClauseOrLogical
  match level.frames with
  | .ifBlock test ts :: frames =>
    .ok { s with level := { level with frames := .branch kind d test ts.reverse [] :: frames } }
  | .elseifBlock test body bs e ts :: frames =>
    let f := Frame.branch kind d test body ((e, ts.reverse) :: bs)
    .ok { s with level := { level with frames := f :: frames } }
  | .elseBlock .. :: _ => .error (.structural (.afterElse kind) d.location)
  | _ => .error (.structural .branchWithoutIf d.location)

/-- Ends the innermost block. -/
def endBlock (s : ParserState) (location : Location) : Except Error ParserState :=
  let level := s.level.complete Frame.isClauseOrLogical
  match level.frames with
  | [] => .error (.structural .endWithoutBlock location)
  | f :: frames => .ok { s with level := { level with frames }.add f.tree }

/-- Reads a directive. -/
def addDirective (s : ParserState) (kind : DirectiveKind) (d : Directive) :
    Except Error ParserState :=
  match kind with
  | .bind => .ok { s with waiting? := some ⟨.bind, d⟩ }
  | .literal => .ok { s with waiting? := some ⟨.literal, d⟩ }
  | .expand => .ok { s with waiting? := some ⟨.expand, d⟩ }
  | .embedded => .ok (s.add (.embedded d))
  | .ifBranch => .ok (s.openFrame (.ifBlock d []))
  | .elseifBranch | .elseBranch => s.addBranch kind d
  | .blockEnd => s.endBlock d.location
  | .forLoop =>
    match loopParts? d.expression.toList with
    | none => .error (.lexical .malformedLoop d.location)
    | some (identifier, expression) =>
      .ok (s.openFrame (.forBlock d (String.ofList identifier) (String.ofList expression) []))

/-- Refuses a token at which too much is open. -/
def checkDepth (limit : Nat) (s : ParserState) (location : Location) : Except Error Unit :=
  if limit < s.depth then .error (.structural (.tooDeep limit) location) else .ok ()

/-- Reads a token that is no sample and not the end. -/
def addToken (limit : Nat) (source : String) (s : ParserState) (t : Token) :
    Except Error ParserState := do
  let location : Location := ⟨source, t.start⟩
  s.checkDepth limit location
  match t.kind with
  | .stop | .delimiter => return s
  | .word | .quote => return s.add (.word t.text)
  | .blank => return s.add (.blank t.text)
  | .comment => return s.add (.comment t.text)
  | .other => return s.add (.other t.text)
  | .openBracket => s.openBracket limit location none
  | .closeBracket => s.closeBracket location
  | .clause kind =>
    let level := s.level.complete Frame.isClauseOrLogical
    return { s with level := level.openFrame (.clause kind t.text []) }
  | .connector op =>
    let level := s.level.complete Frame.isLogical
    return { s with level := level.openFrame (.logical op t.text []) }
  | .set op =>
    let left ← s.level.finish
    return { s with level := ⟨some ⟨left, op, t.text⟩, [], []⟩ }
  | .directive kind => s.addDirective kind ⟨t.body?.getD "", t.text, location⟩

/-- Reads a token that is not the end. -/
def step (limit : Nat) (source : String) (s : ParserState) (t : Token) : Except Error ParserState :=
  match s.waiting? with
  | none => s.addToken limit source t
  | some w =>
    match w.sample? t with
    | some sample => .ok { s.add (w.tree (some sample)) with waiting? := none }
    | none =>
      if t.kind = .openBracket ∧ w.takesBrackets then
        openBracket limit { s with waiting? := none } ⟨source, t.start⟩ (some w)
      else s.settle.addToken limit source t

/-- The tree at the end of the template or a semicolon. -/
def finish (limit : Nat) (source : String) (s : ParserState) (t : Token) : Except Error Tree := do
  let s := s.settle
  s.checkDepth limit ⟨source, t.start⟩
  match s.outer with
  | [] => s.level.finish
  | o :: _ => .error (.structural .unclosedBracket o.opening)

end ParserState

/-- Reads tokens up to the end or the first semicolon. -/
def parseTokens (limit : Nat) (source : String) (error? : Option Error) :
    ParserState → List Token → Except Error Tree
  | s, [] =>
    match error? with
    | some e => .error e
    | none => s.settle.level.finish
  | s, t :: ts =>
    if t.kind = .stop ∨ t.kind = .delimiter then s.finish limit source t
    else do parseTokens limit source error? (← s.step limit source t) ts

/-- Parses a template whose nesting is within the limit. What comes after the first semicolon is
ignored. -/
def parse (limit : Nat) (source : String) : Except Error Tree :=
  let lexed := lex source
  parseTokens limit source (lexed.failure?.map (.ofFailure source)) .start lexed.tokens

end TwoWaySql.Template
