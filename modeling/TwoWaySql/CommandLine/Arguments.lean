import TwoWaySql.Number.Digits

/-!
# Arguments of the command line

Options come before the command they belong to or after it, as their kind says. An option takes its
value from the same argument (`--config=FILE`, `-cFILE`, `-c=FILE`) or from the next one, and is
given at most once. After `--` every argument is an operand. The environment gives values to options
that are not given.

Arguments are read in order and the first one that is wrong or asks for information decides, so
`render -f xml --help` is wrong and `render --help -f xml` is not. What is missing is found at the
end.
-/

namespace TwoWaySql.CommandLine

inductive OptionKind where
  | config
  | maxDepth
  | verbose
  | params
  | format
  | help
  | version
  deriving DecidableEq

namespace OptionKind

def longName : OptionKind → String
  | config => "config"
  | maxDepth => "max-depth"
  | verbose => "verbose"
  | params => "params"
  | format => "format"
  | help => "help"
  | version => "version"

def shortName? : OptionKind → Option Char
  | config => some 'c'
  | maxDepth => none
  | verbose => some 'v'
  | params => some 'p'
  | format => some 'f'
  | help => some 'h'
  | version => some 'V'

def takesValue : OptionKind → Bool
  | config | maxDepth | params | format => true
  | _ => false

end OptionKind

/-- Why no command is carried out. -/
inductive Stop where
  /-- The arguments are wrong. -/
  | usage
  /-- They ask for information about the program only. -/
  | information
  deriving DecidableEq

/-! ## Values -/

inductive OutputFormat where
  | text
  | json
  deriving DecidableEq

/-- A path, which must not be empty. -/
def readPath? (s : String) : Option String := if s.isEmpty then none else some s

/-- A number of machine size, perhaps with a plus sign. -/
def readNumber? (s : String) : Option Nat :=
  let ds := match s.toList with
    | '+' :: ds => ds
    | ds => ds
  if !ds.isEmpty && ds.all Char.isDigit && Number.ofDigits ds < UInt64.size then
    some (Number.ofDigits ds)
  else none

def readFormat? : String → Option OutputFormat
  | "text" => some .text
  | "json" => some .json
  | _ => none

/-- What must be there. -/
def demand {α : Type} : Option α → Except Stop α
  | some a => .ok a
  | none => .error .usage

/-- Fills a place that is filled at most once. -/
def fill {α : Type} (place value : Option α) : Except Stop (Option α) :=
  if place.isSome then .error .usage else (demand value).map some

/-- What the arguments read so far have given. -/
structure Arguments where
  config? : Option String
  maxDepth? : Option Nat
  verbose : Bool
  params? : Option String
  format? : Option OutputFormat
  template? : Option String

namespace Arguments

def empty : Arguments := ⟨none, none, false, none, none, none⟩

/-- Takes an option with its value, which is empty for an option that takes none. -/
def addOption (a : Arguments) (kind : OptionKind) (value : String) : Except Stop Arguments := do
  match kind with
  | .config => return { a with config? := ← fill a.config? (readPath? value) }
  | .maxDepth => return { a with maxDepth? := ← fill a.maxDepth? (readNumber? value) }
  | .verbose => if a.verbose then throw .usage else return { a with verbose := true }
  | .params => return { a with params? := ← fill a.params? (readPath? value) }
  | .format => return { a with format? := ← fill a.format? (readFormat? value) }
  | .help | .version => throw .information

end Arguments

/-! ## Parts of a command line -/

/-- What may stand in a part of the command line. -/
structure Part where
  options : List OptionKind
  /-- Whether one operand is taken, a path. If not, an operand is the name of a command and ends the
  part. -/
  takesPath : Bool

/-- What stands before a command. -/
def globalPart : Part := ⟨[.config, .maxDepth, .verbose, .help, .version], false⟩

def renderPart : Part := ⟨[.params, .format, .help], true⟩

def checkPart : Part := ⟨[.help], true⟩

def isCommandName (s : String) : Bool := s == "render" || s == "check" || s == "help"

namespace Part

def addOperand (p : Part) (a : Arguments) (operand : String) : Except Stop Arguments := do
  if p.takesPath then return { a with template? := ← fill a.template? (readPath? operand) }
  else throw .usage

/-- Reads the short options in one argument. Gives the option whose value is in the next argument,
if there is one. -/
def readShort (p : Part) : Arguments → List Char → Except Stop (Arguments × Option OptionKind)
  | a, [] => .ok (a, none)
  | a, c :: cs =>
    match p.options.find? fun k => k.shortName? = some c with
    | none => .error .usage
    | some kind =>
      if kind.takesValue then
        match cs with
        | [] => .ok (a, some kind)
        | '=' :: value => (a.addOption kind (String.ofList value)).map (·, none)
        | value => (a.addOption kind (String.ofList value)).map (·, none)
      else do readShort p (← a.addOption kind "") cs

/-- Reads a long option. -/
def readLong (p : Part) (a : Arguments) (cs : List Char) :
    Except Stop (Arguments × Option OptionKind) :=
  let name := String.ofList (cs.takeWhile (· ≠ '='))
  match p.options.find? (·.longName = name), cs.dropWhile (· ≠ '=') with
  | none, _ => .error .usage
  | some kind, [] =>
    if kind.takesValue then .ok (a, some kind) else (a.addOption kind "").map (·, none)
  | some kind, _ :: value =>
    if kind.takesValue then (a.addOption kind (String.ofList value)).map (·, none)
    else .error .usage

/-- Reads an argument that is no operand. -/
def readOption? (p : Part) (a : Arguments) (argument : String) :
    Option (Except Stop (Arguments × Option OptionKind)) :=
  match argument.toList with
  | '-' :: '-' :: cs => some (p.readLong a cs)
  | '-' :: c :: cs => some (p.readShort a (c :: cs))
  | _ => none

/-- Reads the part to its end, and gives the arguments after it from the command's name on.
`waiting?` is the option whose value comes next. -/
def read (p : Part) : Option OptionKind → Arguments → List String →
    Except Stop (Arguments × List String)
  | some _, _, [] => .error .usage
  | none, a, [] => .ok (a, [])
  | some kind, a, argument :: rest =>
    if (p.readOption? a argument).isSome then .error .usage
    else do read p none (← a.addOption kind argument) rest
  | none, a, argument :: rest =>
    if argument = "--" then (rest.foldlM p.addOperand a).map (·, [])
    else match p.readOption? a argument with
      | some (.error e) => .error e
      | some (.ok (a, waiting?)) => read p waiting? a rest
      | none =>
        if !p.takesPath && isCommandName argument then .ok (a, argument :: rest)
        else do read p none (← p.addOperand a argument) rest

end Part

/-! ## Commands -/

inductive Command where
  | render (template : String) (params? : Option String) (format : OutputFormat)
  | check (template : String)

/-- What the command line asks for. -/
structure Invocation where
  config? : Option String
  maxDepth? : Option Nat
  verbose : Bool
  command : Command

/-- The values that the environment gives to options. -/
structure Environment where
  config? : Option String
  maxDepth? : Option String

/-- The command that the arguments from its name on stand for. -/
def readCommand : List String → Except Stop Command
  | "render" :: rest => do
    let (a, _) ← renderPart.read none .empty rest
    return .render (← demand a.template?) a.params? (a.format?.getD .text)
  | "check" :: rest => do
    let (a, _) ← checkPart.read none .empty rest
    return .check (← demand a.template?)
  | "help" :: rest =>
    if rest = [] ∨ rest = ["render"] ∨ rest = ["check"] ∨ rest = ["help"] then .error .information
    else .error .usage
  | _ => .error .usage

/-- The value of an option: the one that was given, or the environment's as `read` reads it. -/
def orElseEnvironment {α : Type} (read : String → Option α) :
    Option α → Option String → Except Stop (Option α)
  | none, some s => (demand (read s)).map some
  | given, _ => .ok given

/-- What a command line asks for. -/
def readInvocation (env : Environment) (arguments : List String) : Except Stop Invocation := do
  let (a, rest) ← globalPart.read none .empty arguments
  let command ← readCommand rest
  let config? ← orElseEnvironment readPath? a.config? env.config?
  let maxDepth? ← orElseEnvironment readNumber? a.maxDepth? env.maxDepth?
  return ⟨config?, maxDepth?, a.verbose, command⟩

/-- The files that a command may read. -/
def Invocation.paths (i : Invocation) : List String :=
  let command := match i.command with
    | .render template params? _ => template :: params?.toList
    | .check template => [template]
  i.config?.toList ++ command

example : readInvocation ⟨none, none⟩ ["render", "-f", "xml", "--help"] = .error .usage := by cbv

example : readInvocation ⟨none, none⟩ ["render", "--help", "-f", "xml"] = .error .information := by
  cbv

end TwoWaySql.CommandLine
