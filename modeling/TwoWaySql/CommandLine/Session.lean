import TwoWaySql.CommandLine.Arguments
import TwoWaySql.Compiler
import TwoWaySql.Json.Printer

/-!
# Carrying out a command

A session reads the settings, the template and the parameters, in this order, and then does its
work. It writes lines to the standard output as it goes; a failure ends it with a report of what was
tried and what the causes were.
-/

namespace TwoWaySql.CommandLine

/-- What a failed session reports. -/
structure Failure where
  attempt : String
  causes : List String

namespace Failure

/-- A cause, its further lines indented. -/
def causeText (indent : Nat) (cause : String) : String :=
  let space := String.ofList (List.replicate indent ' ')
  ("\n" ++ space).intercalate (cause.splitOn "\n")

/-- The report; several causes are numbered. -/
def report (f : Failure) : String :=
  let causes := match f.causes with
    | [] => []
    | [cause] => ["    " ++ causeText 4 cause]
    | causes => causes.mapIdx fun i cause => "    " ++ toString i ++ ": " ++ causeText 7 cause
  let heading := if causes.isEmpty then [] else ["", "Caused by:"]
  "\n".intercalate (("Error: " ++ f.attempt) :: heading ++ causes) ++ "\n"

/-- The failure of a template: an expression's error is a cause of its own. -/
def ofTemplate (attempt : String) (e : Template.Error) : Failure :=
  match e with
  | .expression _ _ inner => ⟨attempt, [e.message, inner.message]⟩
  | _ => ⟨attempt, [e.message]⟩

end Failure

/-- The standard output so far, and a failure at the end. -/
abbrev Session := ExceptT Failure (StateM String)

namespace Session

def line (s : String) : Session Unit := modify (· ++ s ++ "\n")

/-- A line that is only written when the session tells what it does. -/
def debug (verbose : Bool) (s : String) : Session Unit :=
  if verbose then line ("DEBUG " ++ s) else pure ()

end Session

/-- Gives the content of a file, or the reason why it cannot be read. -/
abbrev FileReader := String → Except String String

def contentOf (read : FileReader) (attempt path : String) : Session String :=
  match read path with
  | .ok content => pure content
  | .error reason => throw ⟨attempt ++ " " ++ path, [reason]⟩

def readSettings (read : FileReader) (i : Invocation) : Session Settings := do
  let settings ← match i.config? with
    | none => pure Settings.default
    | some path =>
      match Settings.ofText? (← contentOf read "Failed to read config" path) with
      | some settings => pure settings
      | none => throw ⟨"Invalid config " ++ path, ["the text holds no settings"]⟩
  return { settings with maxDepth := i.maxDepth?.getD settings.maxDepth }

def readParameters (read : FileReader) : Option String → Session Scope
  | none => pure .empty
  | some path => do
    match Json.read? (← contentOf read "Failed to read params" path) with
    | none => throw ⟨"Invalid JSON in " ++ path, ["the text is no JSON document"]⟩
    | some json =>
      match Scope.ofJson? json with
      | some scope => pure scope
      | none => throw ⟨"Parameters in " ++ path ++ " must be a JSON object", []⟩

/-- The result of a run; a failure of it is reported as that of an attempt. -/
def finishRun {α : Type} (verbose : Bool) (attempt : String) (run : Run α) : Session α := do
  for event in run.events do
    Session.debug verbose event.text
  match run.result with
  | .ok a => return a
  | .error e => throw (.ofTemplate attempt e)

def rule : String := String.ofList (List.replicate 60 '-')

/-- A bound value with its number, which is aligned to the right. -/
def valueLine (index : Nat) (v : BoundValue) : String :=
  let number := toString (index + 1)
  let space := String.ofList (List.replicate (3 - number.length) ' ')
  " " ++ space ++ number ++ "  " ++ v.value.text ++ " (" ++ v.type.name ++ ")"

def writeStatement (format : OutputFormat) (s : Statement) : Session Unit :=
  match format with
  | .json => Session.line s.toJson.pretty
  | .text => do
    Session.line s.text
    Session.line rule
    for (v, index) in s.values.zipIdx do
      Session.line (valueLine index v)
    Session.line rule
    Session.line s.log

def perform (read : FileReader) (i : Invocation) : Session Unit := do
  let settings ← readSettings read i
  Session.debug i.verbose ("Builder configuration config=" ++ settings.describe)
  let (compiler, cache?) := Compiler.ofSettings settings
  match i.command with
  | .render path params? format =>
    let template ← contentOf read "Failed to read" path
    let parameters ← readParameters read params?
    let run := compiler.build cache? template parameters
    writeStatement format (← finishRun i.verbose ("Failed to render " ++ path) run)
  | .check path =>
    let template ← contentOf read "Failed to read" path
    let run := compiler.parse cache? template
    let _ ← finishRun i.verbose ("Failed to parse " ++ path) run
    Session.line (" INFO " ++ path ++ " is a valid template.")

/-- How a program ends. -/
structure Ending where
  exitCode : Nat
  stdout : String
  stderr : String

def usageText : String :=
  "usage: [-c FILE] [--max-depth N] [-v] render TEMPLATE [-p FILE] [-f text|json]\n" ++
  "       [-c FILE] [--max-depth N] [-v] check TEMPLATE\n"

/-- Carries out a command line. -/
def run (env : Environment) (read : FileReader) (arguments : List String) : Ending :=
  match readInvocation env arguments with
  | .error .usage => ⟨2, "", usageText⟩
  | .error .information => ⟨0, usageText, ""⟩
  | .ok invocation =>
    match (perform read invocation).run "" with
    | (.ok (), stdout) => ⟨0, stdout, ""⟩
    | (.error failure, stdout) => ⟨1, stdout, failure.report⟩

end TwoWaySql.CommandLine
