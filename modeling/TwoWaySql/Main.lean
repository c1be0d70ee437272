import TwoWaySql.CommandLine.Session

/-!
# The program

Gives the command line the environment and the files it asks for, and prints what it answers.
-/

namespace TwoWaySql.CommandLine

/-- A path with the content of its file, or with the reason why it cannot be read. -/
def readPath (path : String) : IO (String × Except String String) := do
  try return (path, .ok (← IO.FS.readFile path))
  catch
    | .noFileOrDirectory .. => return (path, .error "No such file or directory (os error 2)")
    | e => return (path, .error (toString e))

end TwoWaySql.CommandLine

open TwoWaySql.CommandLine

def main (arguments : List String) : IO UInt32 := do
  let env : Environment :=
    ⟨← IO.getEnv "OXIDE_SQL_TEMPLATE_CONFIG", ← IO.getEnv "OXIDE_SQL_TEMPLATE_MAX_DEPTH"⟩
  let paths := match readInvocation env arguments with
    | .ok invocation => invocation.paths
    | .error _ => []
  let files ← paths.mapM readPath
  let read (path : String) := (files.lookup path).getD (.error "No such file or directory")
  let ending := run env read arguments
  (← IO.getStdout).putStr ending.stdout
  (← IO.getStderr).putStr ending.stderr
  return ending.exitCode.toUInt32
