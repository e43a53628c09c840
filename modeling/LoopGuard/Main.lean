import LoopGuard.Daemon.Run

/-!
# The program

Runs the daemon on a database in memory: a dry run that checks the command line
and the configuration, starts the engine, polls the empty link table once and
shuts down.
-/

open LoopGuard

def readConfigFile (path : String) : IO (Except FileFailure ByteArray) := do
  try
    return .ok (← IO.FS.readBinFile path)
  catch
    | .noFileOrDirectory .. => return .error .notFound
    | .inappropriateType .. => return .error .isADirectory
    | error => return .error (.other (toString error))

/-- The file that a command line asks for, if it asks for a run. -/
def readRequestedFile (arguments : List String) : IO (Except FileFailure ByteArray) :=
  match Daemon.Invocation.ofArguments arguments with
  | .ok (.run options) => readConfigFile options.config
  | _ => return .error .notFound

def main (arguments : List String) : IO UInt32 := do
  let file ← readRequestedFile arguments
  let outcome := Daemon.run arguments (fun _ => file) {}
  for milestone in outcome.milestones do
    IO.println milestone.text
  IO.print outcome.output
  IO.eprint outcome.errors
  return .ofNat outcome.code
