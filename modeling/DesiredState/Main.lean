import DesiredState.Command.Run
import Std.Time.DateTime

/-!
# The program

Puts the files that an invocation reads on a disk in memory, runs the invocation there, prints
what it answers, and writes the document of the state back if it has changed. Waiting takes no
time, because a state on disk changes by nothing but the calls of the run itself.
-/

set_option autoImplicit false

namespace DesiredState

namespace Program

def directory : Path := ["."]

def look (path : String) : IO (Option Node) := do
  try
    return some (.file (← IO.FS.readFile path))
  catch
    | .noFileOrDirectory _ _ _ => return none
    | _ => return some (.directory [])

def fetch (disk : Disk) (path : String) (place : Path) : IO Disk := do
  match ← look path with
  | none => return disk
  | some node =>
      let disk := (disk.makeDirectory place.parent).2
      match disk.resolve? place with
      | some place => return disk.put place node
      | none => return disk

def gather (home state : String) (command : Command) : IO Disk := do
  let disk ← fetch .empty (Settings.pathText home) (Settings.path (Path.names home))
  let disk ← fetch disk (StateDocument.pathText home state)
    (StateDocument.path (Path.names home) state)
  match command.manifest? with
  | none => return disk
  | some manifest => fetch disk manifest (Path.locate directory manifest)

def keep (home state text : String) : IO Unit := do
  let path := StateDocument.pathText home state
  let names := Path.names path
  IO.FS.createDirAll ("/".intercalate names.dropLast)
  let temporary := "/".intercalate (StateDocument.temporaryPath names)
  IO.FS.writeFile temporary text
  IO.FS.rename temporary path

def currentTime : IO Timestamp := do
  let now ← Std.Time.Timestamp.now
  return (Timestamp.sinceEpoch? now.toNanosecondsSinceUnixEpoch.val.toNat).getD .epoch

def answer (result : RunResult) : IO UInt32 := do
  IO.print result.output
  IO.eprint result.errors
  return UInt32.ofNat result.exitCode

def runCommand (home state : String) (command : Command) : IO UInt32 := do
  let clock := Clock.stopped (← currentTime)
  let disk ← gather home state command
  let result := (Invocation.command command state).run disk (Path.names home) directory clock
  let place := StateDocument.path (Path.names home) state
  let before := disk.read? place
  match result.disk.read? place with
  | none => answer result
  | some text =>
      if before == some text then answer result
      else
        try
          keep home state text
          answer result
        catch _ =>
          IO.eprint (CommandFailure.of ("failed to save state '" ++ state ++ "'")).report
          return 1

def run (arguments : List String) : IO UInt32 := do
  match Invocation.ofArguments? arguments with
  | some (.command command state) =>
      match ← IO.getEnv "HOME" with
      | some home => runCommand home state command
      | none =>
          IO.eprint (CommandFailure.of "could not determine home directory").report
          return 1
  | _ => answer (Invocation.runArguments arguments .empty [] directory (.stopped .epoch))

end Program

end DesiredState

def main (arguments : List String) : IO UInt32 := DesiredState.Program.run arguments
