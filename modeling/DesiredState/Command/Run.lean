import DesiredState.Command.Arguments
import DesiredState.Command.Output
import DesiredState.Manifest
import DesiredState.Pass.Converge
import DesiredState.Settings.Document

/-!
# Running commands

A run of the program as a function of its arguments and the disk. It answers with an exit code,
what is written to the two output streams, and the disk as it is afterwards.
-/

set_option autoImplicit false

namespace DesiredState

/-- What a run of the program comes to. -/
structure RunResult where
  exitCode : Nat
  output : String
  errors : String
  disk : Disk

/-- Why a command failed: what could not be done, and the causes, outermost first. -/
structure CommandFailure where
  message : String
  causes : List String
  deriving DecidableEq

namespace CommandFailure

def of (message : String) : CommandFailure := ⟨message, []⟩

def ofPass (what manifest : String) (error : PassError) : CommandFailure :=
  let sources := match error with
    | .operationFailed _ _ _ source => [source.message]
    | .store source => [source.message]
    | _ => []
  ⟨what ++ " failed for " ++ manifest, error.message :: sources⟩

def hanging (margin : Nat) (text : String) : String :=
  text.replace "\n" ("\n" ++ Table.repeated margin ' ')

def causeLines : List String → List String
  | [cause] => ["    " ++ hanging 4 cause]
  | causes =>
      causes.zipIdx.map fun (cause, index) =>
        let number := Nat.repr index
        Table.repeated (5 - number.length) ' ' ++ number ++ ": " ++ hanging 7 cause

def report (failure : CommandFailure) : String :=
  let first := "Error: " ++ failure.message
  if failure.causes.isEmpty then Output.lines [first]
  else Output.lines ([first, "", "Caused by:"] ++ causeLines failure.causes)

end CommandFailure

/-- What a command works on. -/
structure Workspace where
  settings : Settings
  store : DocumentStore
  directory : Path

namespace Workspace

def openFor (disk : Disk) (home directory : Path) (state : String) (clock : Clock) :
    Except CommandFailure Workspace :=
  match Settings.load disk home with
  | .error _ => .error (.of "failed to load ~/.converge/config.yaml")
  | .ok settings =>
      match DocumentStore.openAt disk home state clock with
      | .error _ => .error (.of ("failed to open state '" ++ state ++ "'"))
      | .ok store => .ok ⟨settings, store, directory⟩

def request (workspace : Workspace) (manifest : String) : Except CommandFailure PassRequest :=
  match Manifest.load workspace.store.disk workspace.directory manifest with
  | .error error => .error (.of error.message)
  | .ok contents =>
      match contents.toRequest workspace.settings with
      | .error error => .error (.of error.message)
      | .ok request => .ok request

def intervals (workspace : Workspace) : WaitIntervals :=
  ⟨workspace.settings.eventPollIntervalMs, workspace.settings.terminalPollIntervalMs⟩

def result (disk : Disk) (output : String) (failure : Option CommandFailure) : RunResult :=
  match failure with
  | none => ⟨0, output, "", disk⟩
  | some failure => ⟨1, output, failure.report, disk⟩

def runPlan (workspace : Workspace) (manifest : String) : RunResult :=
  match workspace.request manifest with
  | .error failure => result workspace.store.disk "" (some failure)
  | .ok request =>
      match request.plan DocumentStore.remote workspace.store with
      | (.error error, store) => result store.disk "" (some (.ofPass "plan" manifest error))
      | (.ok plan, store) => result store.disk (Output.ofPlan plan) none

def withOptions (noWait : Bool) (timeout : Option Nat) (strict : Bool) (request : PassRequest) :
    PassRequest :=
  { request with
    wait := if noWait then .noWait else request.wait
    timeout := (timeout.map (· * 1000)).getD request.timeout
    strict := request.strict || strict }

def runApply (workspace : Workspace) (manifest : String) (noWait : Bool) (timeout : Option Nat)
    (strict : Bool) : RunResult :=
  match workspace.request manifest with
  | .error failure => result workspace.store.disk "" (some failure)
  | .ok request =>
      let request := withOptions noWait timeout strict request
      match request.converge DocumentStore.remote workspace.intervals
          ⟨workspace.store, [], 0⟩ with
      | (.error error, state) =>
          result state.store.disk "" (some (.ofPass "apply" manifest error))
      | (.ok report, state) =>
          let failure := if report.isSuccess then none else some (CommandFailure.of report.summary)
          result state.store.disk (Output.ofReport report) failure

def runShow (workspace : Workspace) (kind : String) (id : Nat) : RunResult :=
  let store := workspace.store
  match store.memory.state.objectNumbered? kind id with
  | some object => result store.disk (Output.lines [object.toValue.pretty]) none
  | none =>
      let message := kind ++ " " ++ Nat.repr id ++ " not found in state '" ++ store.name ++ "'"
      result store.disk "" (some (.of message))

def runEvents (workspace : Workspace) (kind : String) (id : Nat) (action : Option String)
    (json : Bool) : RunResult :=
  let found := workspace.store.memory.state.records.filter fun record =>
    record.entityType == kind && record.entityId == id && action.all (record.action == ·)
  let output := if json then Output.eventsJson found else Output.ofEvents kind id found
  result workspace.store.disk output none

def run (workspace : Workspace) : Command → RunResult
  | .plan manifest => workspace.runPlan manifest
  | .apply manifest noWait timeout strict => workspace.runApply manifest noWait timeout strict
  | .showObject kind id => workspace.runShow kind id
  | .events kind id action json => workspace.runEvents kind id action json

end Workspace

namespace Invocation

def versionText : String := "converge 0.1.11\n"

def usage : String :=
  Output.lines ["Usage: converge <COMMAND>", "", "Commands:",
    "  plan <MANIFEST> [--state <NAME>]",
    "  apply <MANIFEST> [--no-wait] [--timeout <SECS>] [--strict] [--state <NAME>]",
    "  show <KIND> <ID> [--state <NAME>]",
    "  events <KIND> <ID> [--action <ACTION>] [--json] [--state <NAME>]"]

def run (invocation : Invocation) (disk : Disk) (home directory : Path) (clock : Clock) :
    RunResult :=
  match invocation with
  | .version => ⟨0, versionText, "", disk⟩
  | .help => ⟨0, usage, "", disk⟩
  | .command wanted state =>
      match Workspace.openFor disk home directory state clock with
      | .error failure => ⟨1, "", failure.report, disk⟩
      | .ok workspace => workspace.run wanted

def runArguments (arguments : List String) (disk : Disk) (home directory : Path)
    (clock : Clock) : RunResult :=
  match ofArguments? arguments with
  | none => ⟨2, "", usage, disk⟩
  | some invocation => invocation.run disk home directory clock

end Invocation

end DesiredState
