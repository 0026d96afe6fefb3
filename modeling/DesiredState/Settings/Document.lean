import DesiredState.Disk
import DesiredState.Settings
import DesiredState.Text.Blank
import DesiredState.Yaml.Content

/-!
# Settings on disk

The settings of a user are kept in a YAML text in the user's home directory. Without the text,
and where it is blank or leaves a setting out, the defaults hold. Settings that are not known
are passed over.
-/

set_option autoImplicit false

namespace DesiredState

/-- Why settings could not be read or written. -/
inductive SettingsError where
  | io
  | malformed
  deriving DecidableEq

namespace Settings

/-! ## The text -/

def names : List String :=
  ["timeout_secs", "event_poll_interval_ms", "terminal_poll_interval_ms", "strict_identity",
    "wait"]

def ofNode? (node : Yaml.Node) : Option Settings := do
  let fields ← node.fields?
  let known := fields.filter fun field => names.contains field.1
  if !Yaml.Node.areDistinct known then none
  let number := Yaml.Node.unsigned?
  let truth := Yaml.Node.bool?
  let component {α : Type} := @Yaml.Node.component? α known
  let timeoutSecs ← component "timeout_secs" standard.timeoutSecs number
  let eventMs ← component "event_poll_interval_ms" standard.eventPollIntervalMs number
  let terminalMs ← component "terminal_poll_interval_ms" standard.terminalPollIntervalMs number
  let strictIdentity ← component "strict_identity" standard.strictIdentity truth
  let wait ← component "wait" standard.wait truth
  return ⟨timeoutSecs, eventMs, terminalMs, strictIdentity, wait⟩

def ofYaml? (text : String) : Option Settings :=
  if isAllBlank text then some standard
  else
    match Yaml.document? text with
    | none => none
    | some none => some standard
    | some (some root) => ((Yaml.Document.of root).contentFor? names.contains).bind ofNode?

def line (name value : String) : String := name ++ ": " ++ value ++ "\n"

def yaml (settings : Settings) : String :=
  let truth (value : Bool) : String := if value then "true" else "false"
  line "timeout_secs" (Nat.repr settings.timeoutSecs) ++
    line "event_poll_interval_ms" (Nat.repr settings.eventPollIntervalMs) ++
    line "terminal_poll_interval_ms" (Nat.repr settings.terminalPollIntervalMs) ++
    line "strict_identity" (truth settings.strictIdentity) ++
    line "wait" (truth settings.wait)

/-! ## The file -/

def root (home : Path) : Path := home ++ [".converge"]

def path (home : Path) : Path := root home ++ ["config.yaml"]

def temporaryPath (home : Path) : Path := root home ++ ["config.yaml.tmp"]

def pathText (home : String) : String :=
  Path.joinText (Path.joinText home ".converge") "config.yaml"

def load (disk : Disk) (home : Path) : Except SettingsError Settings :=
  if !disk.contains (path home) then .ok standard
  else
    match disk.read? (path home) with
    | none => .error .io
    | some text =>
        match ofYaml? text with
        | some settings => .ok settings
        | none => .error .malformed

def save (settings : Settings) (disk : Disk) (home : Path) :
    Except SettingsError Unit × Disk :=
  match disk.makeDirectory (root home) with
  | (false, disk) => (.error .io, disk)
  | (true, disk) =>
      match disk.write (temporaryPath home) settings.yaml with
      | (false, disk) => (.error .io, disk)
      | (true, disk) =>
          match disk.rename (temporaryPath home) (path home) with
          | (false, disk) => (.error .io, disk)
          | (true, disk) => (.ok (), disk)

end Settings

end DesiredState
