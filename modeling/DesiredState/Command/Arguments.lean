import DesiredState.Store.Document

/-!
# Arguments

What can be asked for on the command line. Options stand anywhere behind the name of the
command, each at most once, with their value behind an equals sign or as the next argument.
Behind two dashes no argument is an option.
-/

set_option autoImplicit false

namespace DesiredState

/-- Something to do on the state of a user. -/
inductive Command where
  | plan (manifest : String)
  | apply (manifest : String) (noWait : Bool) (timeout : Option Nat) (strict : Bool)
  | showObject (kind : String) (id : Nat)
  | events (kind : String) (id : Nat) (action : Option String) (json : Bool)
  deriving DecidableEq

def Command.manifest? : Command → Option String
  | .plan manifest | .apply manifest _ _ _ => some manifest
  | .showObject _ _ | .events _ _ _ _ => none

/-- What is asked for. -/
inductive Invocation where
  | version
  | help
  | command (command : Command) (state : String)
  deriving DecidableEq

namespace Invocation

/-- The options of a command: those with a value, and those without. -/
structure OptionNames where
  valued : List String
  flags : List String

/-- Arguments that were told apart. -/
structure Arguments where
  positions : List String
  values : List (String × String)
  flags : List String

namespace Arguments

def empty : Arguments := ⟨[], [], []⟩

def has (arguments : Arguments) (name : String) : Bool :=
  arguments.flags.contains name || (arguments.values.lookup name).isSome

def withPosition (arguments : Arguments) (value : String) : Arguments :=
  { arguments with positions := arguments.positions ++ [value] }

def withFlag? (arguments : Arguments) (name : String) : Option Arguments :=
  if arguments.has name then none
  else some { arguments with flags := arguments.flags ++ [name] }

def withValue? (arguments : Arguments) (name value : String) : Option Arguments :=
  if arguments.has name then none
  else some { arguments with values := arguments.values ++ [(name, value)] }

end Arguments

def looksLikeOption (argument : String) : Bool := argument.startsWith "-" && argument != "-"

def attached? (argument : String) : Option (String × String) :=
  match argument.splitOn "=" with
  | name :: value :: rest => some (name, "=".intercalate (value :: rest))
  | _ => none

def asksForHelp (argument : String) : Bool := argument == "--help" || argument.startsWith "-h"

/-- What the arguments behind a command come to: the arguments, or a request for help. -/
inductive Parsed where
  | arguments (arguments : Arguments)
  | help

def parse? (names : OptionNames) : List String → Arguments → Option Parsed
  | [], done => some (.arguments done)
  | "--" :: rest, done => some (.arguments (rest.foldl Arguments.withPosition done))
  | argument :: rest, done =>
      if !looksLikeOption argument then parse? names rest (done.withPosition argument)
      else if asksForHelp argument then some .help
      else if names.flags.contains argument then
        (done.withFlag? argument).bind (parse? names rest)
      else if names.valued.contains argument then
        match rest with
        | [] => none
        | value :: rest =>
            if looksLikeOption value then none
            else (done.withValue? argument value).bind (parse? names rest)
      else
        match attached? argument with
        | none => none
        | some (name, value) =>
            if names.valued.contains name then
              (done.withValue? name value).bind (parse? names rest)
            else none

def number? (text : String) : Option Nat :=
  let digits := match text.toList with
    | '+' :: digits => digits
    | digits => digits
  if digits.isEmpty || !digits.all Char.isDigit then none
  else
    let value := Nat.ofDigitChars 10 digits 0
    if value < Number.wordLimit then some value else none

def optionalNumber? : Option String → Option (Option Nat)
  | none => some none
  | some text => (number? text).map some

def path? (text : String) : Option String := if text.isEmpty then none else some text

def optionNames? : String → Option OptionNames
  | "plan" => some ⟨["--state"], []⟩
  | "apply" => some ⟨["--state", "--timeout"], ["--no-wait", "--strict"]⟩
  | "show" => some ⟨["--state"], []⟩
  | "events" => some ⟨["--state", "--action"], ["--json"]⟩
  | _ => none

def command? (name : String) (arguments : Arguments) : Option Command :=
  match name, arguments.positions with
  | "plan", [manifest] => (path? manifest).map .plan
  | "apply", [manifest] =>
      match path? manifest, optionalNumber? (arguments.values.lookup "--timeout") with
      | some manifest, some timeout =>
          some (.apply manifest (arguments.has "--no-wait") timeout (arguments.has "--strict"))
      | _, _ => none
  | "show", [kind, id] => (number? id).map (.showObject kind)
  | "events", [kind, id] =>
      (number? id).map fun id =>
        .events kind id (arguments.values.lookup "--action") (arguments.has "--json")
  | _, _ => none

def ofArguments? : List String → Option Invocation
  | [] => none
  | name :: rest =>
      if name == "--version" || name.startsWith "-V" then some .version
      else if asksForHelp name || name == "help" then some .help
      else
        match optionNames? name with
        | none => none
        | some names =>
            match parse? names rest .empty with
            | none => none
            | some .help => some .help
            | some (.arguments arguments) =>
                let state :=
                  (arguments.values.lookup "--state").getD StateDocument.defaultName
                (command? name arguments).map (.command · state)

end Invocation

end DesiredState
