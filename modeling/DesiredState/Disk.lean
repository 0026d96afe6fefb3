/-!
# A disk

A tree of directories and text files, with the few steps that keeping documents needs. Every
step that writes can go wrong: it may be refused, and the write of a file may stop after any
part of the text. What goes wrong is laid down in advance, step by step.

There are no links: a name stands for what is in the directory, and for nothing elsewhere. Nor are
there permissions, which the refusals stand in for, or files that hold anything but text.
-/

set_option autoImplicit false

namespace DesiredState

/-- A place on a disk: the names on the way from the root. A name `..` leads back up; `.` and
the empty name stay where they are. -/
abbrev Path := List String

namespace Path

def names (text : String) : List String := (text.toList.splitOn '/').map String.ofList

/-- The place that a text means, seen from a directory: one that begins with a slash is seen
from the root. -/
def locate (base : Path) (text : String) : Path :=
  if text.toList.head? = some '/' then names text else base ++ names text

def joinText (base part : String) : String :=
  if part.startsWith "/" || base == "" then part
  else if base.endsWith "/" then base ++ part
  else base ++ "/" ++ part

def stays (name : String) : Bool := name == "" || name == "."

def parent (path : Path) : Path := (path.reverse.dropWhile stays).tail.reverse

/-- Whether a path can be followed at all: its text is shorter than 4096 bytes and has no null
character. -/
def isUsable (path : Path) : Bool :=
  (path.foldl (fun size name => size + name.utf8ByteSize + 1) 0) ≤ 4096 &&
    path.all fun name => !name.toList.contains '\x00'

end Path

/-- What is at a place: a text, or a directory of further nodes with different names. It is never a link
to another place. -/
inductive Node where
  | file (text : String)
  | directory (entries : List (String × Node))

namespace Node

def isDirectory : Node → Bool
  | .directory _ => true
  | .file _ => false

def find? : Path → Node → Option Node
  | [], node => some node
  | _ :: _, .file _ => none
  | name :: rest, .directory entries =>
      match entries.lookup name with
      | some child => find? rest child
      | none => none

/-- Put something at a place below a node. Directories that are missing on the way are made. -/
def put (new : Node) : Path → Node → Node
  | [], _ => new
  | _ :: _, .file text => .file text
  | name :: rest, .directory entries =>
      let child := (entries.lookup name).getD (.directory [])
      .directory ((name, put new rest child) :: entries.filter (·.1 != name))

def drop : Path → Node → Node
  | [], node => node
  | _ :: _, .file text => .file text
  | [name], .directory entries => .directory (entries.filter (·.1 != name))
  | name :: rest, .directory entries =>
      match entries.lookup name with
      | some child => .directory ((name, drop rest child) :: entries.filter (·.1 != name))
      | none => .directory entries

end Node

/-- What becomes of a step that writes. -/
inductive Mishap where
  | none
  | refused
  /-- A write stops after this many characters and fails; any other step is refused. -/
  | torn (kept : Nat)
  deriving DecidableEq

/-- The contents of a disk, the mishaps of its steps, and the number of steps so far. As no node is a
link, each place is reached by one path alone, but for the names that stay or lead back up. -/
structure Disk where
  root : Node
  mishap : Nat → Mishap
  steps : Nat

namespace Disk

def empty : Disk := ⟨.directory [], fun _ => .none, 0⟩

/-! ## Looking -/

def nodeAt? (disk : Disk) (place : Path) : Option Node := disk.root.find? place

def isDirectory (disk : Disk) (place : Path) : Bool := (disk.nodeAt? place).any Node.isDirectory

def isName (name : String) : Bool := name.utf8ByteSize ≤ 255

def walk? (disk : Disk) (place : Path) : Path → Option Path
  | [] => some place
  | name :: rest =>
      if !disk.isDirectory place then none
      else if Path.stays name then disk.walk? place rest
      else if name == ".." then disk.walk? place.dropLast rest
      else if isName name then disk.walk? (place ++ [name]) rest
      else none

def resolve? (disk : Disk) (path : Path) : Option Path :=
  if path.isUsable then disk.walk? [] path else none

def find? (disk : Disk) (path : Path) : Option Node :=
  (disk.resolve? path).bind disk.nodeAt?

def contains (disk : Disk) (path : Path) : Bool := (disk.find? path).isSome

def read? (disk : Disk) (path : Path) : Option String :=
  match disk.find? path with
  | some (.file text) => some text
  | _ => none

/-! ## Writing

Every step answers whether it succeeded. -/

def put (disk : Disk) (place : Path) (node : Node) : Disk :=
  { disk with root := Node.put node place disk.root }

def drop (disk : Disk) (place : Path) : Disk := { disk with root := disk.root.drop place }

def nextStep (disk : Disk) : Mishap × Disk :=
  (disk.mishap disk.steps, { disk with steps := disk.steps + 1 })

/-- Follow a path, making the directories that are missing, up to the first name in the way. -/
def makeAlong (disk : Disk) (place : Path) : Path → Bool × Disk
  | [] => (true, disk)
  | name :: rest =>
      if Path.stays name then disk.makeAlong place rest
      else if name == ".." then disk.makeAlong place.dropLast rest
      else if !isName name then (false, disk)
      else
        match disk.nodeAt? (place ++ [name]) with
        | some (.directory _) => disk.makeAlong (place ++ [name]) rest
        | some (.file _) => (false, disk)
        | none => (disk.put (place ++ [name]) (.directory [])).makeAlong (place ++ [name]) rest

def makeDirectory (disk : Disk) (path : Path) : Bool × Disk :=
  match disk.nextStep with
  | (.none, disk) => if path.isUsable then disk.makeAlong [] path else (false, disk)
  | (_, disk) => (false, disk)

def filePlace? (disk : Disk) (path : Path) : Option Path :=
  match disk.resolve? path with
  | none => none
  | some place => if disk.isDirectory place then none else some place

def write (disk : Disk) (path : Path) (text : String) : Bool × Disk :=
  match disk.nextStep with
  | (mishap, disk) =>
      match disk.filePlace? path, mishap with
      | some place, .none => (true, disk.put place (.file text))
      | some place, .torn kept =>
          (false, disk.put place (.file (String.ofList (text.toList.take kept))))
      | _, _ => (false, disk)

def rename (disk : Disk) (source target : Path) : Bool × Disk :=
  match disk.nextStep with
  | (.none, disk) =>
      match disk.resolve? source, disk.read? source, disk.filePlace? target with
      | some old, some text, some new => (true, (disk.drop old).put new (.file text))
      | _, _, _ => (false, disk)
  | (_, disk) => (false, disk)

def remove (disk : Disk) (path : Path) : Bool × Disk :=
  match disk.nextStep with
  | (.none, disk) =>
      match disk.resolve? path, disk.read? path with
      | some place, some _ => (true, disk.drop place)
      | _, _ => (false, disk)
  | (_, disk) => (false, disk)

end Disk

end DesiredState
