import DesiredState.Disk
import DesiredState.Json.Reader
import DesiredState.Store.Memory

/-!
# A store on disk

A store in memory whose state is kept as a JSON document. Every accepted write, and every read
of an event, saves the whole document: it is written to a temporary file beside it, which then
takes its place, so that the document itself is never half written.
-/

set_option autoImplicit false

namespace DesiredState

namespace StateDocument

def defaultName : String := "default"

def rootText (home : String) : String := Path.joinText home ".converge"

def pathText (home name : String) : String :=
  Path.joinText (Path.joinText (rootText home) "state") (name ++ ".json")

def path (home : Path) (name : String) : Path :=
  Path.locate (home ++ [".converge", "state"]) (name ++ ".json")

/-- The name of the temporary file beside a document. A name that is nothing but an extension
counts as a name without one. A name that is a point and an extension has no temporary file: what
takes its place leads back up. -/
def temporaryName (name : String) : String :=
  if name == ".json" then ".json.json.tmp"
  else if name == "..json" then ".."
  else name ++ ".tmp"

def temporaryPath (document : Path) : Path :=
  document.dropLast ++ (document.getLast?.map temporaryName).toList

def text (state : StoreState) : String := state.toValue.pretty

def ofText? (text : String) : Option StoreState :=
  (Value.ofJsonAs? StoreState.shape text).bind StoreState.ofValue?

/-- Read the document of a state. Without a document the state is empty. -/
def load (disk : Disk) (home : Path) (name : String) : Except DocumentError StoreState :=
  let path := path home name
  if !disk.contains path then .ok .empty
  else
    match disk.read? path with
    | none => .error (.io (pathText "~" name))
    | some contents =>
        match ofText? contents with
        | some state => .ok state
        | none => .error (.malformed (pathText "~" name))

/-- Write the document of a state: make its directory, write a temporary file, and put that in
its place. If this last step fails the temporary file is removed again. -/
def save (disk : Disk) (home : Path) (name : String) (state : StoreState) :
    Except DocumentError Unit × Disk :=
  let path := path home name
  let temporary := temporaryPath path
  let failure : Except DocumentError Unit := .error (.io (pathText "~" name))
  match disk.makeDirectory path.parent with
  | (false, disk) => (failure, disk)
  | (true, disk) =>
      match disk.write temporary (text state) with
      | (false, disk) => (failure, disk)
      | (true, disk) =>
          match disk.rename temporary path with
          | (true, disk) => (.ok (), disk)
          | (false, disk) => (failure, (disk.remove temporary).2)

end StateDocument

/-- A handle on a stored state: what it holds in memory, and the disk with its document. -/
structure DocumentStore where
  home : Path
  name : String
  memory : MemoryStore
  disk : Disk

namespace DocumentStore

def openAt (disk : Disk) (home : Path) (name : String) (clock : Clock) :
    Except DocumentError DocumentStore :=
  match StateDocument.load disk home name with
  | .ok state => .ok ⟨home, name, .ofState state clock, disk⟩
  | .error error => .error error

def save (store : DocumentStore) : Except DocumentError Unit × DocumentStore :=
  match StateDocument.save store.disk store.home store.name store.memory.state with
  | (result, disk) => (result, { store with disk })

def look {α : Type} (call : MemoryStore → Except StoreError α × MemoryStore)
    (store : DocumentStore) : Except StoreError α × DocumentStore :=
  match call store.memory with
  | (answer, memory) => (answer, { store with memory })

/-- A call that saves the document when it was accepted. If that fails, so does the call. -/
def persist {α : Type} (call : MemoryStore → Except StoreError α × MemoryStore)
    (store : DocumentStore) : Except StoreError α × DocumentStore :=
  match store.look call with
  | (.error error, store) => (.error error, store)
  | (.ok value, store) =>
      match store.save with
      | (.ok (), store) => (.ok value, store)
      | (.error error, store) => (.error (.backend (.document error)), store)

def remote : RemoteStore DocumentStore where
  get reference := look (MemoryStore.get reference)
  list collection := look (MemoryStore.list collection)
  create collection payload := persist (MemoryStore.create collection payload)
  update reference fields := persist (MemoryStore.update reference fields)
  delete reference := persist (MemoryStore.delete reference)
  listEvents filter := look (MemoryStore.listEvents filter)
  getEvent id := persist (MemoryStore.getEvent id)

end DocumentStore

end DesiredState
