import DesiredState.Codec.Error
import DesiredState.Manifest
import DesiredState.Settings.Document

/-!
# Descriptions of manifests and requests

What is asked for, as values for other programs.
-/

set_option autoImplicit false

namespace DesiredState

namespace SettingsError

def name : SettingsError → String
  | .io => "Io"
  | .malformed => "Parse"

def toValue (error : SettingsError) : Value := .object [("error", .string error.name)]

end SettingsError

namespace ManifestError

def toValue (error : ManifestError) : Value :=
  .object [("error", .string "Manifest"), ("message", .string error.message)]

end ManifestError

def Value.ofEntries (entries : List Attributes) : Value := .list (entries.map .ofAttributes)

namespace Manifest

def describe (manifest : Manifest) : Value :=
  let collections := manifest.collections.entries.map fun (kind, entries) =>
    (kind, Value.ofEntries entries)
  .object [("kind", .string manifest.kind), ("id", .ofOption .ofNat manifest.id),
    ("attributes", .ofAttributes manifest.attributes), ("collections", .object collections),
    ("wait", .ofOption .bool manifest.wait),
    ("timeout_secs", .ofOption .ofNat manifest.timeoutSecs),
    ("strict_identity", .ofOption .bool manifest.strictIdentity),
    ("await_action", .ofOption .string manifest.awaitAction)]

end Manifest

namespace PassRequest

def describeTarget : Target → Value
  | .existing reference => .object [("existing", reference.toValue)]
  | .new parent => .object [("new", .ofOption ResourceRef.toValue parent)]

def describeCollection (desired : DesiredCollection) : Value :=
  .object [("kind", .string desired.schema.kind), ("entries", .ofEntries desired.entries)]

def describe (request : PassRequest) : Value :=
  .object [("kind", .string request.schema.kind), ("target", describeTarget request.target),
    ("desired", .ofAttributes request.desired),
    ("collections", .list (request.collections.map describeCollection)),
    ("wait", .bool (request.wait == .block)),
    ("timeout_ms", .string (Nat.repr request.timeout)), ("strict", .bool request.strict),
    ("await_action", .ofOption .string request.awaitAction)]

end PassRequest

end DesiredState
