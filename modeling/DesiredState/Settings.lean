import DesiredState.Codec.Record

/-!
# Settings

What a user can set for all passes: how long and how often to wait, and how strictly to match.
Every setting has a default.
-/

set_option autoImplicit false

namespace DesiredState

/-- The settings of a user. -/
structure Settings where
  timeoutSecs : Nat
  /-- The time between two looks at the event log, in milliseconds. -/
  eventPollIntervalMs : Nat
  /-- The time between two looks at one event, in milliseconds. -/
  terminalPollIntervalMs : Nat
  /-- Whether an identity that means several objects is an error. -/
  strictIdentity : Bool
  /-- Whether to wait for the end of the remote operation. -/
  wait : Bool
  deriving DecidableEq

namespace Settings

def standard : Settings := ⟨600, 1000, 500, false, true⟩

def timeoutMillis (settings : Settings) : Nat := settings.timeoutSecs * 1000

def toValue (settings : Settings) : Value :=
  .object [("timeout_secs", .ofNat settings.timeoutSecs),
    ("event_poll_interval_ms", .ofNat settings.eventPollIntervalMs),
    ("terminal_poll_interval_ms", .ofNat settings.terminalPollIntervalMs),
    ("strict_identity", .bool settings.strictIdentity), ("wait", .bool settings.wait)]

def ofValue? (value : Value) : Option Settings := do
  let fields ← value.components? ["timeout_secs", "event_poll_interval_ms",
    "terminal_poll_interval_ms", "strict_identity", "wait"]
  let timeoutSecs ← Value.defaulted? fields "timeout_secs" standard.timeoutSecs Value.nat?
  let eventPollIntervalMs ←
    Value.defaulted? fields "event_poll_interval_ms" standard.eventPollIntervalMs Value.nat?
  let terminalPollIntervalMs ←
    Value.defaulted? fields "terminal_poll_interval_ms" standard.terminalPollIntervalMs
      Value.nat?
  let strictIdentity ←
    Value.defaulted? fields "strict_identity" standard.strictIdentity Value.bool?
  let wait ← Value.defaulted? fields "wait" standard.wait Value.bool?
  return ⟨timeoutSecs, eventPollIntervalMs, terminalPollIntervalMs, strictIdentity, wait⟩

end Settings

end DesiredState
