/-
  ReliableSender.Config.Basic
  ───────────────────────────
  **THE CONFIGURATION OF A SENDER.**

  A configuration is given in part: what is left out takes its default, and
  the whole is then checked.  Of several faults the first in the order queue
  capacity, poll timeout, payload size, flow window is reported.
-/
import ReliableSender.Files
import ReliableSender.Packet.Basic
import ReliableSender.Text.Blank

namespace ReliableSender

/-! ## §1. Configurations. -/

/-- The session parameters a sender starts with. -/
structure SessionConfig where
  flowWindow : Nat := 1024
  destination : UInt32 := 0
  deriving DecidableEq, Repr

/-- A complete configuration; the defaults are the fields' own. -/
structure Config where
  /-- Bound of the ingress queue, in packets. -/
  queueCapacity : Nat := 1024
  /-- How long one iteration waits on the ingress queue, in milliseconds. -/
  pollTimeout : Nat := 10
  /-- Most payload octets of one fragment: a 1500-octet frame less its headers. -/
  maxPayload : Nat := 1456
  threadName : String := "udt-sender"
  session : SessionConfig := {}
  deriving DecidableEq, Repr

/-- Session parameters, each of which may be left out. -/
structure SessionInput where
  flowWindow : Option Nat := none
  destination : Option UInt32 := none
  deriving DecidableEq, Repr

/-- A configuration, any part of which may be left out. -/
structure ConfigInput where
  queueCapacity : Option Nat := none
  pollTimeout : Option Nat := none
  maxPayload : Option Nat := none
  threadName : Option String := none
  session : SessionInput := {}
  deriving DecidableEq, Repr

/-! ## §2. Faults. -/

/-- Why a text is no configuration. -/
inductive DocumentFault where
  /-- The text is no TOML document. -/
  | grammar
  /-- A number has no value. -/
  | unreadable
  /-- A known key has a value of the wrong type or size. -/
  | mistyped
  deriving DecidableEq, Repr

/-- The wording of a fault of a document. -/
def DocumentFault.message : DocumentFault → String
  | grammar => "not a TOML document"
  | unreadable => "a number cannot be read"
  | mistyped => "a value has the wrong type"

/-- Why there is no configuration. -/
inductive ConfigError where
  | document (fault : DocumentFault)
  | file (fault : FileFault)
  | zeroQueueCapacity
  | zeroPollTimeout
  | zeroFlowWindow
  | payloadSize (size : Nat)
  deriving DecidableEq, Repr

namespace ConfigError

/-- The wording of a fault. -/
def message : ConfigError → String
  | document fault => s!"failed to parse config: {fault.message}"
  | file fault => s!"failed to read config file: {fault.message}"
  | zeroQueueCapacity => "queue_capacity must be at least 1"
  | zeroPollTimeout => "poll_timeout_ms must be non-zero"
  | zeroFlowWindow => "session.flow_window must be at least 1"
  | payloadSize size => s!"max_payload_size {size} is outside 1..={maxPayloadLength}"

/-- The wording of what lies behind a fault, if something does. -/
def cause? : ConfigError → Option String
  | document fault => some fault.message
  | file fault => some fault.message
  | _ => none

end ConfigError

/-! ## §3. Completing and checking. -/

namespace ConfigInput

/-- The thread name without surrounding white space; a blank one is left out. -/
def givenThreadName (input : ConfigInput) : Option String :=
  (input.threadName.map Text.trim).filter (· ≠ "")

/-- The given parts, and defaults for the rest. -/
def complete (input : ConfigInput) : Config :=
  let defaults : Config := {}
  { queueCapacity := input.queueCapacity.getD defaults.queueCapacity
    pollTimeout := input.pollTimeout.getD defaults.pollTimeout
    maxPayload := input.maxPayload.getD defaults.maxPayload
    threadName := input.givenThreadName.getD defaults.threadName
    session :=
      { flowWindow := input.session.flowWindow.getD defaults.session.flowWindow
        destination := input.session.destination.getD defaults.session.destination } }

/-- The first fault of a complete configuration. -/
def fault? (c : Config) : Option ConfigError :=
  if c.queueCapacity = 0 then some .zeroQueueCapacity
  else if c.pollTimeout = 0 then some .zeroPollTimeout
  else if c.maxPayload = 0 ∨ maxPayloadLength < c.maxPayload then
    some (.payloadSize c.maxPayload)
  else if c.session.flowWindow = 0 then some .zeroFlowWindow
  else none

/-- The configuration that the given parts make. -/
def resolve (input : ConfigInput) : Except ConfigError Config :=
  match fault? input.complete with
  | some fault => .error fault
  | none => .ok input.complete

end ConfigInput

end ReliableSender
