/-
  ReliableSender.Config.Document
  ──────────────────────────────
  **CONFIGURATIONS WRITTEN AS TOML.**

  Known keys have a type each; unknown keys are passed over, but their values
  have to be readable.  The session may be given as a table, or as an array
  whose items stand for its fields in order, and of which further items are
  not even looked at; a date in its place is taken for a table without any
  known key.
  A text of white space alone is the default configuration.
-/
import ReliableSender.Config.Basic
import ReliableSender.Toml.Document

namespace ReliableSender

/-! ## §1. Values of known keys. -/

/-- A whole number below a limit. -/
def unsigned? (limit : Nat) : Toml.Value → Option Nat
  | .integer n => if 0 ≤ n ∧ n.toNat < limit then some n.toNat else none
  | _ => none

/-- A 64-bit count. -/
def count? : Toml.Value → Option Nat := unsigned? (Nat.pow 2 64)

/-- A 32-bit id. -/
def id? (v : Toml.Value) : Option UInt32 := (unsigned? (Nat.pow 2 32) v).map UInt32.ofNat

/-- A text. -/
def text? : Toml.Value → Option String
  | .string s => some s
  | _ => none

/-- Read a value that may be missing; a value of another type is a fault. -/
def optional {α : Type} (read : Toml.Value → Option α) :
    Option Toml.Value → Option (Option α)
  | none => some none
  | some v => (read v).map some

/-! ## §2. Tables. -/

namespace SessionInput

/-- The session parameters that the values of the two fields give. -/
def ofFields (window destination : Option Toml.Value) : Option SessionInput := do
  let flowWindow ← optional count? window
  let destination ← optional id? destination
  some { flowWindow, destination }

/-- The session parameters that a value gives. -/
def ofValue? : Toml.Value → Option SessionInput
  | .table _ entries =>
    ofFields (Toml.Entries.get? entries "flow_window")
      (Toml.Entries.get? entries "destination_id")
  | .array _ items => ofFields items[0]? items[1]?
  | .dateTime .. => some {}
  | _ => none

/-- Whether everything that is looked at can be read.  In an array that is what
stands for a field. -/
def isReadable : Toml.Value → Bool
  | .array _ items => Toml.Value.areReadable (items.take 2)
  | v => v.isReadable

end SessionInput

namespace ConfigInput

/-- The configuration that a document gives. -/
def ofEntries? (entries : Toml.Entries) : Option ConfigInput := do
  let get := Toml.Entries.get? entries
  let queueCapacity ← optional count? (get "queue_capacity")
  let pollTimeout ← optional count? (get "poll_timeout_ms")
  let maxPayload ← optional count? (get "max_payload_size")
  let threadName ← optional text? (get "thread_name")
  let session ← optional SessionInput.ofValue? (get "session")
  some { queueCapacity, pollTimeout, maxPayload, threadName, session := session.getD {} }

/-- Whether every value that is looked at can be read.  Values under unknown keys
are looked at, too. -/
def isReadable (entries : Toml.Entries) : Bool :=
  entries.all fun (key, v) =>
    if key = "session" then SessionInput.isReadable v else v.isReadable

/-- The configuration that a text gives, read as a document. -/
def ofText (text : String) : Except ConfigError ConfigInput :=
  match Toml.parse text with
  | none => .error (.document .grammar)
  | some entries =>
    if !isReadable entries then .error (.document .unreadable)
    else
      match ofEntries? entries with
      | none => .error (.document .mistyped)
      | some input => .ok input

end ConfigInput

/-! ## §3. Texts and files. -/

namespace Config

/-- The configuration that a text gives. -/
def ofText (text : String) : Except ConfigError Config :=
  if Text.allBlank text then .ok {}
  else
    match ConfigInput.ofText text with
    | .error fault => .error fault
    | .ok input => input.resolve

/-- The configuration in a file, given its content or why it has none. -/
def ofFile : Except FileFault Bytes → Except ConfigError Config
  | .error fault => .error (.file fault)
  | .ok content =>
    match String.fromUTF8? ⟨content.toArray⟩ with
    | none => .error (.file .notText)
    | some text => ofText text

end Config

end ReliableSender
