/-
  ReliableSender.Session
  ──────────────────────
  **WHAT THE SENDER BORROWS FROM ITS CONNECTION.**

  The peer's flow window and socket id, and a timer that is reset whenever
  the peer is heard.  Time is an argument, counted in microseconds from the
  start of the sender; nothing here reads a clock.
-/
namespace ReliableSender

/-! ## §1. Time. -/

/-- Microseconds since the sender started. -/
abbrev Moment := Nat

namespace Moment

/-- The 32-bit timestamp of a packet sent at this moment. -/
def timestamp (now : Moment) : UInt32 := UInt32.ofNat now

/-- Whole milliseconds since the sender started. -/
def milliseconds (now : Moment) : Nat := now / 1000

end Moment

/-! ## §2. The session. -/

/-- Connection parameters; both may change while the sender runs.  A session
that knows only its window addresses socket id 0. -/
structure Session where
  /-- Most packets allowed in flight. -/
  flowWindow : Nat
  /-- The peer's socket id, stamped on every packet. -/
  destination : UInt32 := 0
  deriving DecidableEq, Repr

namespace Session

def setFlowWindow (s : Session) (window : Nat) : Session := { s with flowWindow := window }

def setDestination (s : Session) (id : UInt32) : Session := { s with destination := id }

end Session

/-! ## §3. Timers. -/

/-- A timer of the peer's silence. -/
class SilenceTimer (τ : Type) where
  /-- The peer has been heard. -/
  reset : Moment → τ → τ

/-- A timer that ignores resets. -/
structure NoTimer where
  deriving DecidableEq, Repr

instance : SilenceTimer NoTimer := ⟨fun _ t => t⟩

/-- A timer that counts its resets. -/
structure ResetCount where
  resets : Nat := 0
  deriving DecidableEq, Repr

instance : SilenceTimer ResetCount := ⟨fun _ t => ⟨t.resets + 1⟩⟩

/-- A timer that runs out after a time of silence, in milliseconds. -/
structure SilenceClock where
  interval : Nat
  lastReset : Nat := 0
  deriving DecidableEq, Repr

instance : SilenceTimer SilenceClock := ⟨fun now t => { t with lastReset := now.milliseconds }⟩

/-- Whether the interval has passed since the last reset. -/
def SilenceClock.expired (t : SilenceClock) (now : Moment) : Bool :=
  t.interval ≤ now.milliseconds - t.lastReset

end ReliableSender
