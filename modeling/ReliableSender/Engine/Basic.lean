/-
  ReliableSender.Engine.Basic
  ───────────────────────────
  **ALL STATE OF ONE SENDER, AND THE QUESTIONS ABOUT IT.**

  An engine sends data packets reliably to one peer.  It owns what is in
  flight, what was lost, the numbering, and the sink through which packets
  leave.  It is a plain value: the loop that transmits, the feedback that
  acknowledges and the application that stamps packets are functions on it.
-/
import ReliableSender.Config.Basic
import ReliableSender.LossList
import ReliableSender.SendBuffer
import ReliableSender.Sequence
import ReliableSender.Session
import ReliableSender.Statistics
import ReliableSender.Transport.Basic

namespace ReliableSender

/-! ## §1. State. -/

/-- A sender over a sink `σ` with a timer `τ`. -/
structure Engine (σ τ : Type) where
  config : Config
  sink : σ
  timer : τ
  session : Session
  statistics : Statistics := {}
  buffer : SendBuffer := {}
  losses : LossList := {}
  sequences : SequenceGenerator := {}
  messages : MessageCounter := {}
  /-- One more than the largest sequence number transmitted; 0 before the first. -/
  sentBound : Nat := 0
  stopped : Bool := false

/-- What one iteration of the loop did. -/
inductive Progress where
  /-- A buffered packet was sent again. -/
  | retransmitted (sequence : Nat)
  /-- A loss was dropped because its packet is no longer buffered. -/
  | skipped (sequence : Nat)
  /-- A loss was dropped because the sink refused its packet. -/
  | retransmitFailed (sequence : Nat)
  /-- A new packet was transmitted and buffered. -/
  | sent (sequence : Nat)
  /-- As many packets are in flight as the window allows. -/
  | windowFull
  /-- Nothing was transmitted. -/
  | idle
  /-- Nobody can offer packets any more. -/
  | closed
  deriving DecidableEq, Repr

namespace Engine

variable {σ τ : Type}

/-- A fresh engine, whose session starts as the configuration says. -/
def ofConfig (config : Config) (sink : σ) (timer : τ) : Engine σ τ where
  config
  sink
  timer
  session := { flowWindow := config.session.flowWindow, destination := config.session.destination }

/-! ## §2. Questions. -/

/-- How many packets are in flight. -/
def unacknowledged (e : Engine σ τ) : Nat := e.buffer.unacknowledged

/-- Everything below has been acknowledged. -/
def lastAck (e : Engine σ τ) : Nat := e.buffer.lastAck

/-- Whether a packet awaits its acknowledgment. -/
def isUnacknowledged (e : Engine σ τ) (s : Nat) : Bool := e.buffer.contains s

/-- Whether losses wait for retransmission. -/
def hasLosses (e : Engine σ τ) : Bool := !e.losses.isEmpty

/-- The largest sequence number transmitted so far. -/
def largestSent? (e : Engine σ τ) : Option Nat :=
  if e.sentBound = 0 then none else some (e.sentBound - 1)

/-- Whether a sequence number is at most the largest one transmitted. -/
def isSentOut (e : Engine σ τ) (s : Nat) : Bool := e.largestSent?.any (s ≤ ·)

/-- The sequence number issued last. -/
def currentSequence? (e : Engine σ τ) : Option Nat := e.sequences.current?

/-! ## §3. What changes from outside. -/

/-- Ask the loop to end. -/
def requestStop (e : Engine σ τ) : Engine σ τ := { e with stopped := true }

/-- Change the flow window. -/
def setFlowWindow (e : Engine σ τ) (window : Nat) : Engine σ τ :=
  { e with session := e.session.setFlowWindow window }

/-- Change the socket id that packets are addressed to. -/
def setDestination (e : Engine σ τ) (id : UInt32) : Engine σ τ :=
  { e with session := e.session.setDestination id }

/-- Change the sink. -/
def modifySink (e : Engine σ τ) (f : σ → σ) : Engine σ τ := { e with sink := f e.sink }

end Engine

end ReliableSender
