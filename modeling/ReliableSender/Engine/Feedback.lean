/-
  ReliableSender.Engine.Feedback
  ──────────────────────────────
  **WHAT THE PEER'S FEEDBACK DOES TO A SENDER.**

      acknowledge          — everything below a number has arrived
      negativeAcknowledge  — these numbers are lost
      expire               — the peer has been silent for too long

  Feedback touches the send buffer and the loss list and never sends data;
  the one packet it sends is the answer to an acknowledgment.  Numbers come
  unchecked from the network, so every number is legal.
-/
import ReliableSender.Engine.Basic
import ReliableSender.Packet.LossReport

namespace ReliableSender

namespace Engine

variable {σ τ : Type} [Sink σ] [SilenceTimer τ]

/-! ## §1. Control packets going out. -/

/-- A control packet to the peer. -/
def control (e : Engine σ τ) (now : Moment) (body : ControlBody) : Packet :=
  .control { timestamp := now.timestamp, destination := e.session.destination, body }

/-- Send a control packet. -/
def sendControl (e : Engine σ τ) (now : Moment) (body : ControlBody) :
    Except Fault Unit × Engine σ τ :=
  let (result, sink) := Sink.attempt (e.control now body) e.sink
  (result, { e with sink })

/-- Tell the peer that the connection is alive. -/
def sendKeepAlive (e : Engine σ τ) (now : Moment) : Except Fault Unit × Engine σ τ :=
  match e.sendControl now .keepAlive with
  | (.ok _, e) => (.ok (), { e with statistics := e.statistics.countKeepAlive })
  | failed => failed

/-! ## §2. Feedback. -/

/-- Drop what an acknowledgment of everything below `k` covers. -/
def dropAcknowledged (e : Engine σ τ) (k : Nat) : Engine σ τ :=
  { e with
    statistics := e.statistics.countAck
    buffer := (e.buffer.removeUpTo k).2 }

/-- Everything below `k` has arrived: drop it and answer.  A stale or repeated
acknowledgment drops nothing and is answered all the same. -/
def acknowledge (e : Engine σ τ) (now : Moment) (k : Nat) : Except Fault Unit × Engine σ τ :=
  match (e.dropAcknowledged k).sendControl now (.ack2 k) with
  | (.ok _, e) => (.ok (), { e with statistics := e.statistics.countAck2 })
  | failed => failed

/-- These numbers are lost; the loop will send them again.  The answer is how many
of them were not known to be lost. -/
def negativeAcknowledge (e : Engine σ τ) (now : Moment) (lost : List Nat) :
    Nat × Engine σ τ :=
  let (added, losses) := e.losses.insertAll lost
  (added, { e with
    losses
    timer := SilenceTimer.reset now e.timer
    statistics := e.statistics.countNak })

/-- The peer has been silent for too long: everything in flight counts as lost. -/
def expire (e : Engine σ τ) : Engine σ τ :=
  { e with
    losses := (e.losses.insertAll e.buffer.keys).2
    statistics := e.statistics.countExpiration }

/-- Handle a control packet.  Only acknowledgments and loss reports mean anything
to a sender. -/
def receive (e : Engine σ τ) (now : Moment) (p : ControlPacket) :
    Except Fault Unit × Engine σ τ :=
  match p.body with
  | .ack a => e.acknowledge now a.number
  | .nak report => (.ok (), (e.negativeAcknowledge now report.sequences).2)
  | .keepAlive | .shutdown | .ack2 _ => (.ok (), e)

end Engine

end ReliableSender
