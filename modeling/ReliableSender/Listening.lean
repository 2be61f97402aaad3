/-
  ReliableSender.Listening
  ────────────────────────
  **HEARING THE PEER, AND NOTICING ITS SILENCE.**

  The listener waits for datagrams.  A control packet shows that the peer
  is alive, which resets the silence clock, and an acknowledgment with free
  buffer space sets the flow window.  After every wait, whatever it gave,
  the clock is looked at: if packets are in flight and the peer has been
  silent for the whole interval, everything in flight counts as lost.
-/
import ReliableSender.Engine.Feedback
import ReliableSender.Packet.Decode

namespace ReliableSender

/-- What one wait for a datagram gave. -/
inductive Arrival where
  | datagram (octets : Bytes)
  /-- Nothing came within the time. -/
  | silence
  /-- The socket reported a fault. -/
  | fault (report : String)
  deriving DecidableEq, Repr

namespace Arrival

/-- The control packet that arrived, if one did. -/
def control? : Arrival → Option ControlPacket
  | datagram octets =>
    match Packet.decode octets with
    | .ok (.control p, _) => some p
    | .ok (.data _, _) | .error _ => none
  | silence | fault _ => none

end Arrival

/-- The flow window that a control packet sets: the peer's free buffer space, unless
there is none or the packet does not tell. -/
def ControlPacket.window? (p : ControlPacket) : Option Nat :=
  match p.body with
  | .ack a => if a.availableBuffer = 0 then none else some a.availableBuffer.toNat
  | _ => none

namespace Engine

variable {σ τ : Type} [Sink σ] [SilenceTimer τ]

/-- The peer has been heard. -/
def resetTimer (e : Engine σ τ) (now : Moment) : Engine σ τ :=
  { e with timer := SilenceTimer.reset now e.timer }

/-- Take over the window of a control packet, if it has one. -/
def adoptWindow (e : Engine σ τ) (p : ControlPacket) : Engine σ τ :=
  p.window?.elim e e.setFlowWindow

/-- Handle what a wait gave.  A fault of the sink concerns the answer to an
acknowledgment and ends nothing. -/
def attend (e : Engine σ τ) (now : Moment) (a : Arrival) : Except Fault Unit × Engine σ τ :=
  match a.control? with
  -- The window is adopted first, so the acknowledgment meets it already.
  | some p => ((e.resetTimer now).adoptWindow p).receive now p
  | none => (.ok (), e)

/-- Whether everything in flight has to be presumed lost. -/
def isOverdue (e : Engine σ SilenceClock) (now : Moment) : Bool :=
  e.unacknowledged != 0 && e.timer.expired now

/-- Look at the clock. -/
def watch (e : Engine σ SilenceClock) (now : Moment) : Engine σ SilenceClock :=
  if e.isOverdue now then e.expire.resetTimer now else e

end Engine

end ReliableSender
