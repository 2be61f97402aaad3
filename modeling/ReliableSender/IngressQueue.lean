/-
  ReliableSender.IngressQueue
  ───────────────────────────
  **THE BOUNDED QUEUE BETWEEN THE APPLICATION AND THE SENDER LOOP.**

  A full queue pushes back on who offers; nothing is ever overwritten.  A
  packet counts as pending from the moment it is offered until the loop has
  finished with it, so between the queue and the send buffer there is no
  moment at which it is counted nowhere.  The count is a 64-bit word and
  wraps.

  An offer is three small actions (`announce`, then `push` or `retract`),
  because a count taken in between sees the announcement.
-/
import ReliableSender.Packet.Basic

namespace ReliableSender

/-- What became of an offer. -/
inductive Offer where
  | accepted
  /-- The queue stayed full. -/
  | full
  /-- Nobody takes packets out any more. -/
  | closed
  deriving DecidableEq, Repr

/-- What taking from the queue gave. -/
inductive Poll where
  | packet (p : DataPacket)
  /-- Nothing came within the time. -/
  | nothing
  /-- Nobody can offer any more, and the queue is drained. -/
  | closed
  deriving DecidableEq, Repr

/-- A bounded first-in first-out queue with a count of unfinished packets. -/
structure IngressQueue where
  capacity : Nat
  waiting : List DataPacket := []
  /-- Packets offered and not finished with, modulo 2⁶⁴. -/
  pending : UInt64 := 0
  /-- How many hold the offering side. -/
  producers : Nat := 1
  /-- Whether the taking side is held. -/
  consumed : Bool := true
  deriving DecidableEq, Repr

namespace IngressQueue

/-! ## §1. Offering. -/

/-- What an offer meets at this moment. -/
def admission (q : IngressQueue) : Offer :=
  if !q.consumed then .closed
  else if q.capacity ≤ q.waiting.length then .full
  else .accepted

/-- Count a packet that is about to be offered. -/
def announce (q : IngressQueue) : IngressQueue := { q with pending := q.pending + 1 }

/-- Take back the count of a packet that was not accepted. -/
def retract (q : IngressQueue) : IngressQueue := { q with pending := q.pending - 1 }

/-- Put a packet at the end. -/
def push (q : IngressQueue) (p : DataPacket) : IngressQueue :=
  { q with waiting := q.waiting ++ [p] }

/-- What a verdict does with a packet that was announced. -/
def conclude (q : IngressQueue) (p : DataPacket) : Offer → IngressQueue
  | .accepted => q.push p
  | .full | .closed => q.retract

/-- Offer a packet without waiting for room. -/
def offer (q : IngressQueue) (p : DataPacket) : Offer × IngressQueue :=
  (q.admission, q.announce.conclude p q.admission)

/-- One more holder of the offering side. -/
def addProducer (q : IngressQueue) : IngressQueue := { q with producers := q.producers + 1 }

/-- One holder of the offering side fewer. -/
def dropProducer (q : IngressQueue) : IngressQueue := { q with producers := q.producers - 1 }

/-! ## §2. Taking. -/

/-- Take the packet that waits longest. -/
def poll (q : IngressQueue) : Poll × IngressQueue :=
  match q.waiting with
  | p :: rest => (.packet p, { q with waiting := rest })
  | [] => (if q.producers = 0 then .closed else .nothing, q)

/-- The packet taken last has been dealt with. -/
def handled (q : IngressQueue) : IngressQueue := { q with pending := q.pending - 1 }

/-- Give up the taking side; what waits is discarded, and stays pending. -/
def dropConsumer (q : IngressQueue) : IngressQueue :=
  { q with waiting := [], consumed := false }

/-- How many packets wait. -/
def queued (q : IngressQueue) : Nat := q.waiting.length

end IngressQueue

end ReliableSender
