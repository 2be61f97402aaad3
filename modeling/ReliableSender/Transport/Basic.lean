/-
  ReliableSender.Transport.Basic
  ──────────────────────────────
  **WHERE PACKETS LEAVE.**

  A sink delivers one packet at once and as well as it can; reliability is
  the sender's job.  A sink is a state and a function on it, and a delivery
  has three ends: the packet is out, the sink refused it, or the sink never
  came back.
-/
import ReliableSender.Packet.Encode

namespace ReliableSender

/-- Why a sink refused a packet. -/
inductive TransportError where
  /-- The packet has no octets. -/
  | unencodable (cause : CodecError)
  /-- Nobody listens at the other end of the channel. -/
  | channelClosed
  /-- The peer refused it. -/
  | refused
  /-- The socket reported a fault. -/
  | socket (report : String)
  deriving DecidableEq, Repr

namespace TransportError

/-- The wording of a refusal. -/
def message : TransportError → String
  | unencodable cause => cause.message
  | channelClosed => "packet channel closed"
  | refused => "refused"
  | socket report => report

end TransportError

/-- The end of one delivery. -/
inductive Delivery where
  /-- The packet is out, as this many octets. -/
  | delivered (octets : Nat)
  | failed (cause : TransportError)
  /-- The sink crashed. -/
  | crashed
  deriving DecidableEq, Repr

/-- Something that packets can be handed to. -/
class Sink (σ : Type) where
  send : Packet → σ → Delivery × σ

/-- Why an action that needed the sink came to nothing. -/
inductive Fault where
  | transport (cause : TransportError)
  | crash
  deriving DecidableEq, Repr

/-- Hand a packet to the sink. -/
def Sink.attempt {σ : Type} [Sink σ] (p : Packet) (sink : σ) : Except Fault Unit × σ :=
  match Sink.send p sink with
  | (.delivered _, sink) => (.ok (), sink)
  | (.failed cause, sink) => (.error (.transport cause), sink)
  | (.crashed, sink) => (.error .crash, sink)

end ReliableSender
