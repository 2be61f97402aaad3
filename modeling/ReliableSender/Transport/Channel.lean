/-
  ReliableSender.Transport.Channel
  ────────────────────────────────
  **SINKS IN MEMORY.**

  `ChannelSink` hands packets to a peer in the same process, after checking
  that they have octets.  `FaultySink` is a channel behind three switches,
  for rehearsing what a transport can do to the sender.
-/
import ReliableSender.Transport.Basic

namespace ReliableSender

/-! ## §1. A channel. -/

/-- An unbounded channel of packets. -/
structure ChannelSink where
  /-- Packets nobody has taken out yet, the newest first. -/
  outbox : List Packet := []
  /-- Whether somebody holds the receiving end. -/
  isOpen : Bool := true
  deriving DecidableEq, Repr

namespace ChannelSink

/-- The packets that wait at the receiving end, oldest first. -/
def delivered (c : ChannelSink) : List Packet := c.outbox.reverse

/-- Take out every packet that waits. -/
def drain (c : ChannelSink) : List Packet × ChannelSink :=
  (c.delivered, { c with outbox := [] })

/-- Give up the receiving end. -/
def close (_ : ChannelSink) : ChannelSink := { outbox := [], isOpen := false }

/-- Put a packet into the channel. -/
def send (p : Packet) (c : ChannelSink) : Delivery × ChannelSink :=
  match p.encode with
  | .error e => (.failed (.unencodable e), c)
  | .ok octets =>
    if c.isOpen then (.delivered octets.length, { c with outbox := p :: c.outbox })
    else (.failed .channelClosed, c)

instance : Sink ChannelSink := ⟨send⟩

end ChannelSink

/-! ## §2. A channel behind switches. -/

/-- A channel that can be told to refuse or to crash. -/
structure FaultySink where
  channel : ChannelSink := {}
  refuseData : Bool := false
  refuseControl : Bool := false
  crashOnData : Bool := false
  deriving DecidableEq, Repr

namespace FaultySink

/-- Put a packet into the channel unless a switch is against it. -/
def send (p : Packet) (f : FaultySink) : Delivery × FaultySink :=
  if p.isData && f.crashOnData then (.crashed, f)
  else if (if p.isData then f.refuseData else f.refuseControl) then (.failed .refused, f)
  else
    let (delivery, channel) := f.channel.send p
    (delivery, { f with channel })

instance : Sink FaultySink := ⟨send⟩

end FaultySink

end ReliableSender
