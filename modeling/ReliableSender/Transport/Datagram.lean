/-
  ReliableSender.Transport.Datagram
  ─────────────────────────────────
  **A SINK THAT SENDS ONE DATAGRAM PER PACKET.**

  The datagrams leave through an outbox, which whoever holds the socket
  empties.  What the socket will say of a datagram is part of the sink's
  state, so an action that met a fault can be taken again with the fault
  known beforehand.
-/
import ReliableSender.Transport.Basic

namespace ReliableSender

/-- A connected datagram socket, as the sender sees it. -/
structure DatagramSink where
  /-- Datagrams that have not been handed to the socket, the newest first. -/
  outbox : List Bytes := []
  /-- The fault that the socket reports of the next datagram. -/
  fault : Option String := none
  octetsSent : UInt64 := 0
  packetsSent : UInt64 := 0
  deriving DecidableEq, Repr

namespace DatagramSink

/-- Send a packet as one datagram. -/
def send (p : Packet) (d : DatagramSink) : Delivery × DatagramSink :=
  match p.encode, d.fault with
  | .error e, _ => (.failed (.unencodable e), d)
  | .ok _, some report => (.failed (.socket report), d)
  | .ok octets, none =>
    (.delivered octets.length,
     { d with
       outbox := octets :: d.outbox
       octetsSent := d.octetsSent + UInt64.ofNat octets.length
       packetsSent := d.packetsSent + 1 })

instance : Sink DatagramSink := ⟨send⟩

/-- Take out the datagrams for the socket, oldest first. -/
def drain (d : DatagramSink) : List Bytes × DatagramSink :=
  (d.outbox.reverse, { d with outbox := [] })

end DatagramSink

end ReliableSender
