/-
  ReliableSender.Packet.Decode
  ────────────────────────────
  **READING A PACKET FROM A DATAGRAM.**

  `Packet.decode b` returns the packet and the octets it left unread.  The
  highest bit of the first word tells data from control.  A data packet
  takes everything behind its header as payload.  A control packet reads
  what its kind defines and no more; an acknowledgment with less than four
  words of body is a light one, which carries its number only.
-/
import ReliableSender.Packet.Encode

namespace ReliableSender

/-! ## §1. The header. -/

/-- The four words every packet starts with. -/
structure Header where
  leading : UInt32
  additional : UInt32
  timestamp : UInt32
  destination : UInt32
  deriving DecidableEq, Repr

namespace Header

/-- Read the header off a datagram. -/
def read (b : Bytes) : Except CodecError (Header × Bytes) :=
  let words? := do
    let (leading, b) ← Bytes.word? b
    let (additional, b) ← Bytes.word? b
    let (timestamp, b) ← Bytes.word? b
    let (destination, b) ← Bytes.word? b
    some (Header.mk leading additional timestamp destination, b)
  match words? with
  | some read => .ok read
  | none => .error (.truncated headerSize b.length)

/-- Whether the header starts a control packet. -/
def isControl (h : Header) : Bool := ControlPacket.controlFlag ≤ h.leading.toNat

/-- The 15 bits that name the kind of a control packet. -/
def kindCode (h : Header) : Nat := h.leading.toNat % ControlPacket.controlFlag / 0x10000

end Header

/-! ## §2. Bodies. -/

namespace DataPacket

/-- The data packet of a header and the octets behind it. -/
def ofHeader (h : Header) (payload : Bytes) : DataPacket where
  sequence := h.leading.toNat
  position := .ofCode (h.additional.toNat / 0x40000000)
  inOrder := h.additional.toNat / 0x20000000 % 2 == 1
  messageNumber := UInt32.ofNat (h.additional.toNat % 0x20000000)
  timestamp := h.timestamp
  destination := h.destination
  payload := payload

end DataPacket

namespace Acknowledgment

/-- Read the body of an acknowledgment with the given id. -/
def read (id : UInt32) (b : Bytes) : Except CodecError (Acknowledgment × Bytes) :=
  match Bytes.word? b with
  | none => .error (.truncated 4 b.length)
  | some (number, rest) =>
    let full? := do
      let (roundTrip, b) ← Bytes.word? rest
      let (roundTripVariation, b) ← Bytes.word? b
      let (availableBuffer, b) ← Bytes.word? b
      some ({ id, number := number.toNat, roundTrip, roundTripVariation,
              availableBuffer : Acknowledgment }, b)
    .ok (full?.getD ({ id, number := number.toNat }, rest))

end Acknowledgment

namespace LossReport

/-- Read a loss report to the last whole word. -/
def read (b : Bytes) : Except CodecError (LossReport × Bytes) :=
  let (words, rest) := b.words
  match ofWords words with
  | .ok report => .ok (report, rest)
  | .error e => .error e

end LossReport

namespace ControlBody

/-- Read the body that a header announces. -/
def read (h : Header) (b : Bytes) : Except CodecError (ControlBody × Bytes) :=
  match ControlKind.ofCode? h.kindCode with
  | some .keepAlive => .ok (.keepAlive, b)
  | some .shutdown => .ok (.shutdown, b)
  | some .ack2 => .ok (.ack2 h.additional.toNat, b)
  | some .ack =>
    match Acknowledgment.read h.additional b with
    | .ok (a, rest) => .ok (.ack a, rest)
    | .error e => .error e
  | some .nak =>
    match LossReport.read b with
    | .ok (report, rest) => .ok (.nak report, rest)
    | .error e => .error e
  | some .handshake | some .messageDropRequest | none =>
    .error (.unsupportedControl h.kindCode)

end ControlBody

/-! ## §3. Packets. -/

namespace Packet

/-- Read one packet; what it leaves unread comes with it. -/
def decode (b : Bytes) : Except CodecError (Packet × Bytes) :=
  match Header.read b with
  | .error e => .error e
  | .ok (h, rest) =>
    if h.isControl then
      match ControlBody.read h rest with
      | .ok (body, rest) =>
        .ok (control { timestamp := h.timestamp, destination := h.destination, body }, rest)
      | .error e => .error e
    else .ok (data (.ofHeader h rest), [])

end Packet

end ReliableSender
