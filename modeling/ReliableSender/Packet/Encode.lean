/-
  ReliableSender.Packet.Encode
  ────────────────────────────
  **WRITING A PACKET BEHIND WHAT A BUFFER HOLDS.**

  `Packet.appendTo p buffer` returns the buffer afterwards together with the
  outcome, because a refusal can come after octets were written: the number
  of an acknowledgment is looked at only when its header is out.  Every
  other refusal leaves the buffer as it was.

      data           sequence, then message number, then payload length
      ack2           the number it repeats, before anything is written
      ack            the acknowledged number, behind the header
      keep-alive, shutdown   four zero octets follow the header
-/
import ReliableSender.Packet.LossReport

namespace ReliableSender

/-- The outcome of writing onto a buffer, and the buffer afterwards. -/
abbrev Written := Except CodecError Unit × Bytes

/-! ## §1. Data packets. -/

namespace DataPacket

/-- The second header word: position, order flag and message number. -/
def messageWord (p : DataPacket) : UInt32 :=
  UInt32.ofNat (p.position.code * 0x40000000 + p.inOrder.toNat * 0x20000000
    + p.messageNumber.toNat)

/-- The octets of a packet whose fields fit the header. -/
def toBytes (p : DataPacket) : Bytes :=
  Bytes.ofWords [UInt32.ofNat p.sequence, p.messageWord, p.timestamp, p.destination]
    ++ p.payload

/-- The first field, in header order, that does not fit. -/
def fault? (p : DataPacket) : Option CodecError :=
  if sequenceMax < p.sequence then some (.sequenceOverflow p.sequence)
  else if messageNumberMax < p.messageNumber.toNat then
    some (.messageNumberOverflow p.messageNumber.toNat)
  else if maxPayloadLength < p.payload.length then
    some (.payloadTooLarge p.payload.length)
  else none

/-- Write a data packet behind `buffer`. -/
def appendTo (p : DataPacket) (buffer : Bytes) : Written :=
  match p.fault? with
  | some e => (.error e, buffer)
  | none => (.ok (), buffer ++ p.toBytes)

end DataPacket

/-! ## §2. Control packets. -/

namespace ControlPacket

/-- The bit that tells a control packet from a data packet. -/
def controlFlag : Nat := 0x80000000

/-- The header, whose second word depends on the kind of packet. -/
def header (p : ControlPacket) (additional : UInt32) : Bytes :=
  Bytes.ofWords [UInt32.ofNat (controlFlag + p.body.kind.code * 0x10000), additional,
    p.timestamp, p.destination]

/-- Write a control packet behind `buffer`. -/
def appendTo (p : ControlPacket) (buffer : Bytes) : Written :=
  match p.body with
  | .keepAlive | .shutdown => (.ok (), buffer ++ p.header 0 ++ Bytes.ofWord 0)
  | .ack a =>
    let begun := buffer ++ p.header a.id
    if sequenceMax < a.number then (.error (.sequenceOverflow a.number), begun)
    else (.ok (), begun ++ Bytes.ofWords
      [UInt32.ofNat a.number, a.roundTrip, a.roundTripVariation, a.availableBuffer])
  | .nak report => (.ok (), buffer ++ p.header 0 ++ Bytes.ofWords report.words)
  | .ack2 number =>
    if sequenceMax < number then (.error (.sequenceOverflow number), buffer)
    else (.ok (), buffer ++ p.header (UInt32.ofNat number))

end ControlPacket

/-! ## §3. Packets. -/

namespace Packet

/-- Write a packet behind `buffer`. -/
def appendTo : Packet → Bytes → Written
  | data p, buffer => p.appendTo buffer
  | control p, buffer => p.appendTo buffer

/-- The octets of a packet. -/
def encode (p : Packet) : Except CodecError Bytes :=
  match p.appendTo [] with
  | (.ok _, bytes) => .ok bytes
  | (.error e, _) => .error e

end Packet

end ReliableSender
