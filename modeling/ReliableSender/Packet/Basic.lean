/-
  ReliableSender.Packet.Basic
  ───────────────────────────
  **WHAT TRAVELS: DATA PACKETS AND CONTROL PACKETS.**

  A data packet is one sequenced fragment of an application message; a
  control packet is feedback or housekeeping.  In memory a sequence number
  is an unbounded natural number; the header gives it 31 bits, a message
  number 29, and a packet outside these limits exists but has no octets
  (`Packet.Encode`).
-/
import ReliableSender.Bytes

namespace ReliableSender

/-! ## §1. Limits of the format. -/

/-- Octets of the header that every packet starts with. -/
def headerSize : Nat := 16

/-- Largest sequence number the 31-bit field holds. -/
def sequenceMax : Nat := 0x7FFFFFFF

/-- Largest message number the 29-bit field holds. -/
def messageNumberMax : Nat := 0x1FFFFFFF

/-- Largest payload: a datagram carries at most 65507 octets, header included. -/
def maxPayloadLength : Nat := 65507 - headerSize

/-- Most sequence numbers one range of a received loss report may span. -/
def maxLossRange : Nat := 65536

/-- Most sequence numbers a received loss report may name in all. -/
def maxLossEntries : Nat := maxLossRange

/-! ## §2. Data packets. -/

/-- Where a data packet stands within its application message. -/
inductive Position where
  | middle
  | last
  | first
  /-- The message fits in this one packet. -/
  | solo
  deriving DecidableEq, Repr, Inhabited

namespace Position

/-- The two header bits of a position. -/
def code : Position → Nat
  | middle => 0
  | last => 1
  | first => 2
  | solo => 3

/-- The position that the two lowest bits of a number stand for. -/
def ofCode (n : Nat) : Position :=
  match n % 4 with
  | 0 => middle
  | 1 => last
  | 2 => first
  | _ => solo

@[simp] theorem ofCode_code (p : Position) : ofCode p.code = p := by
  cases p <;> rfl

theorem code_lt (p : Position) : p.code < 4 := by
  cases p <;> decide

theorem code_ofCode {n : Nat} (h : n < 4) : (ofCode n).code = n := by
  match n, h with
  | 0, _ | 1, _ | 2, _ | 3, _ => rfl

end Position

/-- One sequenced fragment of application payload. -/
structure DataPacket where
  sequence : Nat
  position : Position := .solo
  /-- Whether the receiver has to deliver the message in order. -/
  inOrder : Bool := true
  messageNumber : UInt32 := 0
  /-- Microseconds, modulo 2³². -/
  timestamp : UInt32 := 0
  /-- The peer's socket id. -/
  destination : UInt32 := 0
  payload : Bytes := []
  deriving DecidableEq, Repr, Inhabited

namespace DataPacket

/-- Octets of the packet on the wire. -/
def encodedLength (p : DataPacket) : Nat := headerSize + p.payload.length

end DataPacket

/-! ## §3. Control packets. -/

/-- The kinds of control packet that have a code. -/
inductive ControlKind where
  | handshake
  | keepAlive
  | ack
  | nak
  | shutdown
  | ack2
  | messageDropRequest
  deriving DecidableEq, Repr

namespace ControlKind

/-- The 15-bit code in the header. -/
def code : ControlKind → Nat
  | handshake => 0
  | keepAlive => 1
  | ack => 2
  | nak => 3
  | shutdown => 5
  | ack2 => 6
  | messageDropRequest => 7

/-- The kind a code stands for; 4 and everything above 7 stand for none. -/
def ofCode? : Nat → Option ControlKind
  | 0 => some handshake
  | 1 => some keepAlive
  | 2 => some ack
  | 3 => some nak
  | 5 => some shutdown
  | 6 => some ack2
  | 7 => some messageDropRequest
  | _ => none

@[simp] theorem ofCode?_code (k : ControlKind) : ofCode? k.code = some k := by
  cases k <;> rfl

theorem code_lt (k : ControlKind) : k.code < 8 := by
  cases k <;> decide

theorem eq_code_of_ofCode? {n : Nat} {k : ControlKind} (h : ofCode? n = some k) :
    n = k.code := by
  unfold ofCode? at h
  split at h <;> first | (cases h; rfl) | simp at h

end ControlKind

/-- An acknowledgment: everything below `number` has been received. -/
structure Acknowledgment where
  /-- The number of the acknowledgment itself. -/
  id : UInt32 := 0
  number : Nat
  /-- Round-trip time in microseconds. -/
  roundTrip : UInt32 := 0
  /-- Variation of the round-trip time in microseconds. -/
  roundTripVariation : UInt32 := 0
  /-- Room left at the receiver, in packets. -/
  availableBuffer : UInt32 := 0
  deriving DecidableEq, Repr, Inhabited

/-- Lost sequence numbers in compressed form.  A word with its highest bit set
opens a range that the next word closes; any other word is one number. -/
structure LossReport where
  words : List UInt32 := []
  deriving DecidableEq, Repr, Inhabited

/-- What a control packet says, by kind. -/
inductive ControlBody where
  | keepAlive
  | ack (a : Acknowledgment)
  | nak (report : LossReport)
  /-- The acknowledgment of an acknowledgment; it repeats the number. -/
  | ack2 (number : Nat)
  | shutdown
  deriving DecidableEq, Repr, Inhabited

/-- The kind of packet a body belongs to. -/
def ControlBody.kind : ControlBody → ControlKind
  | keepAlive => .keepAlive
  | ack _ => .ack
  | nak _ => .nak
  | ack2 _ => .ack2
  | shutdown => .shutdown

/-- A control packet: the common header fields and a body. -/
structure ControlPacket where
  timestamp : UInt32 := 0
  destination : UInt32 := 0
  body : ControlBody
  deriving DecidableEq, Repr, Inhabited

/-! ## §4. Packets. -/

/-- Any packet. -/
inductive Packet where
  | data (p : DataPacket)
  | control (p : ControlPacket)
  deriving DecidableEq, Repr, Inhabited

namespace Packet

/-- Whether the packet carries payload. -/
def isData : Packet → Bool
  | data _ => true
  | control _ => false

end Packet

end ReliableSender
