/-
  ReliableSender.Engine.Packetize
  ───────────────────────────────
  **FROM APPLICATION DATA TO NUMBERED PACKETS.**

  A message is cut into pieces of at most the configured size.  All pieces
  carry one message number and consecutive sequence numbers; a message of no
  octets has no piece and takes a message number all the same.

      piece max data i   — the octets of `data` in `[i·max, (i+1)·max)`
-/
import ReliableSender.Engine.Basic

namespace ReliableSender

/-! ## §1. Cutting. -/

namespace Piece

/-- How many pieces a message of some length has. -/
def count (max length : Nat) : Nat := (length + max - 1) / max

/-- Where a piece begins. -/
def start (max i : Nat) : Nat := i * max

/-- Where a piece ends. -/
def stop (max length i : Nat) : Nat := min ((i + 1) * max) length

/-- The place of a piece among all pieces of its message. -/
def position (count i : Nat) : Position :=
  if i = 0 then (if i + 1 = count then .solo else .first)
  else if i + 1 = count then .last else .middle

/-- The octets of a piece. -/
def octets (max : Nat) (data : Array UInt8) (i : Nat) : Bytes :=
  (data.extract (start max i) (stop max data.size i)).toList

end Piece

/-! ## §2. Stamping. -/

namespace Engine

variable {σ τ : Type}

/-- Issue a sequence number. -/
def nextSequence (e : Engine σ τ) : Nat × Engine σ τ :=
  let (s, sequences) := e.sequences.next
  (s, { e with sequences })

/-- Number a message. -/
def nextMessage (e : Engine σ τ) : UInt32 × Engine σ τ :=
  let (m, messages) := e.messages.next
  (m, { e with messages })

/-- A packet of this sender. -/
def stamp (e : Engine σ τ) (now : Moment) (sequence : Nat) (messageNumber : UInt32)
    (position : Position) (payload : Bytes) : DataPacket :=
  { sequence
    position
    messageNumber
    timestamp := now.timestamp
    destination := e.session.destination
    payload }

/-- Make one packet of a message, whatever its length. -/
def packetize (e : Engine σ τ) (now : Moment) (payload : Bytes) : DataPacket × Engine σ τ :=
  let (message, e) := e.nextMessage
  let (s, e) := e.nextSequence
  (e.stamp now s message .solo payload, e)

/-- Most octets of a piece; a configured size of 0 counts as 1. -/
def pieceSize (e : Engine σ τ) : Nat := max e.config.maxPayload 1

/-- Cut a message into packets. -/
def fragment (e : Engine σ τ) (now : Moment) (message : Bytes) :
    List DataPacket × Engine σ τ :=
  let data := message.toArray
  -- The message number is spent even if no packet carries it.
  let count := Piece.count e.pieceSize data.size
  let (number, e) := e.nextMessage
  let (issued, sequences) := e.sequences.take count
  let packets := issued.mapIdx fun i s =>
    e.stamp now s number (Piece.position count i) (Piece.octets e.pieceSize data i)
  (packets, { e with sequences })

end Engine

end ReliableSender
