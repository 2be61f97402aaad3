/-
  ReliableSender.SendBuffer
  ─────────────────────────
  **TRANSMITTED PACKETS THAT NOBODY HAS ACKNOWLEDGED.**

  The buffer keeps every packet from its first transmission until an
  acknowledgment covers it, in order of sequence number.  Beside the packets
  it keeps the highest acknowledgment so far and the number of packets in
  flight.  An acknowledgment removes the stretch between the previous one
  and itself and nothing else: what was buffered below the previous one
  afterwards stays.

      insertWith p send  — send, and keep `p` if the sending succeeded
      removeUpTo k       — drop `[lastAck, k)` and move `lastAck` up to `k`
-/
import ReliableSender.Ascending
import ReliableSender.Packet.Basic

namespace ReliableSender

/-- Unacknowledged packets in ascending order of sequence number. -/
structure SendBuffer where
  entries : List DataPacket := []
  /-- Everything below has been acknowledged. -/
  lastAck : Nat := 0
  /-- Packets in flight. -/
  unacknowledged : Nat := 0
  ascending : AscendingBy DataPacket.sequence entries := by simp [AscendingBy]

namespace SendBuffer

/-! ## §1. Looking. -/

/-- The buffered packet with a sequence number. -/
def get? (b : SendBuffer) (s : Nat) : Option DataPacket :=
  b.entries.find? (·.sequence == s)

/-- Whether a sequence number is buffered. -/
def contains (b : SendBuffer) (s : Nat) : Bool := b.entries.any (·.sequence == s)

/-- All buffered sequence numbers, ascending. -/
def keys (b : SendBuffer) : List Nat := b.entries.map DataPacket.sequence

/-- How many packets are buffered. -/
def size (b : SendBuffer) : Nat := b.entries.length

/-- Whether nothing is in flight. -/
def isEmpty (b : SendBuffer) : Bool := b.unacknowledged == 0

theorem contains_eq_true_iff {b : SendBuffer} {s : Nat} :
    b.contains s = true ↔ s ∈ b.keys := by
  simp [contains, keys]

theorem ascending_keys (b : SendBuffer) : Ascending b.keys := by
  simpa [keys, Ascending, AscendingBy, List.pairwise_map] using b.ascending

/-! ## §2. Inserting. -/

/-- Keep a packet whose sequence number is not buffered. -/
def push (b : SendBuffer) (p : DataPacket) : SendBuffer where
  entries := insertBy DataPacket.sequence p b.entries
  lastAck := b.lastAck
  unacknowledged := b.unacknowledged + 1
  ascending := ascendingBy_insertBy p b.ascending

/-- Run `send` on a packet and keep the packet if that succeeds.  A packet whose
sequence number is buffered already is neither sent nor kept; the answer tells
whether it was kept. -/
def insertWith {ε σ : Type} (b : SendBuffer) (p : DataPacket)
    (send : DataPacket → σ → Except ε Unit × σ) (s : σ) : Except ε Bool × SendBuffer × σ :=
  if b.contains p.sequence then (.ok false, b, s)
  else
    match send p s with
    | (.ok _, s) => (.ok true, b.push p, s)
    | (.error e, s) => (.error e, b, s)

/-- Keep a packet without sending anything; false if its number is taken. -/
def insert (b : SendBuffer) (p : DataPacket) : Bool × SendBuffer :=
  if b.contains p.sequence then (false, b) else (true, b.push p)

/-! ## §3. Acknowledging. -/

/-- Whether an acknowledgment of `k` covers a packet. -/
def covers (b : SendBuffer) (k : Nat) (p : DataPacket) : Bool :=
  b.lastAck ≤ p.sequence && p.sequence < k

/-- Drop every packet in `[lastAck, k)` and move `lastAck` to `k`; a stale `k`
changes nothing.  The answer is the number of packets dropped. -/
def removeUpTo (b : SendBuffer) (k : Nat) : Nat × SendBuffer :=
  if k ≤ b.lastAck then (0, b)
  else
    let removed := b.entries.countP (b.covers k)
    (removed, {
      entries := b.entries.filter fun p => !b.covers k p
      lastAck := k
      unacknowledged := b.unacknowledged - removed
      ascending := b.ascending.filter _ })

end SendBuffer

end ReliableSender
