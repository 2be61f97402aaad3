/-
  ReliableSender.Sequence
  ───────────────────────
  **NUMBERING PACKETS AND MESSAGES.**

  Sequence numbers start at 0 and grow by one for the lifetime of the
  connection.  Message numbers come from a 32-bit counter of which the
  header keeps 29 bits; one modulus divides the other, so the numbers cycle
  without a jump.
-/
import ReliableSender.Packet.Basic

namespace ReliableSender

/-! ## §1. Sequence numbers. -/

/-- Issues sequence numbers one after the other. -/
structure SequenceGenerator where
  /-- How many numbers have been issued, which is the next one. -/
  issued : Nat := 0
  deriving DecidableEq, Repr

namespace SequenceGenerator

/-- Issue the next number. -/
def next (g : SequenceGenerator) : Nat × SequenceGenerator :=
  (g.issued, ⟨g.issued + 1⟩)

/-- Issue several numbers. -/
def take (g : SequenceGenerator) (n : Nat) : List Nat × SequenceGenerator :=
  (List.range' g.issued n, ⟨g.issued + n⟩)

theorem take_succ (g : SequenceGenerator) (n : Nat) :
    g.take (n + 1) = (g.next.1 :: (g.next.2.take n).1, (g.next.2.take n).2) := by
  simp only [take, next, List.range'_succ]
  rw [Nat.add_right_comm, Nat.add_assoc]

/-- The number issued last. -/
def current? (g : SequenceGenerator) : Option Nat :=
  if g.issued = 0 then none else some (g.issued - 1)

end SequenceGenerator

/-! ## §2. Message numbers. -/

/-- Numbers application messages. -/
structure MessageCounter where
  count : UInt32 := 0
  deriving DecidableEq, Repr

namespace MessageCounter

/-- Number the next message. -/
def next (c : MessageCounter) : UInt32 × MessageCounter :=
  (UInt32.ofNat (c.count.toNat % (messageNumberMax + 1)), ⟨c.count + 1⟩)

end MessageCounter

end ReliableSender
