/-
  ReliableSender.LossList
  ───────────────────────
  **SEQUENCE NUMBERS WAITING FOR ONE RETRANSMISSION EACH.**

  The peer reports losses, and a long silence presumes them.  Either way the
  numbers wait here, each once, and the lowest is served first because it is
  the one that holds up delivery in order.
-/
import ReliableSender.Ascending

namespace ReliableSender

/-- A set of sequence numbers, ascending. -/
structure LossList where
  entries : List Nat := []
  ascending : Ascending entries := by simp [Ascending]
  deriving DecidableEq

namespace LossList

instance : Membership Nat LossList := ⟨fun l s => s ∈ l.entries⟩

/-- The lowest number. -/
def first? (l : LossList) : Option Nat := l.entries.head?

/-- How many numbers wait. -/
def size (l : LossList) : Nat := l.entries.length

/-- Whether no number waits. -/
def isEmpty (l : LossList) : Bool := l.entries.isEmpty

/-- Add a number; the answer tells whether it is new. -/
def insert (l : LossList) (s : Nat) : Bool × LossList :=
  (!l.entries.contains s,
   ⟨insertBy id s l.entries, @ascendingBy_insertBy Nat id s l.entries l.ascending⟩)

/-- Add many numbers; the answer is how many of them are new. -/
def insertAll (l : LossList) (lost : List Nat) : Nat × LossList :=
  let merged := distinct (l.entries ++ lost)
  (merged.length - l.size, ⟨merged, ascending_distinct _⟩)

/-- Take a number out; the answer tells whether it was there. -/
def remove (l : LossList) (s : Nat) : Bool × LossList :=
  (l.entries.contains s, ⟨l.entries.erase s, l.ascending.sublist List.erase_sublist⟩)

theorem mem_insertAll {l : LossList} {lost : List Nat} {s : Nat} :
    s ∈ (l.insertAll lost).2 ↔ s ∈ l ∨ s ∈ lost := by
  show s ∈ distinct (l.entries ++ lost) ↔ s ∈ l.entries ∨ s ∈ lost
  rw [mem_distinct, List.mem_append]

end LossList

end ReliableSender
