/-
  ReliableSender.Packet.LossReport
  ────────────────────────────────
  **COMPRESSED LISTS OF LOST SEQUENCE NUMBERS.**

  A report is a list of words.  A word with its highest bit set opens an
  inclusive range, and the next word closes it; any other word is a single
  number.  Three functions go between words, ranges and numbers:

      ofSequences xs   — the report of a list of numbers: sorted, without
                         repetition, neighbours joined into ranges
      sequences r      — the numbers a report names, in its own order
      ofWords ws       — a received report, within the limits on its size

  A range whose end comes before its start is legal and names nothing.
-/
import ReliableSender.Ascending
import ReliableSender.Packet.Error

namespace ReliableSender

/-! ## §1. Ranges. -/

/-- The numbers from `first` to `last`, both included. -/
structure Range where
  first : Nat
  last : Nat
  deriving DecidableEq, Repr

namespace Range

/-- How many numbers the range holds. -/
def size (r : Range) : Nat := r.last + 1 - r.first

/-- The numbers of the range, ascending. -/
def toList (r : Range) : List Nat := List.range' r.first r.size

@[simp] theorem length_toList (r : Range) : r.toList.length = r.size := by
  simp [toList]

theorem toList_self (n : Nat) : toList ⟨n, n⟩ = [n] := by
  simp [toList, size]

theorem mem_toList {r : Range} {n : Nat} : n ∈ r.toList ↔ r.first ≤ n ∧ n ≤ r.last := by
  simp only [toList, size, List.mem_range'_1]
  omega

/-- Put a number in front of ranges: it joins the first one if it is the
number just below it. -/
def extend (n : Nat) : List Range → List Range
  | r :: rs => if n + 1 = r.first then ⟨n, r.last⟩ :: rs else ⟨n, n⟩ :: r :: rs
  | [] => [⟨n, n⟩]

/-- Join neighbours into ranges. -/
def ofList (xs : List Nat) : List Range := xs.foldr extend []

theorem flatMap_toList_extend (n : Nat) (rs : List Range)
    (h : ∀ r ∈ rs.head?, r.first ≤ r.last) :
    (extend n rs).flatMap toList = n :: rs.flatMap toList := by
  match rs with
  | [] => simp [extend, toList, size]
  | r :: rs =>
    have hr : r.first ≤ r.last := h r rfl
    simp only [extend]
    split
    · rename_i he
      have hs : r.last + 1 - n = (r.last + 1 - r.first) + 1 := by omega
      simp only [List.flatMap_cons, toList, size, hs, List.range'_succ, he, List.cons_append]
    · simp [toList, size]

theorem first_le_last_of_mem_ofList {xs : List Nat} {r : Range} (h : r ∈ ofList xs) :
    r.first ≤ r.last := by
  induction xs generalizing r with
  | nil => simp [ofList] at h
  | cons x xs ih =>
    rw [ofList, List.foldr_cons, ← ofList] at h
    revert h
    match hrs : ofList xs with
    | [] =>
      intro h
      simp only [extend, List.mem_singleton] at h
      simp [h]
    | s :: ss =>
      intro h
      have hs := ih (hrs ▸ List.mem_cons_self : s ∈ ofList xs)
      simp only [extend] at h
      split at h
      · rcases List.mem_cons.mp h with rfl | h
        · simp only; omega
        · exact ih (hrs ▸ List.mem_cons_of_mem s h)
      · rcases List.mem_cons.mp h with rfl | h
        · simp
        · exact ih (hrs ▸ h)

/-- The ranges of a list of numbers spell out that list. -/
@[simp] theorem flatMap_toList_ofList (xs : List Nat) : (ofList xs).flatMap toList = xs := by
  induction xs with
  | nil => rfl
  | cons x xs ih =>
    rw [ofList, List.foldr_cons, ← ofList, flatMap_toList_extend, ih]
    intro r hr
    exact first_le_last_of_mem_ofList (List.mem_of_mem_head? hr)

end Range

namespace LossReport

/-! ## §2. Words and ranges. -/

/-- The bit that tells the start of a range from a single number. -/
def rangeFlag : Nat := 0x80000000

/-- Whether a word opens a range. -/
def opensRange (w : UInt32) : Bool := rangeFlag ≤ w.toNat

/-- The number in a word, without the flag. -/
def number (w : UInt32) : Nat := w.toNat % rangeFlag

/-- The words of a range; a range of one number is a single word. -/
def rangeWords (r : Range) : List UInt32 :=
  if r.first = r.last then [UInt32.ofNat r.first]
  else [UInt32.ofNat (rangeFlag + r.first), UInt32.ofNat r.last]

/-- The ranges a report lists, in its own order.  A range left open by the last
word holds its start alone. -/
def ranges (report : LossReport) : List Range := go [] report.words
where
  go (done : List Range) : List UInt32 → List Range
    | [] => done.reverse
    | [w] => (⟨number w, number w⟩ :: done).reverse
    | w :: stop :: rest =>
      if opensRange w then go (⟨number w, stop.toNat⟩ :: done) rest
      else go (⟨number w, number w⟩ :: done) (stop :: rest)

/-- The sequence numbers a report names, in its own order. -/
def sequences (report : LossReport) : List Nat := report.ranges.flatMap Range.toList

/-! ## §3. Writing a report. -/

/-- The report of a list of lost numbers, in any order and with repetitions;
refused for the least number that does not fit the header field. -/
def ofSequences (lost : List Nat) : Except CodecError LossReport :=
  let numbers := distinct lost
  match numbers.find? (sequenceMax < ·) with
  | some n => .error (.sequenceOverflow n)
  | none => .ok ⟨(Range.ofList numbers).flatMap rangeWords⟩

/-! ## §4. Reading a report. -/

/-- The report that received words make up, or the fault of the first entry
that is at fault: a range without an end, a range too long, or one entry too
many in all.  The end of a range keeps only its number. -/
def ofWords (words : List UInt32) : Except CodecError LossReport := go 0 [] words
where
  go (entries : Nat) (kept : List UInt32) : List UInt32 → Except CodecError LossReport
    | [] => .ok ⟨kept.reverse⟩
    | [w] =>
      if opensRange w then .error (.unterminatedRange (number w))
      else if maxLossEntries < entries + 1 then .error (.tooManyLosses (entries + 1))
      else .ok ⟨(w :: kept).reverse⟩
    | w :: stop :: rest =>
      if opensRange w then
        let range : Range := ⟨number w, number stop⟩
        if maxLossRange < range.size then
          .error (.lossRangeTooLarge range.first range.last)
        else if maxLossEntries < entries + range.size then
          .error (.tooManyLosses (entries + range.size))
        else go (entries + range.size) (UInt32.ofNat (number stop) :: w :: kept) rest
      else if maxLossEntries < entries + 1 then .error (.tooManyLosses (entries + 1))
      else go (entries + 1) (w :: kept) (stop :: rest)

end LossReport

end ReliableSender
