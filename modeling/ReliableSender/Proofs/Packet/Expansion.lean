/-
  ReliableSender.Proofs.Packet.Expansion
  ──────────────────────────────────────
  **WHAT A WRITTEN LOSS REPORT NAMES.**

  A report is written from numbers in any order and with repetitions.  What
  is written are ranges, and spelled out again they name each number once,
  lowest first.  A loss list keeps its numbers in the same form, so it takes
  the report for the list that the report was written from:

      ofSequences_ok         — numbers within the header field are written
      sequences_ofSequences  — what the written words name
      insertAll_distinct     — a loss list sees members only
-/
import ReliableSender.LossList
import ReliableSender.Proofs.Packet.Entries

namespace ReliableSender

/-! ## §1. Ascending lists and their members. -/

/-- An ascending list is known by its members. -/
theorem Ascending.ext {xs ys : List Nat} (hxs : Ascending xs) (hys : Ascending ys)
    (hmem : ∀ n, n ∈ xs ↔ n ∈ ys) : xs = ys := by
  have hperm : xs.Perm ys :=
    (List.perm_ext_iff_of_nodup (hxs.imp Nat.ne_of_lt) (hys.imp Nat.ne_of_lt)).mpr hmem
  refine hperm.eq_of_pairwise (fun a b _ _ hab hba => ?_) hxs hys
  exact absurd hab (Nat.lt_asymm hba)

/-- Sorting out the repetitions of a part first changes nothing. -/
theorem distinct_append_distinct (xs ys : List Nat) :
    distinct (xs ++ distinct ys) = distinct (xs ++ ys) := by
  refine Ascending.ext (ascending_distinct _) (ascending_distinct _) fun n => ?_
  simp only [mem_distinct, List.mem_append]

/-- A loss list sees the members of what it is given, not their order or repetitions. -/
theorem LossList.insertAll_distinct (l : LossList) (lost : List Nat) :
    l.insertAll (distinct lost) = l.insertAll lost := by
  unfold insertAll
  simp only [distinct_append_distinct]

namespace LossReport

/-! ## §2. Ranges as entries. -/

/-- The entry that a range is written as: a range of one number is that number. -/
def Entry.ofRange (r : Range) : Entry := if r.first = r.last then .single r.first else .range r

theorem words_ofRange (r : Range) : (Entry.ofRange r).words = rangeWords r := by
  unfold Entry.ofRange rangeWords
  by_cases hone : r.first = r.last
  · rw [if_pos hone, if_pos hone]
    rfl
  · rw [if_neg hone, if_neg hone]
    rfl

theorem numbers_ofRange (r : Range) : (Entry.ofRange r).numbers = r.toList := by
  obtain ⟨first, last⟩ := r
  unfold Entry.ofRange
  by_cases hone : first = last
  · subst hone
    rw [if_pos rfl, Range.toList_self]
    rfl
  · rw [if_neg hone]
    rfl

theorem complete_ofRange {r : Range} (hr : r.first ≤ r.last) (hmax : r.last ≤ sequenceMax) :
    (Entry.ofRange r).Complete := by
  have hlast : r.last < 2 ^ 31 := Nat.lt_succ_of_le hmax
  unfold Entry.ofRange
  by_cases hone : r.first = r.last
  · rw [if_pos hone]
    exact Nat.lt_of_le_of_lt hr hlast
  · rw [if_neg hone]
    exact ⟨Nat.lt_of_le_of_lt hr hlast, hlast⟩

/-! ## §3. Writing, and what the words name. -/

/-- Numbers within the header field are written. -/
theorem ofSequences_ok {lost : List Nat} (hlost : ∀ n ∈ lost, n ≤ sequenceMax) :
    ∃ report, ofSequences lost = .ok report := by
  have hfind : (distinct lost).find? (sequenceMax < ·) = none := by
    refine List.find?_eq_none.mpr fun n hn => ?_
    have := hlost n (mem_distinct.mp hn)
    simpa using this
  unfold ofSequences
  simp only [hfind]
  exact ⟨_, rfl⟩

/-- A written report is made of complete entries, which are the ranges of its numbers. -/
theorem entries_of_ofSequences {lost : List Nat} {report : LossReport}
    (h : ofSequences lost = .ok report) :
    (∀ e ∈ (Range.ofList (distinct lost)).map Entry.ofRange, e.Complete)
      ∧ report.words = ((Range.ofList (distinct lost)).map Entry.ofRange).flatMap Entry.words := by
  obtain ⟨hmax, hwords⟩ := eq_of_ofSequences h
  refine ⟨fun e he => ?_, ?_⟩
  · obtain ⟨r, hr, rfl⟩ := List.mem_map.mp he
    obtain ⟨hle, hlast⟩ := range_bounds_of_mem_ofList hmax hr
    exact complete_ofRange hle hlast
  · rw [hwords, List.flatMap_map]
    simp only [words_ofRange]

/-- **What a written report names.**  Each of the numbers once, lowest first. -/
theorem sequences_ofSequences {lost : List Nat} {report : LossReport}
    (h : ofSequences lost = .ok report) : report.sequences = distinct lost := by
  obtain ⟨hcomplete, hwords⟩ := entries_of_ofSequences h
  obtain rfl : report = ⟨_⟩ := congrArg LossReport.mk hwords
  rw [sequences_flatMap hcomplete, List.flatMap_map]
  simp only [numbers_ofRange]
  exact Range.flatMap_toList_ofList _

end LossReport

end ReliableSender
