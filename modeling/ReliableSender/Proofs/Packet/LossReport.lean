/-
  ReliableSender.Proofs.Packet.LossReport
  ───────────────────────────────────────
  **WHICH LOSS REPORTS ARE READ BACK.**

  Writing a report joins neighbours without a limit; reading one counts what
  its ranges spell out and stops at `maxLossEntries`.  So a written report is
  read back exactly if it names no more numbers than that:

      ofWords_ofSequences   — a written report within the limit is read back
      ofWords_oversized     — a written report beyond it is refused
      ofWords_idempotent    — a report that was read is read again as it is

  All three come from what `ofWords.go` does with one entry.
-/
import Mathlib.Data.List.Dedup
import Mathlib.Data.List.Perm.Basic
import ReliableSender.Packet.LossReport

namespace ReliableSender

/-- Two spellings of the number of different members. -/
theorem length_distinct (xs : List Nat) : (distinct xs).length = xs.dedup.length := by
  have hnodup : (distinct xs).Nodup :=
    (ascending_distinct xs).imp fun {a b} (h : a < b) => Nat.ne_of_lt h
  have hperm : (distinct xs).Perm xs.dedup := by
    rw [List.perm_ext_iff_of_nodup hnodup xs.nodup_dedup]
    intro z
    rw [mem_distinct, List.mem_dedup]
  exact hperm.length_eq

/-- The causes for which a loss report is refused for its size. -/
def CodecError.IsTooLarge (e : CodecError) : Prop :=
  (∃ start stop, e = .lossRangeTooLarge start stop) ∨ ∃ entries, e = .tooManyLosses entries

namespace LossReport

/-! ## §1. Words of a report. -/

theorem opensRange_ofNat {n : Nat} (h : n ≤ sequenceMax) :
    opensRange (UInt32.ofNat n) = false := by
  have hn : (UInt32.ofNat n).toNat = n := by
    rw [UInt32.toNat_ofNat']
    unfold sequenceMax at h
    omega
  unfold opensRange
  rw [hn]
  unfold sequenceMax at h
  unfold rangeFlag
  exact decide_eq_false (by omega)

theorem number_ofNat {n : Nat} (h : n ≤ sequenceMax) : number (UInt32.ofNat n) = n := by
  unfold sequenceMax at h
  unfold number rangeFlag
  rw [UInt32.toNat_ofNat']
  omega

theorem opensRange_ofNat_flagged {n : Nat} (h : n ≤ sequenceMax) :
    opensRange (UInt32.ofNat (rangeFlag + n)) = true := by
  have hn : (UInt32.ofNat (rangeFlag + n)).toNat = rangeFlag + n := by
    rw [UInt32.toNat_ofNat']
    unfold sequenceMax at h
    unfold rangeFlag
    omega
  unfold opensRange
  rw [hn]
  exact decide_eq_true (by omega)

theorem number_ofNat_flagged {n : Nat} (h : n ≤ sequenceMax) :
    number (UInt32.ofNat (rangeFlag + n)) = n := by
  unfold sequenceMax at h
  unfold number rangeFlag
  rw [UInt32.toNat_ofNat']
  omega

theorem number_le (w : UInt32) : number w ≤ sequenceMax := by
  have h : w.toNat % rangeFlag < rangeFlag := Nat.mod_lt _ (by decide)
  unfold number
  unfold rangeFlag sequenceMax at *
  omega

/-! ## §2. Reading one entry. -/

/-- A single number counts as one entry. -/
theorem ofWords_go_single {w : UInt32} (h : opensRange w = false) (entries : Nat)
    (kept rest : List UInt32) :
    ofWords.go entries kept (w :: rest)
      = if maxLossEntries < entries + 1 then .error (.tooManyLosses (entries + 1))
        else ofWords.go (entries + 1) (w :: kept) rest := by
  cases rest with
  | nil =>
    unfold ofWords.go
    rw [h]
    rfl
  | cons stop rest =>
    rw [ofWords.go, h]
    rfl

/-- A range counts what it spells out, and only the number of its end is kept. -/
theorem ofWords_go_range {w : UInt32} (h : opensRange w = true) (entries : Nat)
    (kept : List UInt32) (stop : UInt32) (rest : List UInt32) :
    ofWords.go entries kept (w :: stop :: rest)
      = if maxLossRange < (Range.mk (number w) (number stop)).size then
          .error (.lossRangeTooLarge (number w) (number stop))
        else if maxLossEntries < entries + (Range.mk (number w) (number stop)).size then
          .error (.tooManyLosses (entries + (Range.mk (number w) (number stop)).size))
        else ofWords.go (entries + (Range.mk (number w) (number stop)).size)
          (UInt32.ofNat (number stop) :: w :: kept) rest := by
  rw [ofWords.go, h]
  rfl

/-- A written range is taken over as it is, unless it passes the limit. -/
theorem ofWords_go_rangeWords {r : Range} (hr : r.first ≤ r.last) (hmax : r.last ≤ sequenceMax)
    (entries : Nat) (kept rest : List UInt32) :
    (entries + r.size ≤ maxLossEntries →
        ofWords.go entries kept (rangeWords r ++ rest)
          = ofWords.go (entries + r.size) ((rangeWords r).reverse ++ kept) rest)
      ∧ (maxLossEntries < entries + r.size →
          ∃ e : CodecError, ofWords.go entries kept (rangeWords r ++ rest) = .error e
            ∧ e.IsTooLarge) := by
  have hfirst : r.first ≤ sequenceMax := by omega
  by_cases hone : r.first = r.last
  -- A range of one number is written as that number, every other one as two words.
  · have hsize : r.size = 1 := by
      unfold Range.size
      omega
    have hwords : rangeWords r = [UInt32.ofNat r.first] := by
      unfold rangeWords
      rw [if_pos hone]
    rw [hwords, hsize]
    show (_ → ofWords.go entries kept (UInt32.ofNat r.first :: rest) = _) ∧
      (_ → ∃ e : CodecError, ofWords.go entries kept (UInt32.ofNat r.first :: rest) = _ ∧ _)
    rw [ofWords_go_single (opensRange_ofNat hfirst)]
    constructor
    · intro hfits
      rw [if_neg (by omega)]
      rfl
    · intro hover
      rw [if_pos hover]
      exact ⟨_, rfl, Or.inr ⟨_, rfl⟩⟩
  · have hwords : rangeWords r
        = [UInt32.ofNat (rangeFlag + r.first), UInt32.ofNat r.last] := by
      unfold rangeWords
      rw [if_neg hone]
    have hread : Range.mk (number (UInt32.ofNat (rangeFlag + r.first)))
        (number (UInt32.ofNat r.last)) = r := by
      rw [number_ofNat_flagged hfirst, number_ofNat hmax]
    rw [hwords]
    show (_ → ofWords.go entries kept
        (UInt32.ofNat (rangeFlag + r.first) :: UInt32.ofNat r.last :: rest) = _) ∧
      (_ → ∃ e : CodecError, ofWords.go entries kept
        (UInt32.ofNat (rangeFlag + r.first) :: UInt32.ofNat r.last :: rest) = _ ∧ _)
    rw [ofWords_go_range (opensRange_ofNat_flagged hfirst), hread, number_ofNat hmax]
    constructor
    · intro hfits
      have hrange : ¬ maxLossRange < r.size := by
        unfold maxLossEntries at hfits
        omega
      rw [if_neg hrange, if_neg (by omega)]
      rfl
    · intro hover
      by_cases hrange : maxLossRange < r.size
      · rw [if_pos hrange]
        exact ⟨_, rfl, Or.inl ⟨_, _, rfl⟩⟩
      · rw [if_neg hrange, if_pos hover]
        exact ⟨_, rfl, Or.inr ⟨_, rfl⟩⟩

/-! ## §3. Reading what was written. -/

/-- Written ranges are taken over as they are, unless they pass the limit together. -/
theorem ofWords_go_flatMap {rs : List Range}
    (hrs : ∀ r ∈ rs, r.first ≤ r.last ∧ r.last ≤ sequenceMax) {entries : Nat}
    (hentries : entries ≤ maxLossEntries) (kept : List UInt32) :
    (entries + (rs.flatMap Range.toList).length ≤ maxLossEntries →
        ofWords.go entries kept (rs.flatMap rangeWords)
          = .ok ⟨kept.reverse ++ rs.flatMap rangeWords⟩)
      ∧ (maxLossEntries < entries + (rs.flatMap Range.toList).length →
          ∃ e : CodecError, ofWords.go entries kept (rs.flatMap rangeWords) = .error e
            ∧ e.IsTooLarge) := by
  induction rs generalizing entries kept with
  | nil =>
    constructor
    · intro _
      show ofWords.go entries kept [] = _
      rw [ofWords.go, List.flatMap_nil, List.append_nil]
    · intro hover
      have : entries + 0 ≤ maxLossEntries := hentries
      exact absurd hover (Nat.not_lt.mpr this)
  | cons r rs ih =>
    have hr := hrs r List.mem_cons_self
    have hrest : ∀ q ∈ rs, q.first ≤ q.last ∧ q.last ≤ sequenceMax := by
      intro q hq
      exact hrs q (List.mem_cons_of_mem r hq)
    obtain ⟨hkeeps, hrefuses⟩ :=
      ofWords_go_rangeWords hr.1 hr.2 entries kept (rs.flatMap rangeWords)
    rw [List.flatMap_cons, List.flatMap_cons, List.length_append, Range.length_toList]
    -- The first range to pass the limit ends the reading, whatever follows it.
    by_cases hfits : entries + r.size ≤ maxLossEntries
    · obtain ⟨htail, htailover⟩ := ih hrest hfits ((rangeWords r).reverse ++ kept)
      rw [hkeeps hfits]
      constructor
      · intro hall
        rw [htail (by omega), List.reverse_append, List.reverse_reverse, List.append_assoc]
      · intro hover
        exact htailover (by omega)
    · constructor
      · intro hall
        exact absurd hall (by omega)
      · intro _
        exact hrefuses (by omega)

/-- The ranges that a list of numbers within the header field is written as. -/
theorem range_bounds_of_mem_ofList {xs : List Nat} (hxs : ∀ n ∈ xs, n ≤ sequenceMax)
    {r : Range} (hr : r ∈ Range.ofList xs) : r.first ≤ r.last ∧ r.last ≤ sequenceMax := by
  have hle := Range.first_le_last_of_mem_ofList hr
  have hlast : r.last ∈ (Range.ofList xs).flatMap Range.toList :=
    List.mem_flatMap.mpr ⟨r, hr, Range.mem_toList.mpr ⟨hle, Nat.le_refl _⟩⟩
  rw [Range.flatMap_toList_ofList] at hlast
  exact ⟨hle, hxs r.last hlast⟩

theorem eq_of_ofSequences {lost : List Nat} {report : LossReport}
    (h : ofSequences lost = .ok report) :
    (∀ n ∈ distinct lost, n ≤ sequenceMax)
      ∧ report.words = (Range.ofList (distinct lost)).flatMap rangeWords := by
  unfold ofSequences at h
  simp only at h
  cases hfind : (distinct lost).find? (sequenceMax < ·) with
  | some n =>
    rw [hfind] at h
    exact absurd h (by simp)
  | none =>
    rw [hfind] at h
    obtain rfl := Except.ok.inj h
    refine ⟨fun n hn => ?_, rfl⟩
    have := List.find?_eq_none.mp hfind n hn
    simpa using this

/-- **Reading a written report.**  It is read back as it is if it names at most
`maxLossEntries` different numbers, and refused for its size if it names more. -/
theorem ofWords_ofSequences {lost : List Nat} {report : LossReport}
    (h : ofSequences lost = .ok report) :
    (lost.dedup.length ≤ maxLossEntries → ofWords report.words = .ok report)
      ∧ (maxLossEntries < lost.dedup.length →
          ∃ e : CodecError, ofWords report.words = .error e ∧ e.IsTooLarge) := by
  obtain ⟨hmax, hwords⟩ := eq_of_ofSequences h
  have hbounds : ∀ r ∈ Range.ofList (distinct lost), r.first ≤ r.last ∧ r.last ≤ sequenceMax :=
    fun r hr => range_bounds_of_mem_ofList hmax hr
  have hread := ofWords_go_flatMap hbounds (Nat.zero_le maxLossEntries) []
  rw [Range.flatMap_toList_ofList, length_distinct, Nat.zero_add, ← hwords] at hread
  exact hread

/-! ## §4. Reading again what was read. -/

/-- What reading keeps, read again, is kept again: numbers are written without the
flag, and an end that lost its flag has none to lose. -/
theorem ofWords_go_kept : ∀ {entries : Nat} {kept words : List UInt32} {report : LossReport},
    ofWords.go entries kept words = .ok report →
    ∃ more, report.words = kept.reverse ++ more
      ∧ ∀ again, ofWords.go entries again more = .ok ⟨again.reverse ++ more⟩
  | entries, kept, [], report, h => by
    rw [ofWords.go] at h
    obtain rfl := Except.ok.inj h
    refine ⟨[], (List.append_nil _).symm, fun again => ?_⟩
    rw [ofWords.go, List.append_nil]
  | entries, kept, w :: rest, report, h => by
    by_cases hopen : opensRange w = true
    · match rest with
      | [] =>
        rw [ofWords.go, if_pos hopen] at h
        exact absurd h (by simp)
      | stop :: rest =>
        -- Reading drops the flag from the end of a range, and only once.
        have hstop : number (UInt32.ofNat (number stop)) = number stop :=
          number_ofNat (number_le stop)
        rw [ofWords_go_range hopen] at h
        split at h
        · exact absurd h (by simp)
        · split at h
          · exact absurd h (by simp)
          · rename_i hrange hfits
            obtain ⟨more, hmore, hagain⟩ := ofWords_go_kept h
            refine ⟨w :: UInt32.ofNat (number stop) :: more, ?_, fun again => ?_⟩
            · rw [hmore]
              simp
            · rw [ofWords_go_range hopen, hstop, if_neg hrange, if_neg hfits, hagain]
              simp
    · have hsingle : opensRange w = false := Bool.eq_false_iff.mpr hopen
      rw [ofWords_go_single hsingle] at h
      split at h
      · exact absurd h (by simp)
      · rename_i hfits
        obtain ⟨more, hmore, hagain⟩ := ofWords_go_kept h
        refine ⟨w :: more, ?_, fun again => ?_⟩
        · rw [hmore]
          simp
        · rw [ofWords_go_single hsingle, if_neg hfits, hagain]
          simp
termination_by _ _ words => words.length

/-- **Reading a report again.**  A report that was read is read back as it is. -/
theorem ofWords_idempotent {words : List UInt32} {report : LossReport}
    (h : ofWords words = .ok report) : ofWords report.words = .ok report := by
  obtain ⟨more, hmore, hagain⟩ := ofWords_go_kept h
  have hwords : report.words = more := hmore
  unfold ofWords
  rw [hwords, hagain []]
  show Except.ok (LossReport.mk more) = _
  rw [← hwords]

end LossReport

end ReliableSender
