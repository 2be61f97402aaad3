/-
  ReliableSender.Proofs.Packet.Compression
  ────────────────────────────────────────
  **A WRITTEN LOSS REPORT IS THE SHORTEST ONE.**

  A report may spell the same numbers in many ways: in any order, one by one
  or in ranges, twice over.  The written one is made of the maximal runs, and
  each of its words holds a number at the border of the set, one with a
  neighbour that is not lost.  No other spelling can leave such a number to
  the inside of a range, so it has a word for each of them too.

  Numbers are 32-bit words where they are joined.  The join is made a second
  time here from the front, with one run open and every sum checked:

      ofSequences?           — the join in checked words
      ofSequences?_eq        — no check of it fails
      length_words_le        — no other spelling is shorter
      canonical_and_shortest — what is written, what is refused, and why no
                               report does with less
-/
import Mathlib.Data.List.Perm.Subperm
import Mathlib.Order.Bounds.Defs
import ReliableSender.Proofs.Packet.Expansion

namespace ReliableSender

/-! ## §1. The runs of an ascending list. -/

namespace Range

/-- A number is missing between the end of one range and the start of the next. -/
def Apart (r q : Range) : Prop := r.last + 1 < q.first

theorem ofList_cons (x : Nat) (xs : List Nat) : ofList (x :: xs) = extend x (ofList xs) := rfl

theorem extend_of_eq {n : Nat} {r : Range} (h : n + 1 = r.first) (rs : List Range) :
    extend n (r :: rs) = ⟨n, r.last⟩ :: rs := if_pos h

theorem extend_of_ne {n : Nat} {r : Range} (h : ¬ n + 1 = r.first) (rs : List Range) :
    extend n (r :: rs) = ⟨n, n⟩ :: r :: rs := if_neg h

theorem mem_ofList_iff {xs : List Nat} {n : Nat} :
    n ∈ xs ↔ ∃ r ∈ ofList xs, r.first ≤ n ∧ n ≤ r.last := by
  have hall := flatMap_toList_ofList xs
  constructor
  · intro hn
    rw [← hall] at hn
    obtain ⟨r, hr, hn⟩ := List.mem_flatMap.mp hn
    exact ⟨r, hr, mem_toList.mp hn⟩
  · rintro ⟨r, hr, hn⟩
    rw [← hall]
    exact List.mem_flatMap.mpr ⟨r, hr, mem_toList.mpr hn⟩

theorem first_mem_of_mem_ofList {xs : List Nat} {r : Range} (hr : r ∈ ofList xs) :
    r.first ∈ xs :=
  mem_ofList_iff.mpr ⟨r, hr, Nat.le_refl _, first_le_last_of_mem_ofList hr⟩

/-- Neighbours are joined, so the ranges of an ascending list stand apart. -/
theorem apart_ofList {xs : List Nat} (h : Ascending xs) : (ofList xs).Pairwise Apart := by
  induction xs with
  | nil => exact List.Pairwise.nil
  | cons x xs ih =>
    obtain ⟨hx, hxs⟩ := List.pairwise_cons.mp h
    have hapart := ih hxs
    have hfirst : ∀ q ∈ ofList xs, x < q.first := fun q hq => hx _ (first_mem_of_mem_ofList hq)
    have hle : ∀ q ∈ ofList xs, q.first ≤ q.last := fun q hq => first_le_last_of_mem_ofList hq
    rw [ofList_cons]
    revert hapart hfirst hle
    match ofList xs with
    | [] =>
      intro _ _ _
      exact List.pairwise_singleton Apart _
    | r :: rs =>
      intro hapart hfirst hle
      obtain ⟨hr, hrs⟩ := List.pairwise_cons.mp hapart
      have hxr := hfirst r List.mem_cons_self
      have hrle := hle r List.mem_cons_self
      by_cases hjoin : x + 1 = r.first
      · -- The first range grows at its start only.
        rw [extend_of_eq hjoin]
        exact List.pairwise_cons.mpr ⟨hr, hrs⟩
      · rw [extend_of_ne hjoin]
        refine List.pairwise_cons.mpr ⟨fun q hq => ?_, hapart⟩
        show x + 1 < q.first
        rcases List.mem_cons.mp hq with rfl | hq
        · omega
        · have hrq : r.last + 1 < q.first := hr q hq
          omega

theorem eq_or_apart {xs : List Nat} (h : Ascending xs) {r q : Range} (hr : r ∈ ofList xs)
    (hq : q ∈ ofList xs) : r = q ∨ Apart r q ∨ Apart q r := by
  have hapart := List.pairwise_iff_getElem.mp (apart_ofList h)
  obtain ⟨i, hi, rfl⟩ := List.mem_iff_getElem.mp hr
  obtain ⟨j, hj, rfl⟩ := List.mem_iff_getElem.mp hq
  rcases Nat.lt_trichotomy i j with hij | rfl | hij
  · exact Or.inr (Or.inl (hapart i j hi hj hij))
  · exact Or.inl rfl
  · exact Or.inr (Or.inr (hapart j i hj hi hij))

/-- A run cannot be continued at its end. -/
theorem last_succ_not_mem {xs : List Nat} (h : Ascending xs) {r : Range} (hr : r ∈ ofList xs) :
    r.last + 1 ∉ xs := by
  intro hmem
  have hrle := first_le_last_of_mem_ofList hr
  obtain ⟨q, hq, hfirst, hlast⟩ := mem_ofList_iff.mp hmem
  -- The run that holds it would be this one, or too near to it.
  rcases eq_or_apart h hr hq with rfl | hrq | hqr
  · omega
  · exact absurd hfirst (Nat.not_le.mpr hrq)
  · have : q.last + 1 < r.first := hqr
    omega

/-- Nor at its start. -/
theorem first_pred_not_mem {xs : List Nat} (h : Ascending xs) {r : Range} (hr : r ∈ ofList xs)
    {m : Nat} (hm : m + 1 = r.first) : m ∉ xs := by
  intro hmem
  have hrle := first_le_last_of_mem_ofList hr
  obtain ⟨q, hq, hfirst, hlast⟩ := mem_ofList_iff.mp hmem
  rcases eq_or_apart h hr hq with rfl | hrq | hqr
  · omega
  · have : r.last + 1 < q.first := hrq
    omega
  · have : q.last + 1 < r.first := hqr
    omega

end Range

namespace LossReport

/-! ## §2. Numbers at the border. -/

/-- The numbers that the words of an entry hold. -/
def Entry.ends : Entry → List Nat
  | single n => [n]
  | range r => [r.first, r.last]
  | opened first => [first]

theorem length_ends (e : Entry) : e.ends.length = e.words.length := by
  cases e <;> rfl

theorem length_flatMap_ends (es : List Entry) :
    (es.flatMap Entry.ends).length = (es.flatMap Entry.words).length := by
  rw [List.length_flatMap, List.length_flatMap, List.map_congr_left fun e _ => length_ends e]

theorem mem_ends_ofRange {r : Range} {n : Nat} :
    n ∈ (Entry.ofRange r).ends ↔ n = r.first ∨ n = r.last := by
  unfold Entry.ofRange
  by_cases hone : r.first = r.last
  · rw [if_pos hone, hone]
    simp [Entry.ends]
  · rw [if_neg hone]
    simp [Entry.ends]

/-- A member with a neighbour that is none. -/
def Border (lost : List Nat) (n : Nat) : Prop :=
  n ∈ lost ∧ (n + 1 ∉ lost ∨ ∀ m, m + 1 = n → m ∉ lost)

/-- The words of a run hold numbers at the border. -/
theorem border_of_mem_ends {xs : List Nat} (h : Ascending xs) {r : Range}
    (hr : r ∈ Range.ofList xs) {n : Nat} (hn : n ∈ (Entry.ofRange r).ends) : Border xs n := by
  have hle := Range.first_le_last_of_mem_ofList hr
  rcases mem_ends_ofRange.mp hn with rfl | rfl
  · exact ⟨Range.first_mem_of_mem_ofList hr,
      Or.inr fun m hm => Range.first_pred_not_mem h hr hm⟩
  · exact ⟨Range.mem_ofList_iff.mpr ⟨r, hr, hle, Nat.le_refl _⟩,
      Or.inl (Range.last_succ_not_mem h hr)⟩

/-- The words of all runs hold ascending numbers, so none of them twice. -/
theorem ascending_ends {xs : List Nat} (h : Ascending xs) :
    Ascending (((Range.ofList xs).map Entry.ofRange).flatMap Entry.ends) := by
  rw [List.flatMap_map]
  refine List.pairwise_flatMap.mpr ⟨fun r hr => ?_, ?_⟩
  · have hle := Range.first_le_last_of_mem_ofList hr
    unfold Entry.ofRange
    by_cases hone : r.first = r.last
    · rw [if_pos hone]
      exact List.pairwise_singleton _ _
    · rw [if_neg hone]
      exact List.pairwise_pair.mpr (Nat.lt_of_le_of_ne hle hone)
  · refine (Range.apart_ofList h).imp_of_mem fun {r q} hr hq hrq a ha b hb => ?_
    have hrle := Range.first_le_last_of_mem_ofList hr
    have hqle := Range.first_le_last_of_mem_ofList hq
    have hgap : r.last + 1 < q.first := hrq
    rcases mem_ends_ofRange.mp ha with rfl | rfl <;>
      rcases mem_ends_ofRange.mp hb with rfl | rfl <;> omega

/-- Whatever entries name the numbers, one of their words holds each number at the border:
inside a range both neighbours are named too. -/
theorem mem_ends_of_border {es : List Entry} {lost : List Nat}
    (hnames : ∀ n, n ∈ es.flatMap Entry.numbers ↔ n ∈ lost) {n : Nat} (hn : Border lost n) :
    n ∈ es.flatMap Entry.ends := by
  obtain ⟨hmem, hborder⟩ := hn
  obtain ⟨e, he, hne⟩ := List.mem_flatMap.mp ((hnames n).mpr hmem)
  refine List.mem_flatMap.mpr ⟨e, he, ?_⟩
  cases e with
  | single m => exact hne
  | opened first => exact absurd hne List.not_mem_nil
  | range r =>
    obtain ⟨hfirst, hlast⟩ := Range.mem_toList.mp hne
    have hinside : ∀ m, r.first ≤ m → m ≤ r.last → m ∈ lost := fun m hm hm' =>
      (hnames m).mp (List.mem_flatMap.mpr ⟨_, he, Range.mem_toList.mpr ⟨hm, hm'⟩⟩)
    -- A neighbour that is not lost lies outside of the range.
    have hend : n = r.first ∨ n = r.last := by
      rcases hborder with hnext | hprev
      · refine Or.inr (Nat.le_antisymm hlast (Nat.le_of_not_lt fun hlt => ?_))
        exact hnext (hinside (n + 1) (by omega) hlt)
      · refine Or.inl (Nat.le_antisymm (Nat.le_of_not_lt fun hlt => ?_) hfirst)
        exact hprev (n - 1) (by omega) (hinside (n - 1) (by omega) (by omega))
    show n ∈ [r.first, r.last]
    simpa using hend

/-! ## §3. No spelling is shorter. -/

/-- The words are single numbers and complete ranges, and name the given numbers and no
others. -/
def Names (ws : List UInt32) (lost : List Nat) : Prop :=
  ∃ es : List Entry, (∀ e ∈ es, e.Complete) ∧ ws = es.flatMap Entry.words
    ∧ ∀ n, n ∈ sequences ⟨ws⟩ ↔ n ∈ lost

theorem names_of_ofSequences {lost : List Nat} {report : LossReport}
    (h : ofSequences lost = .ok report) : Names report.words lost := by
  obtain ⟨hcomplete, hwords⟩ := entries_of_ofSequences h
  refine ⟨_, hcomplete, hwords, fun n => ?_⟩
  show n ∈ report.sequences ↔ _
  rw [sequences_ofSequences h, mem_distinct]

/-- **No spelling is shorter** than the written report. -/
theorem length_words_le {lost : List Nat} {report : LossReport}
    (h : ofSequences lost = .ok report) {ws : List UInt32} (hws : Names ws lost) :
    report.words.length ≤ ws.length := by
  obtain ⟨_, hwords⟩ := entries_of_ofSequences h
  obtain ⟨es, hcomplete, rfl, hnames⟩ := hws
  have hnames' : ∀ n, n ∈ es.flatMap Entry.numbers ↔ n ∈ distinct lost := by
    intro n
    rw [← sequences_flatMap hcomplete, hnames, mem_distinct]
  have hascending := ascending_ends (ascending_distinct lost)
  have hsubset : ((Range.ofList (distinct lost)).map Entry.ofRange).flatMap Entry.ends
      ⊆ es.flatMap Entry.ends := by
    intro n hn
    obtain ⟨e, he, hne⟩ := List.mem_flatMap.mp hn
    obtain ⟨r, hr, rfl⟩ := List.mem_map.mp he
    exact mem_ends_of_border hnames' (border_of_mem_ends (ascending_distinct lost) hr hne)
  -- Different numbers, each of them held by a word of the other spelling.
  have hle := (List.subperm_of_subset (hascending.imp Nat.ne_of_lt) hsubset).length_le
  rw [length_flatMap_ends, length_flatMap_ends, ← hwords] at hle
  exact hle

/-! ## §4. The join in checked words. -/

/-- The next word, unless it overflows. -/
def succ? (w : UInt32) : Option UInt32 :=
  if w.toNat + 1 < UInt32.size then some (w + 1) else none

/-- The words of a run. -/
def runWords (start stop : UInt32) : List UInt32 :=
  if start = stop then [start] else [start ||| 0x80000000, stop]

/-- Join the numbers that follow an open run from `start` to `stop`.  A number continues the
run, or the run is written behind `out` and the number opens the next one. -/
def join? (out : List UInt32) (start stop : UInt32) :
    List Nat → Option (Except CodecError LossReport)
  | [] => some (.ok ⟨out ++ runWords start stop⟩)
  | n :: ns =>
    if sequenceMax < n then some (.error (.sequenceOverflow n))
    else do
      let next ← succ? stop
      if UInt32.ofNat n = next then join? out start next ns
      else join? (out ++ runWords start stop) (UInt32.ofNat n) (UInt32.ofNat n) ns

/-- The report of a list of lost numbers, joined from the least of them on. -/
def ofSequences? (lost : List Nat) : Option (Except CodecError LossReport) :=
  match distinct lost with
  | [] => some (.ok ⟨[]⟩)
  | n :: ns =>
    if sequenceMax < n then some (.error (.sequenceOverflow n))
    else join? [] (UInt32.ofNat n) (UInt32.ofNat n) ns

theorem toNat_ofNat_of_le {n : Nat} (h : n ≤ sequenceMax) : (UInt32.ofNat n).toNat = n :=
  UInt32.toNat_ofNat_of_lt' (Nat.lt_of_le_of_lt h (by decide))

theorem succ?_ofNat {n : Nat} (h : n ≤ sequenceMax) :
    succ? (UInt32.ofNat n) = some (UInt32.ofNat (n + 1)) := by
  have hfits : n + 1 < UInt32.size := Nat.lt_of_le_of_lt (Nat.succ_le_succ h) (by decide)
  unfold succ?
  rw [toNat_ofNat_of_le h, if_pos hfits, ← UInt32.ofNat_one, ← UInt32.ofNat_add]

theorem ofNat_eq_iff {a b : Nat} (ha : a ≤ sequenceMax) (hb : b < UInt32.size) :
    UInt32.ofNat a = UInt32.ofNat b ↔ a = b := by
  rw [← UInt32.toNat_inj, toNat_ofNat_of_le ha, UInt32.toNat_ofNat_of_lt' hb]

/-- A flag over a number of 31 bits is added to it. -/
theorem flag_ofNat {n : Nat} (h : n ≤ sequenceMax) :
    UInt32.ofNat n ||| 0x80000000 = UInt32.ofNat (rangeFlag + n) := by
  have hlow : n < 2 ^ 31 := Nat.lt_succ_of_le h
  have hbits : n ||| 0x80000000 = 2 ^ 31 * 1 + n := by
    rw [Nat.or_comm, Nat.two_pow_add_eq_or_of_lt hlow 1]
  have hword : (UInt32.ofNat (rangeFlag + n)).toNat = rangeFlag + n :=
    UInt32.toNat_ofNat_of_lt' (by unfold rangeFlag UInt32.size; omega)
  rw [← UInt32.toNat_inj, UInt32.toNat_or, toNat_ofNat_of_le h, hword]
  exact hbits

theorem runWords_ofNat {start stop : Nat} (hstart : start ≤ sequenceMax)
    (hstop : stop ≤ sequenceMax) :
    runWords (UInt32.ofNat start) (UInt32.ofNat stop) = rangeWords ⟨start, stop⟩ := by
  have hword : stop < UInt32.size := Nat.lt_of_le_of_lt hstop (by decide)
  unfold runWords rangeWords
  by_cases hone : start = stop
  · rw [if_pos ((ofNat_eq_iff hstart hword).mpr hone), if_pos hone]
  · rw [if_neg (mt (ofNat_eq_iff hstart hword).mp hone), if_neg hone, flag_ofNat hstart]

end LossReport

/-! ## §5. Joining from the front. -/

namespace Range

theorem head?_ofList (xs : List Nat) : (ofList xs).head?.map Range.first = xs.head? := by
  cases xs with
  | nil => rfl
  | cons x xs =>
    rw [ofList_cons]
    match ofList xs with
    | [] => rfl
    | r :: rs =>
      by_cases hjoin : x + 1 = r.first
      · rw [extend_of_eq hjoin]
        rfl
      · rw [extend_of_ne hjoin]
        rfl

/-- A run that the list does not continue is its first range. -/
theorem ofList_toList_append {start stop : Nat} (hle : start ≤ stop) {xs : List Nat}
    (hgap : xs.head? ≠ some (stop + 1)) :
    ofList (toList ⟨start, stop⟩ ++ xs) = ⟨start, stop⟩ :: ofList xs := by
  -- The run is taken apart from its start.
  obtain ⟨more, rfl⟩ := Nat.exists_eq_add_of_le hle
  induction more generalizing start with
  | zero =>
    rw [Nat.add_zero, toList_self, List.singleton_append, ofList_cons]
    have hfirst := head?_ofList xs
    cases hrest : ofList xs with
    | nil => rfl
    | cons r rs =>
      have hapart : ¬ start + 1 = r.first := by
        intro he
        rw [hrest] at hfirst
        rw [← hfirst] at hgap
        exact hgap (congrArg some he.symm)
      exact extend_of_ne hapart rs
  | succ more ih =>
    have hsplit : toList ⟨start, start + (more + 1)⟩
        = start :: toList ⟨start + 1, start + 1 + more⟩ := by
      have hsize : start + (more + 1) + 1 - start = more + 1 + 1 := by omega
      have hsize' : start + 1 + more + 1 - (start + 1) = more + 1 := by omega
      unfold toList size
      simp only [hsize, hsize']
      exact List.range'_succ
    have hstop : start + 1 + more = start + (more + 1) := by omega
    have hrest : ofList (toList ⟨start + 1, start + 1 + more⟩ ++ xs)
        = ⟨start + 1, start + 1 + more⟩ :: ofList xs :=
      ih (Nat.le_add_right _ _) (by rw [hstop]; exact hgap)
    rw [hsplit, List.cons_append, ofList_cons, hrest, extend_of_eq rfl, hstop]

/-- The next number continues a run. -/
theorem toList_succ {start stop : Nat} (hle : start ≤ stop) :
    toList ⟨start, stop + 1⟩ = toList ⟨start, stop⟩ ++ [stop + 1] := by
  have hsize : stop + 1 + 1 - start = stop + 1 - start + 1 := by omega
  have hlast : start + (stop + 1 - start) = stop + 1 := by omega
  unfold toList size
  simp only [hsize]
  rw [List.range'_concat]
  simp only [Nat.one_mul, hlast]

end Range

namespace LossReport

/-- A number behind a run of 31 bits is compared with its next number. -/
theorem join?_cons {stop : Nat} (hstop : stop ≤ sequenceMax) (out : List UInt32) (start : UInt32)
    (n : Nat) (ns : List Nat) :
    join? out start (UInt32.ofNat stop) (n :: ns)
      = if sequenceMax < n then some (.error (.sequenceOverflow n))
        else if UInt32.ofNat n = UInt32.ofNat (stop + 1) then
          join? out start (UInt32.ofNat (stop + 1)) ns
        else join? (out ++ runWords start (UInt32.ofNat stop)) (UInt32.ofNat n)
          (UInt32.ofNat n) ns := by
  rw [join?, succ?_ofNat hstop]
  rfl

/-- Joined onto an open run, the numbers are refused for the first that does not fit, or
written as the runs that they make up together with the open one. -/
theorem join?_eq {ns : List Nat} {start stop : Nat} (hle : start ≤ stop)
    (hstop : stop ≤ sequenceMax) (hns : Ascending (stop :: ns)) (out : List UInt32) :
    (∀ n, ns.find? (sequenceMax < ·) = some n →
        join? out (UInt32.ofNat start) (UInt32.ofNat stop) ns
          = some (.error (.sequenceOverflow n)))
      ∧ (ns.find? (sequenceMax < ·) = none →
        join? out (UInt32.ofNat start) (UInt32.ofNat stop) ns
          = some (.ok ⟨out
              ++ (Range.ofList (Range.toList ⟨start, stop⟩ ++ ns)).flatMap rangeWords⟩)) := by
  have hstart : start ≤ sequenceMax := Nat.le_trans hle hstop
  induction ns generalizing start stop out with
  | nil =>
    refine ⟨fun n hn => absurd hn (by simp), fun _ => ?_⟩
    rw [Range.ofList_toList_append hle (by simp), join?, runWords_ofNat hstart hstop]
    show _ = some (Except.ok (LossReport.mk (out ++ (rangeWords ⟨start, stop⟩ ++ []))))
    rw [List.append_nil]
  | cons n ns ih =>
    obtain ⟨hlt, hns⟩ := List.pairwise_cons.mp hns
    have hstopn : stop < n := hlt n List.mem_cons_self
    rw [join?_cons hstop]
    by_cases hover : sequenceMax < n
    · have hfind : (n :: ns).find? (sequenceMax < ·) = some n :=
        List.find?_cons_of_pos (decide_eq_true hover)
      rw [hfind, if_pos hover]
      refine ⟨fun m hm => ?_, fun hnone => absurd hnone (by simp)⟩
      rw [Option.some.inj hm]
    · have hn : n ≤ sequenceMax := Nat.le_of_not_lt hover
      have hsucc : stop + 1 < UInt32.size :=
        Nat.lt_of_le_of_lt (Nat.succ_le_succ hstop) (by decide)
      have hfind : (n :: ns).find? (sequenceMax < ·) = ns.find? (sequenceMax < ·) :=
        List.find?_cons_of_neg (by simpa using hn)
      rw [hfind, if_neg hover]
      by_cases hnext : n = stop + 1
      · -- The run goes on, and keeps what it has written.
        subst hnext
        have hgrown := ih (Nat.le_succ_of_le hle) hn hns out hstart
        rw [Range.toList_succ hle, List.append_assoc] at hgrown
        rw [if_pos rfl]
        exact hgrown
      · -- The run is complete: it is the first range of all that is left.
        have hopened := ih (Nat.le_refl n) hn hns
          (out ++ runWords (UInt32.ofNat start) (UInt32.ofNat stop)) hn
        have hgap : (n :: ns).head? ≠ some (stop + 1) := fun he => hnext (Option.some.inj he)
        rw [Range.toList_self, List.singleton_append, runWords_ofNat hstart hstop] at hopened
        rw [if_neg (mt (ofNat_eq_iff hn hsucc).mp hnext), Range.ofList_toList_append hle hgap,
          runWords_ofNat hstart hstop, List.flatMap_cons, ← List.append_assoc]
        exact hopened

/-- **No computation of the join overflows**: no check fails, and what is returned is the
report. -/
theorem ofSequences?_eq (lost : List Nat) : ofSequences? lost = some (ofSequences lost) := by
  have hascending := ascending_distinct lost
  unfold ofSequences? ofSequences
  revert hascending
  match distinct lost with
  | [] =>
    intro _
    rfl
  | n :: ns =>
    intro hascending
    simp only
    by_cases hover : sequenceMax < n
    · have hfind : (n :: ns).find? (sequenceMax < ·) = some n :=
        List.find?_cons_of_pos (decide_eq_true hover)
      rw [if_pos hover, hfind]
    · have hn : n ≤ sequenceMax := Nat.le_of_not_lt hover
      obtain ⟨hrefused, hwritten⟩ := join?_eq (Nat.le_refl n) hn hascending []
      rw [Range.toList_self, List.nil_append, List.singleton_append] at hwritten
      have hlater : (n :: ns).find? (sequenceMax < ·) = ns.find? (sequenceMax < ·) :=
        List.find?_cons_of_neg (by simpa using hn)
      rw [if_neg hover, hlater]
      cases hfind : ns.find? (sequenceMax < ·) with
      | some m => exact hrefused m hfind
      | none => exact hwritten hfind

/-! ## §6. What is written, and what is refused. -/

/-- The first number that does not fit is the least of them. -/
theorem find?_distinct {lost : List Nat} {n : Nat} :
    (distinct lost).find? (sequenceMax < ·) = some n
      ↔ IsLeast {m | m ∈ lost ∧ 0x7FFFFFFF < m} n := by
  have hleast : ∀ k, (distinct lost).find? (sequenceMax < ·) = some k →
      IsLeast {m | m ∈ lost ∧ 0x7FFFFFFF < m} k := by
    intro k hfind
    obtain ⟨hover, before, after, hsplit, hbefore⟩ := List.find?_eq_some_iff_append.mp hfind
    have hascending := ascending_distinct lost
    rw [hsplit] at hascending
    refine ⟨⟨mem_distinct.mp (List.mem_of_find?_eq_some hfind), of_decide_eq_true hover⟩, ?_⟩
    rintro m ⟨hm, hmover⟩
    have hmem := mem_distinct.mpr hm
    rw [hsplit] at hmem
    -- What stands before the first number beyond the limit is within it.
    rcases List.mem_append.mp hmem with hm | hm
    · have hfits : (!decide (sequenceMax < m)) = true := hbefore m hm
      rw [decide_eq_true (show sequenceMax < m from hmover)] at hfits
      exact absurd hfits (by simp)
    · rcases List.mem_cons.mp hm with rfl | hm
      · exact Nat.le_refl _
      · have hlater := (List.pairwise_append.mp hascending).2.1
        exact Nat.le_of_lt ((List.pairwise_cons.mp hlater).1 m hm)
  refine ⟨hleast n, fun hn => ?_⟩
  cases hfind : (distinct lost).find? (sequenceMax < ·) with
  | none =>
    have hfits := List.find?_eq_none.mp hfind n (mem_distinct.mpr hn.1.1)
    exact absurd (decide_eq_true (show sequenceMax < n from hn.1.2)) hfits
  | some k =>
    have hk := hleast k hfind
    rw [Nat.le_antisymm (hk.2 hn.1) (hn.2 hk.1)]

theorem ofSequences_eq_error_iff {lost : List Nat} {e : CodecError} :
    ofSequences lost = .error e
      ↔ ∃ n, IsLeast {m | m ∈ lost ∧ 0x7FFFFFFF < m} n ∧ e = .sequenceOverflow n := by
  constructor
  · intro h
    unfold ofSequences at h
    simp only at h
    cases hfind : (distinct lost).find? (sequenceMax < ·) with
    | none =>
      rw [hfind] at h
      exact absurd h (by simp)
    | some n =>
      rw [hfind] at h
      exact ⟨n, find?_distinct.mp hfind, (Except.error.inj h).symm⟩
  · rintro ⟨n, hn, rfl⟩
    unfold ofSequences
    simp only [find?_distinct.mpr hn]

/-- Reports are equal exactly if they are written from the same set of numbers. -/
theorem ofSequences_inj {lost other : List Nat} {report again : LossReport}
    (h : ofSequences lost = .ok report) (hother : ofSequences other = .ok again) :
    again = report ↔ ∀ n, n ∈ other ↔ n ∈ lost := by
  constructor
  · rintro rfl n
    have hsame : distinct other = distinct lost :=
      (sequences_ofSequences hother).symm.trans (sequences_ofSequences h)
    rw [← mem_distinct, hsame, mem_distinct]
  · intro hmem
    have hsame : distinct other = distinct lost := by
      refine Ascending.ext (ascending_distinct _) (ascending_distinct _) fun n => ?_
      rw [mem_distinct, mem_distinct, hmem]
    have hreports : ofSequences other = ofSequences lost := by
      unfold ofSequences
      rw [hsame]
    exact Except.ok.inj (hother.symm.trans (hreports.trans h))

/-- **A loss report is canonical and the shortest one.**  It is refused exactly for the least of
the numbers above 31 bits.  Otherwise it names the given numbers once each, lowest first, it
depends on their set alone, and no other list of numbers and complete ranges that names them has
fewer words.  Joined in words of 32 bits, nothing overflows. -/
theorem canonical_and_shortest (lost : List Nat) :
    ((∃ e, ofSequences lost = .error e) ↔ ∃ n ∈ lost, 0x7FFFFFFF < n)
      ∧ (∀ e, ofSequences lost = .error e ↔
          ∃ n, IsLeast {m | m ∈ lost ∧ 0x7FFFFFFF < m} n ∧ e = .sequenceOverflow n)
      ∧ (∀ report, ofSequences lost = .ok report →
          (Ascending report.sequences ∧ ∀ n, n ∈ report.sequences ↔ n ∈ lost)
            ∧ (∀ other again, ofSequences other = .ok again →
                (again = report ↔ ∀ n, n ∈ other ↔ n ∈ lost))
            ∧ IsLeast {k | ∃ ws, Names ws lost ∧ ws.length = k} report.words.length)
      ∧ ofSequences? lost = some (ofSequences lost) := by
  refine ⟨⟨?_, ?_⟩, fun e => ofSequences_eq_error_iff, fun report h => ⟨⟨?_, fun n => ?_⟩, ?_, ?_⟩,
    ofSequences?_eq lost⟩
  · rintro ⟨e, h⟩
    obtain ⟨n, hn, _⟩ := ofSequences_eq_error_iff.mp h
    exact ⟨n, hn.1⟩
  · rintro ⟨n, hn, hover⟩
    cases h : ofSequences lost with
    | error e => exact ⟨e, rfl⟩
    | ok report =>
      have hfits := (eq_of_ofSequences h).1 n (mem_distinct.mpr hn)
      exact absurd hover (Nat.not_lt.mpr hfits)
  · rw [sequences_ofSequences h]
    exact ascending_distinct lost
  · rw [sequences_ofSequences h, mem_distinct]
  · intro other again hother
    exact ofSequences_inj h hother
  · refine ⟨⟨report.words, names_of_ofSequences h, rfl⟩, ?_⟩
    rintro k ⟨ws, hws, rfl⟩
    exact length_words_le h hws

/-- Three neighbours and the largest number take three words, and no report does with two. -/
theorem neighbours_and_largest :
    let lost : List Nat := [5, 0x7FFFFFFF, 3, 4, 5]
    let report : LossReport := ⟨[0x80000003, 5, 0x7FFFFFFF]⟩
    ofSequences lost = .ok report ∧ Ascending report.sequences
      ∧ IsLeast {k | ∃ ws, Names ws lost ∧ ws.length = k} 3 := by
  intro lost report
  have hdistinct : distinct lost = [3, 4, 5, 0x7FFFFFFF] := by
    refine Ascending.ext (ascending_distinct lost) (by decide) fun n => ?_
    rw [mem_distinct]
    simp only [lost, List.mem_cons, List.not_mem_nil, or_false]
    omega
  have h : ofSequences lost = .ok report := by
    unfold ofSequences
    rw [hdistinct]
    rfl
  obtain ⟨⟨hascending, _⟩, _, hleast⟩ := (canonical_and_shortest lost).2.2.1 report h
  exact ⟨h, hascending, hleast⟩

end LossReport

end ReliableSender
