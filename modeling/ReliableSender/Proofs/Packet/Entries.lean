/-
  ReliableSender.Proofs.Packet.Entries
  ────────────────────────────────────
  **THE ENTRIES OF A LOSS REPORT.**

  What a word of a loss report means depends on what stands before it: behind
  a word that opens a range it is the end of that range, whatever its highest
  bit says.  So a report is understood entry by entry, and an entry is a
  number, a range, or a range that the report leaves open.

  A reader takes the entries while every range is closed, none is too long
  and all of them together name few enough numbers.  The first entry beyond
  that decides the error:

      sequences_flatMap — what complete entries name
      read_verdict      — which octets are a loss report, with which numbers,
                          and why all others are refused
-/
import Mathlib.Algebra.GroupWithZero.Nat
import ReliableSender.Packet.Decode
import ReliableSender.Proofs.Bytes
import ReliableSender.Proofs.Packet.LossReport

namespace ReliableSender.LossReport

/-! ## §1. Entries and their words. -/

/-- One entry of a loss report. -/
inductive Entry where
  | single (n : Nat)
  | range (r : Range)
  /-- A word that opens a range, with no word behind it. -/
  | opened (first : Nat)
  deriving DecidableEq, Repr

namespace Entry

/-- The numbers an entry names: none, if its range ends before it starts. -/
def numbers : Entry → List Nat
  | single n => [n]
  | range r => r.toList
  | opened _ => []

/-- How many numbers an entry counts for. -/
def size : Entry → Nat
  | single _ => 1
  | range r => r.size
  | opened _ => 0

/-- The words of an entry. -/
def words : Entry → List UInt32
  | single n => [UInt32.ofNat n]
  | range r => [UInt32.ofNat (rangeFlag + r.first), UInt32.ofNat r.last]
  | opened first => [UInt32.ofNat (rangeFlag + first)]

/-- A single number or a range with an end, of numbers below 2³¹. -/
def Complete : Entry → Prop
  | single n => n < 2 ^ 31
  | range r => r.first < 2 ^ 31 ∧ r.last < 2 ^ 31
  | opened _ => False

theorem length_numbers (e : Entry) : e.numbers.length = e.size := by
  cases e with
  | single n => rfl
  | range r => exact r.length_toList
  | opened first => rfl

theorem lt_of_mem_numbers {e : Entry} (h : e.Complete) {n : Nat} (hn : n ∈ e.numbers) :
    n < 2 ^ 31 := by
  cases e with
  | single m =>
    obtain rfl := List.mem_singleton.mp hn
    exact h
  | range r => exact Nat.lt_of_le_of_lt (Range.mem_toList.mp hn).2 h.2
  | opened first => exact absurd hn List.not_mem_nil

end Entry

/-- How many numbers entries count for together. -/
def total (es : List Entry) : Nat := (es.map Entry.size).sum

@[simp] theorem total_nil : total [] = 0 := rfl

@[simp] theorem total_cons (e : Entry) (es : List Entry) :
    total (e :: es) = e.size + total es := List.sum_cons

theorem length_flatMap_numbers (es : List Entry) :
    (es.flatMap Entry.numbers).length = total es := by
  rw [List.length_flatMap, List.map_congr_left fun e _ => e.length_numbers]
  rfl

/-! ## §2. The entries that words spell. -/

/-- The entries of a list of words.  The end of a range counts without its highest bit. -/
def entries : List UInt32 → List Entry
  | [] => []
  | [w] => if opensRange w then [.opened (number w)] else [.single (number w)]
  | w :: stop :: rest =>
    -- The end is not asked whether it opens a range of its own.
    if opensRange w then .range ⟨number w, number stop⟩ :: entries rest
    else .single (number w) :: entries (stop :: rest)

theorem entries_single {w : UInt32} (h : opensRange w = false) (rest : List UInt32) :
    entries (w :: rest) = .single (number w) :: entries rest := by
  cases rest with
  | nil =>
    unfold entries
    rw [h]
    rfl
  | cons stop rest =>
    rw [entries, h]
    rfl

theorem entries_range {w : UInt32} (h : opensRange w = true) (stop : UInt32)
    (rest : List UInt32) :
    entries (w :: stop :: rest) = .range ⟨number w, number stop⟩ :: entries rest := by
  rw [entries, if_pos h]

theorem entries_opened {w : UInt32} (h : opensRange w = true) :
    entries [w] = [.opened (number w)] := by
  unfold entries
  rw [if_pos h]

/-- The words that spell a first entry, and the words behind them. -/
inductive Spells : List UInt32 → Entry → List UInt32 → Prop where
  | single {w : UInt32} (flag : opensRange w = false) (rest : List UInt32) :
      Spells (w :: rest) (.single (number w)) rest
  | range {w : UInt32} (flag : opensRange w = true) (stop : UInt32) (rest : List UInt32) :
      Spells (w :: stop :: rest) (.range ⟨number w, number stop⟩) rest
  | opened {w : UInt32} (flag : opensRange w = true) : Spells [w] (.opened (number w)) []

theorem entries_eq_nil {ws : List UInt32} (h : entries ws = []) : ws = [] := by
  match ws with
  | [] => rfl
  | [w] =>
    unfold entries at h
    split at h <;> exact absurd h (by simp)
  | w :: stop :: rest =>
    rw [entries] at h
    split at h <;> exact absurd h (by simp)

theorem spells_of_entries_cons {ws : List UInt32} {e : Entry} {es : List Entry}
    (h : entries ws = e :: es) : ∃ rest, Spells ws e rest ∧ entries rest = es := by
  match ws with
  | [] => exact absurd h (by simp [entries])
  | w :: rest =>
    by_cases hflag : opensRange w = true
    · match rest with
      | [] =>
        rw [entries_opened hflag] at h
        obtain ⟨rfl, rfl⟩ := List.cons.inj h
        exact ⟨[], .opened hflag, rfl⟩
      | stop :: rest =>
        rw [entries_range hflag] at h
        obtain ⟨rfl, rfl⟩ := List.cons.inj h
        exact ⟨rest, .range hflag stop rest, rfl⟩
    · have hflag : opensRange w = false := Bool.eq_false_iff.mpr hflag
      rw [entries_single hflag] at h
      obtain ⟨rfl, rfl⟩ := List.cons.inj h
      exact ⟨rest, .single hflag rest, rfl⟩

/-- Words hold numbers of 31 bits. -/
theorem number_lt (w : UInt32) : number w < 2 ^ 31 := Nat.lt_succ_of_le (number_le w)

/-- An entry that words spell is complete, unless it is left open. -/
theorem Spells.complete {ws rest : List UInt32} {e : Entry} (h : Spells ws e rest)
    (hclosed : ∀ first, e ≠ .opened first) : e.Complete := by
  cases h with
  | @single w flag => exact number_lt w
  | @range w flag stop => exact ⟨number_lt w, number_lt stop⟩
  | @opened w flag => exact absurd rfl (hclosed (number w))

/-! ## §3. What entries name. -/

/-- A word that opens no range is a range of one number. -/
theorem ranges_go_single {w : UInt32} (h : opensRange w = false) (done : List Range)
    (rest : List UInt32) :
    ranges.go done (w :: rest) = ranges.go (⟨number w, number w⟩ :: done) rest := by
  cases rest with
  | nil => rfl
  | cons stop rest =>
    rw [ranges.go, h]
    rfl

/-- The words of a complete entry stand for one range, which holds its numbers. -/
theorem ranges_go_words {e : Entry} (h : e.Complete) :
    ∃ r : Range, r.toList = e.numbers
      ∧ ∀ done rest, ranges.go done (e.words ++ rest) = ranges.go (r :: done) rest := by
  cases e with
  | single n =>
    have hn : n ≤ sequenceMax := Nat.le_of_lt_succ h
    refine ⟨⟨n, n⟩, Range.toList_self n, fun done rest => ?_⟩
    show ranges.go done (UInt32.ofNat n :: rest) = _
    rw [ranges_go_single (opensRange_ofNat hn), number_ofNat hn]
  | range r =>
    have hfirst : r.first ≤ sequenceMax := Nat.le_of_lt_succ h.1
    -- The end carries no flag, so all of its word is the number.
    have hlast : (UInt32.ofNat r.last).toNat = r.last :=
      UInt32.toNat_ofNat_of_lt' (Nat.lt_trans h.2 (by decide))
    refine ⟨r, rfl, fun done rest => ?_⟩
    show ranges.go done (UInt32.ofNat (rangeFlag + r.first) :: UInt32.ofNat r.last :: rest) = _
    rw [ranges.go, if_pos (opensRange_ofNat_flagged hfirst), number_ofNat_flagged hfirst, hlast]
  | opened first => exact absurd h id

/-- **What a report names** is what its entries name, one after the other. -/
theorem sequences_flatMap {es : List Entry} (hes : ∀ e ∈ es, e.Complete) :
    sequences ⟨es.flatMap Entry.words⟩ = es.flatMap Entry.numbers := by
  -- The ranges found so far are carried along.
  have hgo : ∀ done, (ranges.go done (es.flatMap Entry.words)).flatMap Range.toList
      = done.reverse.flatMap Range.toList ++ es.flatMap Entry.numbers := by
    induction es with
    | nil =>
      intro done
      show (ranges.go done []).flatMap Range.toList = _
      rw [ranges.go, List.flatMap_nil, List.append_nil]
    | cons e es ih =>
      intro done
      obtain ⟨r, hr, hgo⟩ := ranges_go_words (hes e List.mem_cons_self)
      rw [List.flatMap_cons, hgo, ih fun d hd => hes d (List.mem_cons_of_mem e hd),
        List.reverse_cons, List.flatMap_append, List.flatMap_singleton, hr, List.flatMap_cons,
        List.append_assoc]
  exact hgo []

/-! ## §4. What a reader takes. -/

/-- What a reader takes behind entries that count for `named` numbers. -/
structure Acceptable (named : Nat) (es : List Entry) : Prop where
  closed : ∀ first, .opened first ∉ es
  short : ∀ r, .range r ∈ es → r.size ≤ 65536
  few : named + total es ≤ 65536

/-- Why a reader refuses an entry behind entries that count for `named` numbers. -/
inductive Refused (named : Nat) : Entry → CodecError → Prop where
  | unterminated (first : Nat) : Refused named (.opened first) (.unterminatedRange first)
  | tooLong {r : Range} (long : 65536 < r.size) :
      Refused named (.range r) (.lossRangeTooLarge r.first r.last)
  | singleTooMany (n : Nat) (many : 65536 < named + 1) :
      Refused named (.single n) (.tooManyLosses (named + 1))
  | rangeTooMany {r : Range} (short : r.size ≤ 65536) (many : 65536 < named + r.size) :
      Refused named (.range r) (.tooManyLosses (named + r.size))

theorem acceptable_nil {named : Nat} : Acceptable named [] ↔ named ≤ 65536 :=
  ⟨fun h => h.few, fun h => ⟨fun _ => List.not_mem_nil, fun _ hr => absurd hr List.not_mem_nil, h⟩⟩

theorem acceptable_cons {named : Nat} {e : Entry} {es : List Entry} :
    Acceptable named (e :: es) ↔ Acceptable named [e] ∧ Acceptable (named + e.size) es := by
  constructor
  · intro h
    have hfew := h.few
    rw [total_cons] at hfew
    refine ⟨⟨fun first hmem => h.closed first ?_, fun r hmem => h.short r ?_, ?_⟩,
      ⟨fun first hmem => h.closed first (List.mem_cons_of_mem e hmem),
        fun r hmem => h.short r (List.mem_cons_of_mem e hmem), by omega⟩⟩
    · exact List.mem_cons.mpr (Or.inl (List.mem_singleton.mp hmem))
    · exact List.mem_cons.mpr (Or.inl (List.mem_singleton.mp hmem))
    · rw [total_cons, total_nil]
      omega
  · rintro ⟨he, hes⟩
    have hfew := hes.few
    refine ⟨fun first hmem => ?_, fun r hmem => ?_, by rw [total_cons]; omega⟩
    · rcases List.mem_cons.mp hmem with rfl | hmem
      · exact he.closed first List.mem_cons_self
      · exact hes.closed first hmem
    · rcases List.mem_cons.mp hmem with rfl | hmem
      · exact he.short r List.mem_cons_self
      · exact hes.short r hmem

/-- A reader takes an entry or has a reason not to. -/
theorem acceptable_or_refused {named : Nat} (hnamed : named ≤ 65536) (e : Entry) :
    Acceptable named [e] ∨ ∃ err, Refused named e err := by
  cases e with
  | opened first => exact Or.inr ⟨_, .unterminated first⟩
  | single n =>
    by_cases hmany : 65536 < named + 1
    · exact Or.inr ⟨_, .singleTooMany n hmany⟩
    · refine Or.inl ⟨by simp, by simp, ?_⟩
      show named + (1 + 0) ≤ 65536
      omega
  | range r =>
    by_cases hlong : 65536 < r.size
    · exact Or.inr ⟨_, .tooLong hlong⟩
    · by_cases hmany : 65536 < named + r.size
      · exact Or.inr ⟨_, .rangeTooMany (Nat.le_of_not_lt hlong) hmany⟩
      · refine Or.inl ⟨by simp, fun q hq => ?_, ?_⟩
        · obtain rfl := Entry.range.inj (List.mem_singleton.mp hq)
          exact Nat.le_of_not_lt hlong
        · show named + (r.size + 0) ≤ 65536
          omega

/-- Entries are taken as a whole, or there is a first one that is refused. -/
theorem acceptable_or_first_refused {named : Nat} (hnamed : named ≤ 65536) (es : List Entry) :
    Acceptable named es ∨ ∃ before e after err, es = before ++ e :: after
      ∧ Acceptable named before ∧ Refused (named + total before) e err := by
  induction es generalizing named with
  | nil => exact Or.inl (acceptable_nil.mpr hnamed)
  | cons e es ih =>
    rcases acceptable_or_refused hnamed e with he | ⟨err, herr⟩
    · -- The next entry is judged behind the numbers that are taken so far.
      have hfew : named + e.size ≤ 65536 := he.few
      rcases ih hfew with hes | ⟨before, e', after, err, rfl, hbefore, herr⟩
      · exact Or.inl (acceptable_cons.mpr ⟨he, hes⟩)
      · refine Or.inr ⟨e :: before, e', after, err, rfl, acceptable_cons.mpr ⟨he, hbefore⟩, ?_⟩
        rw [total_cons, ← Nat.add_assoc]
        exact herr
    · exact Or.inr ⟨[], e, es, err, rfl, acceptable_nil.mpr hnamed, herr⟩

/-- What a refusal for too many numbers reports. -/
theorem Refused.bounds {named n : Nat} {e : Entry} (hnamed : named ≤ 65536)
    (h : Refused named e (.tooManyLosses n)) : 65537 ≤ n ∧ n ≤ 131072 := by
  cases h with
  | singleTooMany _ many => omega
  | rangeTooMany short many => omega

/-! ## §5. Reading entry by entry. -/

/-- Reading takes an acceptable entry over, and stops at a refused one. -/
theorem ofWords_go_entry {ws rest : List UInt32} {e : Entry} (h : Spells ws e rest) (named : Nat)
    (kept : List UInt32) :
    (Acceptable named [e] →
        ofWords.go named kept ws = ofWords.go (named + e.size) (e.words.reverse ++ kept) rest)
      ∧ ∀ err, Refused named e err → ofWords.go named kept ws = .error err := by
  cases h with
  | @single w flag =>
    rw [ofWords_go_single flag]
    constructor
    · intro he
      have hfew : ¬ maxLossEntries < named + 1 := Nat.not_lt.mpr he.few
      -- Without a flag, what is kept is the word itself.
      have hword : UInt32.ofNat (number w) = w := by
        have hlow : w.toNat < rangeFlag := Nat.lt_of_not_le (of_decide_eq_false flag)
        unfold number
        rw [Nat.mod_eq_of_lt hlow, UInt32.ofNat_toNat]
      rw [if_neg hfew]
      show _ = ofWords.go (named + 1) (UInt32.ofNat (number w) :: kept) rest
      rw [hword]
    · intro err herr
      cases herr with
      | singleTooMany _ many => exact if_pos many
  | @range w flag stop =>
    rw [ofWords_go_range flag]
    constructor
    · intro he
      have hshort : ¬ maxLossRange < (Range.mk (number w) (number stop)).size :=
        Nat.not_lt.mpr (he.short _ List.mem_cons_self)
      have hfew : ¬ maxLossEntries < named + (Range.mk (number w) (number stop)).size :=
        Nat.not_lt.mpr he.few
      -- The start is kept with its flag, the end without one.
      have hword : UInt32.ofNat (rangeFlag + number w) = w := by
        have hhigh : rangeFlag ≤ w.toNat := of_decide_eq_true flag
        have hall := w.toNat_lt
        have hsplit : rangeFlag + w.toNat % rangeFlag = w.toNat := by
          unfold rangeFlag at *
          omega
        unfold number
        rw [hsplit, UInt32.ofNat_toNat]
      rw [if_neg hshort, if_neg hfew]
      show _ = ofWords.go _
        (UInt32.ofNat (number stop) :: UInt32.ofNat (rangeFlag + number w) :: kept) rest
      rw [hword]
      rfl
    · intro err herr
      cases herr with
      | tooLong long => exact if_pos long
      | rangeTooMany short many =>
        have hshort : ¬ maxLossRange < (Range.mk (number w) (number stop)).size :=
          Nat.not_lt.mpr short
        rw [if_neg hshort]
        exact if_pos many
  | @opened w flag =>
    constructor
    · intro he
      exact absurd List.mem_cons_self (he.closed (number w))
    · intro err herr
      cases herr with
      | unterminated => rw [ofWords.go, if_pos flag]

theorem ofWords_go_acceptable {ws : List UInt32} {es : List Entry} (hws : entries ws = es)
    {named : Nat} (hes : Acceptable named es) (kept : List UInt32) :
    ofWords.go named kept ws = .ok ⟨kept.reverse ++ es.flatMap Entry.words⟩ := by
  induction es generalizing ws named kept with
  | nil =>
    obtain rfl := entries_eq_nil hws
    rw [ofWords.go, List.flatMap_nil, List.append_nil]
  | cons e es ih =>
    obtain ⟨rest, hspells, hrest⟩ := spells_of_entries_cons hws
    obtain ⟨he, hes⟩ := acceptable_cons.mp hes
    rw [(ofWords_go_entry hspells named kept).1 he, ih hrest hes, List.reverse_append,
      List.reverse_reverse, List.flatMap_cons, List.append_assoc]

theorem ofWords_go_refused {ws : List UInt32} {before after : List Entry} {e : Entry}
    (hws : entries ws = before ++ e :: after) {named : Nat} (hbefore : Acceptable named before)
    {err : CodecError} (herr : Refused (named + total before) e err) (kept : List UInt32) :
    ofWords.go named kept ws = .error err := by
  induction before generalizing ws named kept with
  | nil =>
    obtain ⟨rest, hspells, _⟩ := spells_of_entries_cons hws
    exact (ofWords_go_entry hspells named kept).2 err herr
  | cons d before ih =>
    obtain ⟨rest, hspells, hrest⟩ := spells_of_entries_cons hws
    obtain ⟨hd, hbefore⟩ := acceptable_cons.mp hbefore
    rw [total_cons, ← Nat.add_assoc] at herr
    rw [(ofWords_go_entry hspells named kept).1 hd]
    exact ih hrest hbefore herr _

/-- Entries that words spell are complete, if none of them is left open. -/
theorem complete_entries {ws : List UInt32} {es : List Entry} (hws : entries ws = es)
    (hclosed : ∀ first, .opened first ∉ es) : ∀ e ∈ es, e.Complete := by
  induction es generalizing ws with
  | nil =>
    intro e he
    exact absurd he List.not_mem_nil
  | cons d es ih =>
    obtain ⟨rest, hspells, hrest⟩ := spells_of_entries_cons hws
    refine List.forall_mem_cons.mpr ⟨hspells.complete ?_, ih hrest ?_⟩
    · rintro first rfl
      exact hclosed first List.mem_cons_self
    · intro first hmem
      exact hclosed first (List.mem_cons_of_mem d hmem)

/-! ## §6. The verdict on received octets. -/

/-- The entries of a received body: those of its whole words, most significant octet first. -/
def received (b : Bytes) : List Entry :=
  entries ((List.range (b.length / 4)).map fun i => b.wordAt (4 * i))

theorem read_eq (b : Bytes) :
    read b = (ofWords ((List.range (b.length / 4)).map fun i => b.wordAt (4 * i))).map
      fun report => (report, b.drop (4 * (b.length / 4))) := by
  unfold read
  rw [Bytes.words_eq]
  simp only
  cases ofWords ((List.range (b.length / 4)).map fun i => b.wordAt (4 * i)) <;> rfl

/-- **The verdict on a received loss report.**  It is taken exactly if its ranges are closed and
short and all its entries together name at most 65536 numbers; otherwise the first entry that
breaks one of these rules gives the error.  A report that is taken names what its entries name,
in their order, and up to three octets behind its last word are left unread. -/
theorem read_verdict (b : Bytes) :
    ((∃ report rest, read b = .ok (report, rest)) ↔ Acceptable 0 (received b))
      ∧ (∀ e, read b = .error e ↔
          ∃ before entry after, received b = before ++ entry :: after
            ∧ Acceptable 0 before ∧ Refused (total before) entry e)
      ∧ (∀ n, read b = .error (.tooManyLosses n) → 65537 ≤ n ∧ n ≤ 131072)
      ∧ ∀ report rest, read b = .ok (report, rest) →
          rest = b.drop (4 * (b.length / 4))
            ∧ report.sequences = (received b).flatMap Entry.numbers
            ∧ report.sequences.length = total (received b)
            ∧ ∀ n ∈ report.sequences, n < 2 ^ 31 := by
  have htaken : Acceptable 0 (received b) →
      read b = .ok (⟨(received b).flatMap Entry.words⟩, b.drop (4 * (b.length / 4))) := by
    intro h
    rw [read_eq, ofWords, ofWords_go_acceptable rfl h]
    rfl
  have hrefused : ∀ before entry after e, received b = before ++ entry :: after →
      Acceptable 0 before → Refused (total before) entry e → read b = .error e := by
    intro before entry after e hsplit hbefore herr
    rw [← Nat.zero_add (total before)] at herr
    rw [read_eq, ofWords, ofWords_go_refused hsplit hbefore herr]
    rfl
  -- One of the two happens, so each verdict also says which entries were received.
  have hverdict := acceptable_or_first_refused (Nat.zero_le 65536) (received b)
  have hacceptable : ∀ report rest, read b = .ok (report, rest) → Acceptable 0 (received b) := by
    intro report rest hread
    rcases hverdict with h | ⟨before, entry, after, e, hsplit, hbefore, herr⟩
    · exact h
    · rw [Nat.zero_add] at herr
      have herror := hrefused before entry after e hsplit hbefore herr
      exact absurd (hread.symm.trans herror) (by simp)
  have hfirst : ∀ e, read b = .error e →
      ∃ before entry after, received b = before ++ entry :: after
        ∧ Acceptable 0 before ∧ Refused (total before) entry e := by
    intro e hread
    rcases hverdict with h | ⟨before, entry, after, e', hsplit, hbefore, herr⟩
    · exact absurd (hread.symm.trans (htaken h)) (by simp)
    · rw [Nat.zero_add] at herr
      have herror := hrefused before entry after e' hsplit hbefore herr
      obtain rfl := Except.error.inj (hread.symm.trans herror)
      exact ⟨before, entry, after, hsplit, hbefore, herr⟩
  refine ⟨⟨fun ⟨report, rest, hread⟩ => hacceptable report rest hread,
      fun h => ⟨_, _, htaken h⟩⟩,
    fun e => ⟨hfirst e, fun ⟨before, entry, after, hsplit, hbefore, herr⟩ =>
      hrefused before entry after e hsplit hbefore herr⟩, fun n hread => ?_,
    fun report rest hread => ?_⟩
  · obtain ⟨before, entry, _, _, hbefore, herr⟩ := hfirst _ hread
    have hfew := hbefore.few
    rw [Nat.zero_add] at hfew
    exact herr.bounds hfew
  · have h := hacceptable report rest hread
    have hcomplete : ∀ e ∈ received b, e.Complete := complete_entries rfl h.closed
    obtain ⟨rfl, rfl⟩ := Prod.mk.inj (Except.ok.inj (hread.symm.trans (htaken h)))
    have hnamed := sequences_flatMap hcomplete
    refine ⟨rfl, hnamed, ?_, fun n hn => ?_⟩
    · rw [hnamed, length_flatMap_numbers]
    · rw [hnamed] at hn
      obtain ⟨e, he, hn⟩ := List.mem_flatMap.mp hn
      exact Entry.lt_of_mem_numbers (hcomplete e he) hn

/-- The range from 3 to 5, whose end carries a flag that does not count, the number 9, and an
octet that fills no word. -/
theorem flagged_end_read :
    let b := Bytes.ofWords [0x80000003, 0x80000005, 9] ++ [7]
    let report : LossReport := ⟨[0x80000003, 5, 9]⟩
    read b = .ok (report, [7]) ∧ received b = [.range ⟨3, 5⟩, .single 9]
      ∧ report.sequences = [3, 4, 5, 9] ∧ ∀ n ∈ report.sequences, n < 2 ^ 31 := by
  intro b report
  have hread : read b = .ok (report, [7]) := by decide
  have hreceived : received b = [.range ⟨3, 5⟩, .single 9] := by decide
  obtain ⟨_, hnamed, _, hbound⟩ := (read_verdict b).2.2.2 report [7] hread
  rw [hreceived] at hnamed
  exact ⟨hread, hreceived, hnamed, hbound⟩

end ReliableSender.LossReport
