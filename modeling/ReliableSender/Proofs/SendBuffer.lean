/-
  ReliableSender.Proofs.SendBuffer
  ────────────────────────────────
  **WHAT THE OPERATIONS OF THE SEND BUFFER DO TO ITS NUMBERS.**

  Three views carry every argument about the buffer: the numbers it holds
  (`keys`), the bound below which everything is acknowledged (`lastAck`) and
  the count of packets in flight.

      mem_keys_push         — a push adds one number and takes none away
      mem_keys_removeUpTo   — an acknowledgment of `k` takes `[lastAck, k)` away
      Counted               — the count in flight is the number of entries
      removeUpTo_removeUpTo — two acknowledgments come to the larger one

  The count is an invariant of both operations, so its two copies never part.
-/
import ReliableSender.SendBuffer
import Mathlib.Data.List.Nodup

namespace ReliableSender

/-! ## §1. Inserting into an ascending list. -/

variable {α : Type}

/-- An element whose key is not taken is added, and nothing else changes. -/
theorem insertBy_perm {key : α → Nat} {x : α} {xs : List α}
    (h : ∀ y ∈ xs, key y ≠ key x) : (insertBy key x xs).Perm (x :: xs) := by
  induction xs with
  | nil => exact List.Perm.refl _
  | cons y ys ih =>
    have hy : key x ≠ key y := fun he => h y List.mem_cons_self he.symm
    have hys := ih fun z hz => h z (List.mem_cons_of_mem y hz)
    unfold insertBy
    rw [if_neg hy]
    split
    · exact List.Perm.refl _
    · exact (hys.cons y).trans (List.Perm.swap x y ys)

namespace SendBuffer

/-! ## §2. Looking. -/

theorem mem_keys {b : SendBuffer} {s : Nat} :
    s ∈ b.keys ↔ ∃ p ∈ b.entries, p.sequence = s := by
  unfold keys
  exact List.mem_map

theorem contains_eq_false_iff {b : SendBuffer} {s : Nat} :
    b.contains s = false ↔ s ∉ b.keys := by
  rw [← contains_eq_true_iff, Bool.not_eq_true]

theorem contains_of_empty {b : SendBuffer} (h : b.entries = []) (s : Nat) :
    b.contains s = false := by
  unfold contains
  rw [h]
  rfl

/-- What is found under a number is an entry with that number. -/
theorem mem_of_get? {b : SendBuffer} {s : Nat} {p : DataPacket} (h : b.get? s = some p) :
    p ∈ b.entries ∧ p.sequence = s := by
  unfold get? at h
  exact ⟨List.mem_of_find?_eq_some h, by simpa using List.find?_some h⟩

/-- No two entries have the same number. -/
theorem eq_of_sequence_eq {b : SendBuffer} {p q : DataPacket} (hp : p ∈ b.entries)
    (hq : q ∈ b.entries) (h : p.sequence = q.sequence) : p = q := by
  have hnodup : (b.entries.map DataPacket.sequence).Nodup :=
    b.ascending_keys.imp fun hlt => Nat.ne_of_lt hlt
  exact List.inj_on_of_nodup_map hnodup hp hq h

theorem get?_eq_some_iff {b : SendBuffer} {s : Nat} {p : DataPacket} :
    b.get? s = some p ↔ p ∈ b.entries ∧ p.sequence = s := by
  refine ⟨mem_of_get?, fun ⟨hp, hs⟩ => ?_⟩
  cases hg : b.get? s with
  | none =>
    have hne := List.find?_eq_none.mp hg p hp
    exact absurd (beq_iff_eq.mpr hs) hne
  | some q =>
    obtain ⟨hq, hqs⟩ := mem_of_get? hg
    rw [eq_of_sequence_eq hq hp (hqs.trans hs.symm)]

/-! ## §3. A push. -/

theorem push_entries_perm {b : SendBuffer} {p : DataPacket} (h : b.contains p.sequence = false) :
    (b.push p).entries.Perm (p :: b.entries) := by
  refine insertBy_perm fun q hq he => ?_
  exact contains_eq_false_iff.mp h (mem_keys.mpr ⟨q, hq, he⟩)

theorem mem_push {b : SendBuffer} {p q : DataPacket} (h : b.contains p.sequence = false) :
    q ∈ (b.push p).entries ↔ q = p ∨ q ∈ b.entries := by
  rw [(push_entries_perm h).mem_iff, List.mem_cons]

theorem mem_keys_push {b : SendBuffer} {p : DataPacket} {s : Nat}
    (h : b.contains p.sequence = false) :
    s ∈ (b.push p).keys ↔ s = p.sequence ∨ s ∈ b.keys := by
  rw [mem_keys, mem_keys]
  constructor
  · rintro ⟨q, hq, rfl⟩
    rcases (mem_push h).mp hq with rfl | hq
    · exact Or.inl rfl
    · exact Or.inr ⟨q, hq, rfl⟩
  · rintro (rfl | ⟨q, hq, rfl⟩)
    · exact ⟨p, (mem_push h).mpr (Or.inl rfl), rfl⟩
    · exact ⟨q, (mem_push h).mpr (Or.inr hq), rfl⟩

@[simp] theorem lastAck_push (b : SendBuffer) (p : DataPacket) :
    (b.push p).lastAck = b.lastAck := rfl

/-! ## §4. An acknowledgment. -/

/-- Every packet below the previous acknowledgment is out of reach of the next one. -/
theorem mem_removeUpTo {b : SendBuffer} {k : Nat} {p : DataPacket} :
    p ∈ (b.removeUpTo k).2.entries
      ↔ p ∈ b.entries ∧ ¬ (b.lastAck ≤ p.sequence ∧ p.sequence < k) := by
  unfold removeUpTo
  split
  · rename_i hk
    refine ⟨fun hp => ⟨hp, fun hc => ?_⟩, fun hp => hp.1⟩
    omega
  · show p ∈ b.entries.filter (fun p => !b.covers k p) ↔ _
    simp only [List.mem_filter, covers, Bool.not_eq_true', Bool.and_eq_false_iff,
      decide_eq_false_iff_not]
    constructor
    · rintro ⟨hp, hc⟩
      exact ⟨hp, by omega⟩
    · rintro ⟨hp, hc⟩
      exact ⟨hp, by omega⟩

theorem mem_keys_removeUpTo {b : SendBuffer} {k s : Nat} :
    s ∈ (b.removeUpTo k).2.keys ↔ s ∈ b.keys ∧ ¬ (b.lastAck ≤ s ∧ s < k) := by
  rw [mem_keys, mem_keys]
  constructor
  · rintro ⟨p, hp, rfl⟩
    obtain ⟨hp, hc⟩ := mem_removeUpTo.mp hp
    exact ⟨⟨p, hp, rfl⟩, hc⟩
  · rintro ⟨⟨p, hp, rfl⟩, hc⟩
    exact ⟨p, mem_removeUpTo.mpr ⟨hp, hc⟩, rfl⟩

@[simp] theorem lastAck_removeUpTo (b : SendBuffer) (k : Nat) :
    (b.removeUpTo k).2.lastAck = max b.lastAck k := by
  unfold removeUpTo
  split
  · show b.lastAck = max b.lastAck k
    omega
  · show k = max b.lastAck k
    omega

/-! ## §5. The count in flight. -/

/-- The count in flight is the number of entries. -/
def Counted (b : SendBuffer) : Prop := b.unacknowledged = b.entries.length

theorem counted_push {b : SendBuffer} {p : DataPacket} (h : b.contains p.sequence = false)
    (hb : b.Counted) : (b.push p).Counted := by
  show b.unacknowledged + 1 = (b.push p).entries.length
  rw [(push_entries_perm h).length_eq, List.length_cons, hb]

theorem counted_removeUpTo {b : SendBuffer} (k : Nat) (hb : b.Counted) :
    (b.removeUpTo k).2.Counted := by
  unfold removeUpTo
  split
  · exact hb
  · show b.unacknowledged - b.entries.countP (b.covers k)
        = (b.entries.filter fun p => !b.covers k p).length
    -- The count goes down by the entries that are covered, and the others are kept.
    have hsplit := List.length_eq_countP_add_countP (b.covers k) (l := b.entries)
    rw [hb, ← List.countP_eq_length_filter]
    simp only [Bool.not_eq_true, Bool.decide_eq_false] at hsplit
    omega

/-- Nothing is in flight exactly if no number is buffered. -/
theorem Counted.eq_zero_iff {b : SendBuffer} (hb : b.Counted) :
    b.unacknowledged = 0 ↔ ∀ s, s ∉ b.keys := by
  rw [hb, List.length_eq_zero_iff]
  constructor
  · intro he s hs
    obtain ⟨p, hp, _⟩ := mem_keys.mp hs
    rw [he] at hp
    exact List.not_mem_nil hp
  · intro hs
    refine List.eq_nil_iff_forall_not_mem.mpr fun p hp => ?_
    exact hs p.sequence (mem_keys.mpr ⟨p, hp, rfl⟩)

/-! ## §6. What an acknowledgment computes. -/

/-- A stale acknowledgment covers nothing. -/
theorem covers_stale {b : SendBuffer} {k : Nat} (hk : k ≤ b.lastAck) (p : DataPacket) :
    b.covers k p = false := by
  unfold covers
  rw [Bool.and_eq_false_iff, decide_eq_false_iff_not, decide_eq_false_iff_not]
  omega

theorem entries_removeUpTo (b : SendBuffer) (k : Nat) :
    (b.removeUpTo k).2.entries = b.entries.filter fun p => !b.covers k p := by
  unfold removeUpTo
  split
  · rename_i hk
    refine (List.filter_eq_self.mpr fun p _ => ?_).symm
    rw [covers_stale hk]
    rfl
  · rfl

theorem fst_removeUpTo (b : SendBuffer) (k : Nat) :
    (b.removeUpTo k).1 = b.entries.countP (b.covers k) := by
  unfold removeUpTo
  split
  · rename_i hk
    refine (List.countP_eq_zero.mpr fun p _ => ?_).symm
    rw [covers_stale hk]
    exact Bool.false_ne_true
  · rfl

theorem unacknowledged_removeUpTo (b : SendBuffer) (k : Nat) :
    (b.removeUpTo k).2.unacknowledged = b.unacknowledged - (b.removeUpTo k).1 := by
  unfold removeUpTo
  split <;> rfl

theorem unacknowledged_removeUpTo_le (b : SendBuffer) (k : Nat) :
    (b.removeUpTo k).2.unacknowledged ≤ b.unacknowledged := by
  rw [unacknowledged_removeUpTo]
  exact Nat.sub_le _ _

/-- What was dropped and what is kept make up what there was. -/
theorem removed_add_size (b : SendBuffer) (k : Nat) :
    (b.removeUpTo k).1 + (b.removeUpTo k).2.size = b.size := by
  have hsplit := List.length_eq_countP_add_countP (b.covers k) (l := b.entries)
  simp only [Bool.not_eq_true, Bool.decide_eq_false] at hsplit
  show (b.removeUpTo k).1 + (b.removeUpTo k).2.entries.length = b.entries.length
  rw [fst_removeUpTo, entries_removeUpTo, ← List.countP_eq_length_filter]
  exact hsplit.symm

/-! ## §7. Several acknowledgments. -/

attribute [ext] SendBuffer

@[simp] theorem removeUpTo_zero (b : SendBuffer) : (b.removeUpTo 0).2 = b := by
  unfold removeUpTo
  rw [if_pos (Nat.zero_le _)]

/-- What the second of two acknowledgments covers of what the first has left. -/
theorem covers_max (b : SendBuffer) (j k : Nat) (p : DataPacket) :
    b.covers (max j k) p = (b.covers j p || (b.removeUpTo j).2.covers k p) := by
  unfold covers
  rw [lastAck_removeUpTo, Bool.eq_iff_iff, Bool.or_eq_true, Bool.and_eq_true, Bool.and_eq_true,
    Bool.and_eq_true]
  simp only [decide_eq_true_eq]
  omega

/-- Two acknowledgments come to the larger one. -/
theorem removeUpTo_removeUpTo (b : SendBuffer) (j k : Nat) :
    ((b.removeUpTo j).2.removeUpTo k).2 = (b.removeUpTo (max j k)).2 := by
  have hcovers : b.covers (max j k) = fun p => b.covers j p || (b.removeUpTo j).2.covers k p :=
    funext (b.covers_max j k)
  have hentries : ((b.removeUpTo j).2.removeUpTo k).2.entries
      = (b.removeUpTo (max j k)).2.entries := by
    rw [entries_removeUpTo, entries_removeUpTo, entries_removeUpTo, List.filter_filter, hcovers]
    refine List.filter_congr fun p _ => ?_
    rw [Bool.not_or, Bool.and_comm]
  have hlastAck : ((b.removeUpTo j).2.removeUpTo k).2.lastAck
      = (b.removeUpTo (max j k)).2.lastAck := by
    rw [lastAck_removeUpTo, lastAck_removeUpTo, lastAck_removeUpTo, Nat.max_assoc]
  refine SendBuffer.ext hentries hlastAck ?_
  -- The two counts of dropped packets add up to that of the larger acknowledgment.
  have hj := b.removed_add_size j
  have hk := (b.removeUpTo j).2.removed_add_size k
  have hboth := b.removed_add_size (max j k)
  have hsize : ((b.removeUpTo j).2.removeUpTo k).2.size = (b.removeUpTo (max j k)).2.size :=
    congrArg List.length hentries
  rw [unacknowledged_removeUpTo, unacknowledged_removeUpTo, unacknowledged_removeUpTo]
  omega

end SendBuffer

/-- The largest of some numbers, 0 if there are none. -/
def largest (ns : List Nat) : Nat := ns.foldr max 0

theorem largest_singleton (n : Nat) : largest [n] = n := Nat.max_zero n

theorem largest_append (ms ns : List Nat) :
    largest (ms ++ ns) = max (largest ms) (largest ns) := by
  induction ms with
  | nil =>
    show largest ns = max 0 (largest ns)
    omega
  | cons m ms ih =>
    show max m (largest (ms ++ ns)) = max (max m (largest ms)) (largest ns)
    rw [ih, Nat.max_assoc]

theorem le_largest {n : Nat} {ns : List Nat} (h : n ∈ ns) : n ≤ largest ns := by
  induction ns with
  | nil => exact absurd h List.not_mem_nil
  | cons m ns ih =>
    show n ≤ max m (largest ns)
    rcases List.mem_cons.mp h with rfl | h
    · exact Nat.le_max_left _ _
    · have := ih h
      omega

theorem largest_le {ns : List Nat} {m : Nat} (h : ∀ n ∈ ns, n ≤ m) : largest ns ≤ m := by
  induction ns with
  | nil => exact Nat.zero_le m
  | cons n ns ih =>
    have hrest := ih fun k hk => h k (List.mem_cons_of_mem n hk)
    exact Nat.max_le.mpr ⟨h n List.mem_cons_self, hrest⟩

theorem lt_largest_iff {m : Nat} {ns : List Nat} : m < largest ns ↔ ∃ n ∈ ns, m < n := by
  constructor
  · intro h
    by_contra hnone
    have hle : largest ns ≤ m := largest_le fun n hn => by
      by_contra hlt
      exact hnone ⟨n, hn, Nat.lt_of_not_le hlt⟩
    omega
  · intro h
    obtain ⟨n, hn, hlt⟩ := h
    exact Nat.lt_of_lt_of_le hlt (le_largest hn)

theorem largest_perm {ms ns : List Nat} (h : ms.Perm ns) : largest ms = largest ns := by
  induction h with
  | nil => rfl
  | cons n _ ih => exact congrArg (max n) ih
  | swap m n ns =>
    show max n (max m (largest ns)) = max m (max n (largest ns))
    omega
  | trans _ _ ih₁ ih₂ => exact ih₁.trans ih₂

end ReliableSender
