/-
  ReliableSender.Proofs.SendBuffer.History
  ────────────────────────────────────────
  **WHAT A SEND BUFFER HOLDS AFTER ANY CALLS.**

  Packets, count in flight and acknowledged bound are three pieces of one
  state, and every call may change some of them and leave early.  Whatever
  the calls were, the pieces agree in the end:

      unacknowledged  =  packets held  =  insertions − removals
      lastAck         =  the largest number acknowledged

  and a number is held exactly if an insertion of it has not been undone
  since, with the packet of the latest insertion.

      Performs     — what one call does, the only place where calls are opened
      history_law  — what all calls come to
-/
import Mathlib
import ReliableSender.Proofs.Chronicle
import ReliableSender.Proofs.SendBuffer
import ReliableSender.Transport.Basic

namespace ReliableSender

namespace SendBuffer

/-! ## §1. Calls. -/

/-- A call of a send buffer.  How the sending of a packet ends (it succeeds, fails or
crashes) is part of the call, and may depend on what was sent before. -/
inductive Call (σ : Type) where
  | insert (p : DataPacket)
  | insertWith (p : DataPacket) (send : DataPacket → σ → Except Fault Unit × σ)
  | removeUpTo (k : Nat)

namespace Call

variable {σ : Type}

/-- The number up to which a call acknowledges. -/
def acknowledgment? : Call σ → Option Nat
  | .removeUpTo k => some k
  | _ => none

/-- What a call leaves of a buffer and of whatever packets are sent to. -/
def perform : SendBuffer × σ → Call σ → SendBuffer × σ
  | (b, s), .insert p => ((b.insert p).2, s)
  | (b, s), .insertWith p send => (b.insertWith p send s).2
  | (b, s), .removeUpTo k => ((b.removeUpTo k).2, s)

/-- The packet that a call inserts, as the call's answer tells. -/
def inserted : SendBuffer × σ → Call σ → List DataPacket
  | (b, _), .insert p => if (b.insert p).1 then [p] else []
  | (b, s), .insertWith p send =>
    match (b.insertWith p send s).1 with
    | .ok true => [p]
    | _ => []
  | _, .removeUpTo _ => []

/-- The number of packets that a call removes, as its answer tells. -/
def removed : SendBuffer × σ → Call σ → List Nat
  | (b, _), .removeUpTo k => [(b.removeUpTo k).1]
  | _, _ => []

end Call

variable {σ : Type}

theorem ascending_nil : AscendingBy DataPacket.sequence [] := List.Pairwise.nil

/-- A new buffer. -/
def initial : SendBuffer where
  ascending := ascending_nil

/-- A new buffer after some calls, and whatever packets were sent to. -/
def after (s : σ) (calls : List (Call σ)) : SendBuffer × σ := calls.foldl Call.perform (initial, s)

theorem after_concat (s : σ) (calls : List (Call σ)) (c : Call σ) :
    after s (calls ++ [c]) = Call.perform (after s calls) c := by
  unfold after
  rw [List.foldl_append]
  rfl

/-- The insertions of some calls, in order. -/
def insertions (s : σ) (calls : List (Call σ)) : List DataPacket :=
  gather Call.perform Call.inserted (initial, s) calls

/-- The answers of the removals among some calls, in order. -/
def removals (s : σ) (calls : List (Call σ)) : List Nat :=
  gather Call.perform Call.removed (initial, s) calls

/-- The call inserts a packet under a number. -/
def Inserts (s : σ) (n : Nat) (before : List (Call σ)) (c : Call σ) : Prop :=
  ∃ p ∈ Call.inserted (after s before) c, p.sequence = n

/-- The call acknowledges a number that was not acknowledged yet. -/
def Removes (s : σ) (n : Nat) (before : List (Call σ)) (c : Call σ) : Prop :=
  ∃ k, c = .removeUpTo k ∧ (after s before).1.lastAck ≤ n ∧ n < k

/-! ## §2. One call. -/

/-- What a call makes of a buffer, which packets it inserts and how many it removes. -/
inductive Performs (b : SendBuffer) :
    Call σ → SendBuffer → List DataPacket → List Nat → Prop where
  | inserts {c : Call σ} {p : DataPacket} (free : b.contains p.sequence = false)
      (silent : c.acknowledgment? = none) : Performs b c (b.push p) [p] []
  | removes {k : Nat} :
      Performs b (.removeUpTo k) (b.removeUpTo k).2 [] [(b.removeUpTo k).1]
  /-- The number is taken, or the packet could not be sent. -/
  | refuses {c : Call σ} (silent : c.acknowledgment? = none) : Performs b c b [] []

theorem performs (b : SendBuffer) (s : σ) (c : Call σ) :
    Performs b c (Call.perform (b, s) c).1 (Call.inserted (b, s) c) (Call.removed (b, s) c) := by
  cases c with
  | insert p =>
    show Performs b _ (b.insert p).2 (if (b.insert p).1 then [p] else []) []
    unfold insert
    cases hc : b.contains p.sequence with
    | true => exact .refuses rfl
    | false => exact .inserts hc rfl
  | insertWith p send =>
    show Performs b _ (b.insertWith p send s).2.1
      (match (b.insertWith p send s).1 with
        | .ok true => [p]
        | _ => []) []
    unfold insertWith
    cases hc : b.contains p.sequence with
    | true => exact .refuses rfl
    | false =>
      rcases hsend : send p s with ⟨fault | _, s'⟩
      · simp only [Bool.false_eq_true, if_false]
        exact .refuses rfl
      · simp only [Bool.false_eq_true, if_false]
        exact .inserts hc rfl
  | removeUpTo k => exact .removes

/-- A number is held after a call if the call inserts it, or if it was held and the call
does not acknowledge it. -/
theorem Performs.mem_keys {b b' : SendBuffer} {c : Call σ} {new : List DataPacket}
    {gone : List Nat} (h : Performs b c b' new gone) (n : Nat) :
    n ∈ b'.keys ↔ (∃ p ∈ new, p.sequence = n)
      ∨ n ∈ b.keys ∧ ¬ ∃ k, c = .removeUpTo k ∧ b.lastAck ≤ n ∧ n < k := by
  have hother : c.acknowledgment? = none → ¬ ∃ k, c = .removeUpTo k ∧ b.lastAck ≤ n ∧ n < k := by
    rintro hsilent ⟨k, rfl, _⟩
    exact absurd hsilent (by simp [Call.acknowledgment?])
  cases h with
  | inserts hfree hsilent =>
    rw [mem_keys_push hfree]
    simp [hother hsilent, eq_comm]
  | removes =>
    rw [mem_keys_removeUpTo]
    simp
  | refuses hsilent => simp [hother hsilent]

theorem Performs.lastAck {b b' : SendBuffer} {c : Call σ} {new : List DataPacket}
    {gone : List Nat} (h : Performs b c b' new gone) :
    b'.lastAck = max b.lastAck (largest c.acknowledgment?.toList) := by
  cases h with
  | inserts _ hsilent | refuses hsilent =>
    rw [hsilent]
    exact (Nat.max_eq_left (Nat.zero_le _)).symm
  | @removes k =>
    rw [lastAck_removeUpTo]
    show max b.lastAck k = max b.lastAck (max k 0)
    rw [Nat.max_eq_left (Nat.zero_le k)]

/-- What a buffer, and the insertions and removals so far, have to do with each other. -/
structure Accounted (b : SendBuffer) (kept : List DataPacket) (gone : List Nat) : Prop where
  counted : b.Counted
  balance : kept.length = gone.sum + b.size
  /-- Each packet is the latest one under its number. -/
  latest : ∀ p ∈ b.entries, (kept.filter (·.sequence == p.sequence)).getLast? = some p

theorem Accounted.call {b b' : SendBuffer} {c : Call σ} {kept new : List DataPacket}
    {gone lost : List Nat} (hb : b.Accounted kept gone) (h : Performs b c b' new lost) :
    b'.Accounted (kept ++ new) (gone ++ lost) := by
  cases h with
  | @inserts _ p hfree =>
    refine ⟨counted_push hfree hb.counted, ?_, fun q hq => ?_⟩
    · have hsize : (b.push p).size = b.size + 1 := (push_entries_perm hfree).length_eq
      rw [List.length_append, List.append_nil, hb.balance, hsize]
      rfl
    · rw [List.filter_append]
      rcases (mem_push hfree).mp hq with rfl | hq
      · simp
      · -- The new packet came under another number than the packets held before.
        have hne : p.sequence ≠ q.sequence := fun he =>
          contains_eq_false_iff.mp hfree (SendBuffer.mem_keys.mpr ⟨q, hq, he.symm⟩)
        have hnew : [p].filter (·.sequence == q.sequence) = [] := by simp [hne]
        rw [hnew, List.append_nil]
        exact hb.latest q hq
  | @removes k =>
    refine ⟨counted_removeUpTo k hb.counted, ?_, fun q hq => ?_⟩
    · have hsplit := b.removed_add_size k
      rw [List.append_nil, List.sum_append, List.sum_singleton, hb.balance]
      omega
    · rw [List.append_nil]
      exact hb.latest q (mem_removeUpTo.mp hq).1
  | refuses =>
    rw [List.append_nil, List.append_nil]
    exact hb

/-! ## §3. All calls. -/

theorem accounted_after (s : σ) (calls : List (Call σ)) :
    (after s calls).1.Accounted (insertions s calls) (removals s calls) := by
  induction calls using List.reverseRecOn with
  | nil =>
    refine ⟨rfl, rfl, fun p hp => ?_⟩
    exact absurd hp List.not_mem_nil
  | append_singleton calls c ih =>
    unfold insertions removals
    rw [after_concat, gather_concat, gather_concat]
    exact ih.call (performs (after s calls).1 (after s calls).2 c)

theorem lastAck_after (s : σ) (calls : List (Call σ)) :
    (after s calls).1.lastAck = largest (calls.filterMap Call.acknowledgment?) := by
  induction calls using List.reverseRecOn with
  | nil => rfl
  | append_singleton calls c ih =>
    have hone : [c].filterMap Call.acknowledgment? = c.acknowledgment?.toList := by
      cases hc : c.acknowledgment? <;> simp [hc]
    rw [after_concat, (performs (after s calls).1 (after s calls).2 c).lastAck, ih,
      List.filterMap_append, hone, largest_append]

/-- A number is held exactly if an insertion of it has not been undone since. -/
theorem contains_after_iff (s : σ) (calls : List (Call σ)) (n : Nat) :
    (after s calls).1.contains n = true ↔ Since (Inserts s n) (Removes s n) calls := by
  rw [contains_eq_true_iff]
  induction calls using List.reverseRecOn with
  | nil => simp [after, initial, keys]
  | append_singleton calls c ih =>
    have hstep := (performs (after s calls).1 (after s calls).2 c).mem_keys n
    rw [since_concat, ← ih, after_concat]
    exact hstep

/-- No call removes more than there was, so the count never goes below 0. -/
theorem removeUpTo_le_unacknowledged (s : σ) (calls : List (Call σ)) (k : Nat) :
    ((after s calls).1.removeUpTo k).1 ≤ (after s calls).1.unacknowledged := by
  have hcounted : (after s calls).1.unacknowledged = (after s calls).1.size :=
    (accounted_after s calls).counted
  have hsplit := (after s calls).1.removed_add_size k
  omega

/-- What is held under a number is the packet of the latest insertion. -/
theorem get?_after (s : σ) (calls : List (Call σ)) {n : Nat}
    (hn : (after s calls).1.contains n = true) :
    ∃ p, (after s calls).1.get? n = some p
      ∧ ((insertions s calls).filter (·.sequence == n)).getLast? = some p := by
  obtain ⟨p, hp, rfl⟩ := mem_keys.mp (contains_eq_true_iff.mp hn)
  exact ⟨p, get?_eq_some_iff.mpr ⟨hp, rfl⟩, (accounted_after s calls).latest p hp⟩

/-- **The history of a send buffer.**  After any calls on a new buffer, the count in flight
is the number of packets held, and it never went below 0; the acknowledged bound is the
largest number given, or 0; a number is held exactly if an insertion of it was not followed
by an acknowledgment that passed it, and then with the packet of the latest insertion; and
all insertions are accounted for, as removed or as held. -/
theorem history_law (s : σ) (calls : List (Call σ)) :
    let b := (after s calls).1
    b.unacknowledged = b.size
      ∧ Always (fun before c => ∀ k, c = .removeUpTo k →
          ((after s before).1.removeUpTo k).1 ≤ (after s before).1.unacknowledged) calls
      ∧ b.lastAck = largest (calls.filterMap Call.acknowledgment?)
      ∧ (∀ n, b.contains n = true ↔ Since (Inserts s n) (Removes s n) calls)
      ∧ (∀ n, b.contains n = true → ∃ p, b.get? n = some p
          ∧ ((insertions s calls).filter (·.sequence == n)).getLast? = some p)
      ∧ (insertions s calls).length = (removals s calls).sum + b.size := by
  intro b
  have hb : b.Accounted (insertions s calls) (removals s calls) := accounted_after s calls
  refine ⟨hb.counted, fun before c _ _ k _ => ?_, lastAck_after s calls, ?_, ?_, hb.balance⟩
  · exact removeUpTo_le_unacknowledged s before k
  · intro n
    exact contains_after_iff s calls n
  · intro n hn
    exact get?_after s calls hn

/-- A crash inserts nothing.  Number 3 is removed, comes again below the acknowledged bound,
and stays. -/
example :
    let crash : DataPacket → Unit → Except Fault Unit × Unit := fun _ s => (.error .crash, s)
    let calls : List (Call Unit) :=
      [.insertWith { sequence := 1 } crash, .insert { sequence := 3 }, .removeUpTo 5,
        .insert { sequence := 3, payload := [7] }, .removeUpTo 9]
    (after () calls).1.entries = [{ sequence := 3, payload := [7] }]
      ∧ removals () calls = [1, 0] := by
  decide

end SendBuffer

end ReliableSender
