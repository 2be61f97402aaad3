/-
  ReliableSender.Proofs.Engine.Steps
  ──────────────────────────────────
  **STEPS THAT NOTHING COMES BETWEEN.**

  A step either serves a loss, or transmits, or finds nothing to do.  Without
  feedback and offers in between, every step but one of the last kind takes
  one number out of the loss list or one packet out of the queue, so such
  steps come to a rest.

      Steps            — one step, guard and effect
      rests_after      — some step finds nothing to do
      serves           — as many steps as there are losses serve them in order

  Serving the losses sends what of them is buffered, lowest first, and
  changes nothing else.
-/
import ReliableSender.Proofs.Engine.Effects
import ReliableSender.Proofs.Transport.Wiretap
import Mathlib.Data.Nat.Find

namespace ReliableSender

/-! ## §1. Outcomes. -/

/-- Nothing was transmitted and no loss was served. -/
def isRest : Except Fault Progress → Bool
  | .ok .idle | .ok .windowFull | .ok .closed => true
  | _ => false

/-- The sink did not take a data packet. -/
def isRefusal : Except Fault Progress → Bool
  | .ok (.retransmitFailed _) | .error _ => true
  | _ => false

/-- A loss was dropped because its packet is not buffered. -/
def isSkip : Except Fault Progress → Bool
  | .ok (.skipped _) => true
  | _ => false

namespace Engine

variable {σ τ : Type} [Sink σ]

/-! ## §2. One step. -/

/-- What a step does, and when. -/
inductive Steps (e : Engine σ τ) (q : IngressQueue) :
    Except Fault Progress × Engine σ τ × IngressQueue → Prop where
  | skips {s : Nat} (first : e.losses.first? = some s) (gone : e.buffer.get? s = none) :
      Steps e q (.ok (.skipped s), (e.takeLoss s).skipLoss, q)
  | resends {s : Nat} {p : DataPacket} {r : Except Fault Progress × Engine σ τ}
      (first : e.losses.first? = some s) (kept : e.buffer.get? s = some p)
      (sending : Resends (e.takeLoss s) p r) : Steps e q (r.1, r.2, q)
  | windowFull (none : e.losses.first? = none) (full : e.windowOpen = false) :
      Steps e q (.ok .windowFull, e, q)
  | pollsNothing {outcome : Progress} (none : e.losses.first? = none)
      (room : e.windowOpen = true) (empty : q.waiting = [])
      (verdict : outcome = if q.producers = 0 then .closed else .idle) :
      Steps e q (.ok outcome, e, q)
  | transmits {p : DataPacket} {rest : List DataPacket}
      {r : Except Fault Progress × Engine σ τ} (none : e.losses.first? = none)
      (room : e.windowOpen = true) (head : q.waiting = p :: rest) (sending : Transmits e p r)
      (alive : r.1 ≠ .error .crash) :
      Steps e q (r.1, r.2, { q with waiting := rest }.handled)
  | crashes {p : DataPacket} {rest : List DataPacket}
      {r : Except Fault Progress × Engine σ τ} (none : e.losses.first? = none)
      (room : e.windowOpen = true) (head : q.waiting = p :: rest) (sending : Transmits e p r)
      (crash : r.1 = .error .crash) :
      Steps e q (r.1, r.2, { q with waiting := rest })

theorem steps (e : Engine σ τ) (q : IngressQueue) : Steps e q (e.step q) := by
  unfold step
  cases hl : e.losses.first? with
  | some s =>
    show Steps e q (((e.takeLoss s).retransmit s).1, ((e.takeLoss s).retransmit s).2, q)
    unfold retransmit
    -- Taking the loss out of the list leaves the buffer as it is.
    have hbuffer : (e.takeLoss s).buffer = e.buffer := rfl
    rw [hbuffer]
    cases hg : e.buffer.get? s with
    | none => exact .skips hl hg
    | some p => exact .resends hl hg (resends _ p)
  | none =>
    cases hw : e.windowOpen with
    | false => exact .windowFull hl hw
    | true =>
      simp only [if_true]
      unfold transmitNext IngressQueue.poll
      cases hq : q.waiting with
      | nil =>
        by_cases hp : q.producers = 0
        · simp only [hp, if_true]
          exact .pollsNothing hl hw hq (if_pos hp).symm
        · simp only [hp, if_false]
          exact .pollsNothing hl hw hq (if_neg hp).symm
      | cons p rest =>
        have halive := Steps.transmits (q := q) hl hw hq (e.transmits p)
        have hcrash := Steps.crashes (q := q) hl hw hq (e.transmits p)
        rcases ht : e.transmit p with ⟨(cause | _) | progress, e'⟩
        · rw [ht] at halive
          simp only [ht]
          exact halive (by simp)
        · rw [ht] at hcrash
          simp only [ht]
          exact hcrash rfl
        · rw [ht] at halive
          simp only [ht]
          exact halive (by simp)

omit [Sink σ] in
/-- The lowest loss is the head of the list, and taking it leaves the tail. -/
theorem takeLoss_first {e : Engine σ τ} {s : Nat} (h : e.losses.first? = some s) :
    ∃ rest, e.losses.entries = s :: rest ∧ (e.takeLoss s).losses.entries = rest := by
  unfold LossList.first? at h
  obtain ⟨rest, hrest⟩ := List.head?_eq_some_iff.mp h
  refine ⟨rest, hrest, ?_⟩
  show e.losses.entries.erase s = rest
  rw [hrest, List.erase_cons_head]

omit [Sink σ] in
theorem first?_eq_none {e : Engine σ τ} (h : e.hasLosses = false) : e.losses.first? = none := by
  unfold hasLosses LossList.isEmpty at h
  rw [Bool.not_eq_false', List.isEmpty_iff] at h
  unfold LossList.first?
  rw [h]
  rfl

omit [Sink σ] in
theorem hasLosses_of_first? {e : Engine σ τ} (h : e.losses.first? = none) :
    e.hasLosses = false := by
  unfold LossList.first? at h
  unfold hasLosses LossList.isEmpty
  rw [List.head?_eq_none_iff.mp h]
  rfl

omit [Sink σ] in
/-- Losses wait until as many as there were have been taken out. -/
theorem hasLosses_of_drop {e e' : Engine σ τ} {n : Nat}
    (h : e'.losses.entries = e.losses.entries.drop n) :
    e'.hasLosses = decide (n < e.losses.size) := by
  unfold hasLosses LossList.isEmpty LossList.size
  rw [h, Bool.eq_iff_iff, Bool.not_eq_true', List.isEmpty_eq_false_iff, Ne,
    List.drop_eq_nil_iff, decide_eq_true_eq, Nat.not_le]

/-! ## §3. Steps in a row. -/

/-- The engine and the queue after so many steps. -/
def afterSteps (e : Engine σ τ) (q : IngressQueue) : Nat → Engine σ τ × IngressQueue
  | 0 => (e, q)
  | n + 1 => ((afterSteps e q n).1.step (afterSteps e q n).2).2

/-- What comes of the step after so many others. -/
def outcomeAfter (e : Engine σ τ) (q : IngressQueue) (n : Nat) : Except Fault Progress :=
  ((e.afterSteps q n).1.step (e.afterSteps q n).2).1

/-- How much there is to do: the losses to serve and the packets to transmit. -/
def work (e : Engine σ τ) (q : IngressQueue) : Nat := e.losses.size + q.waiting.length

/-- A step finds nothing to do, or there is one thing less to do. -/
theorem rests_or_works (e : Engine σ τ) (q : IngressQueue) :
    isRest (e.step q).1 = true ∨ (e.step q).2.1.work (e.step q).2.2 + 1 = e.work q := by
  have h := e.steps q
  generalize e.step q = r at h ⊢
  unfold work LossList.size
  cases h with
  | skips hl =>
    obtain ⟨rest, hentries, htaken⟩ := takeLoss_first hl
    refine Or.inr ?_
    show (e.takeLoss _).losses.entries.length + q.waiting.length + 1 = _
    rw [htaken, hentries, List.length_cons]
    omega
  | @resends s p r hl _ hr =>
    obtain ⟨rest, hentries, htaken⟩ := takeLoss_first hl
    have hlosses : r.2.losses = (e.takeLoss s).losses := by cases hr <;> rfl
    refine Or.inr ?_
    show r.2.losses.entries.length + q.waiting.length + 1 = _
    rw [hlosses, htaken, hentries, List.length_cons]
    omega
  | windowFull => exact Or.inl rfl
  | pollsNothing _ _ _ hverdict =>
    refine Or.inl ?_
    rw [hverdict]
    split <;> rfl
  | @transmits p rest r _ _ hq hr | @crashes p rest r _ _ hq hr =>
    have hlosses : r.2.losses = e.losses := by cases hr <;> rfl
    refine Or.inr ?_
    show r.2.losses.entries.length + rest.length + 1 = _
    rw [hlosses, hq, List.length_cons]
    omega

theorem work_afterSteps {e : Engine σ τ} {q : IngressQueue} {n : Nat}
    (h : ∀ m < n, isRest (e.outcomeAfter q m) = false) :
    (e.afterSteps q n).1.work (e.afterSteps q n).2 + n = e.work q := by
  induction n with
  | zero => rfl
  | succ n ih =>
    have hbefore := ih fun m hm => h m (Nat.lt_succ_of_lt hm)
    have hlast := h n (Nat.lt_succ_self n)
    rcases (e.afterSteps q n).1.rests_or_works (e.afterSteps q n).2 with hrest | hwork
    · exact absurd (hlast.symm.trans hrest) Bool.false_ne_true
    · show ((e.afterSteps q n).1.step (e.afterSteps q n).2).2.1.work
        ((e.afterSteps q n).1.step (e.afterSteps q n).2).2.2 + (n + 1) = e.work q
      omega

/-- Steps in a row come to a first one that finds nothing to do. -/
theorem rests_after (e : Engine σ τ) (q : IngressQueue) :
    ∃ n, isRest (e.outcomeAfter q n) = true
      ∧ ∀ m < n, isRest (e.outcomeAfter q m) = false := by
  have hsome : ∃ n, isRest (e.outcomeAfter q n) = true := by
    by_contra hnone
    have hall : ∀ m < e.work q + 1, isRest (e.outcomeAfter q m) = false := fun m _ =>
      Bool.eq_false_iff.mpr fun hm => hnone ⟨m, hm⟩
    have := work_afterSteps hall
    omega
  refine ⟨Nat.find hsome, Nat.find_spec hsome, fun m hm => ?_⟩
  exact Bool.eq_false_iff.mpr (Nat.find_min hsome hm)

/-! ## §4. Serving the losses. -/

/-- The packets that the first losses call for. -/
def demanded (e : Engine σ τ) (n : Nat) : List DataPacket :=
  (e.losses.entries.take n).filterMap e.buffer.get?

/-- What comes of so many steps, the skipped losses apart. -/
def attempts (e : Engine σ τ) (q : IngressQueue) (n : Nat) : List (Except Fault Progress) :=
  ((List.range n).map (e.outcomeAfter q)).filter (!isSkip ·)

omit [Sink σ] in
theorem demanded_succ {e : Engine σ τ} {n s : Nat} (h : e.losses.entries[n]? = some s) :
    e.demanded (n + 1) = e.demanded n ++ (e.buffer.get? s).toList := by
  unfold demanded
  rw [List.take_add_one, h, Option.toList_some, List.filterMap_append]
  rfl

omit [Sink σ] in
/-- All losses together call for the buffered packets whose numbers are among them. -/
theorem demanded_size (e : Engine σ τ) :
    e.demanded e.losses.size
      = e.buffer.entries.filter fun p => e.losses.entries.contains p.sequence := by
  have htake : e.demanded e.losses.size = e.losses.entries.filterMap e.buffer.get? := by
    unfold demanded LossList.size
    rw [List.take_length]
  rw [htake]
  have hserved : AscendingBy DataPacket.sequence (e.losses.entries.filterMap e.buffer.get?) := by
    refine List.pairwise_filterMap.mpr (e.losses.ascending.imp fun hlt p hp q hq => ?_)
    rw [(SendBuffer.mem_of_get? hp).2, (SendBuffer.mem_of_get? hq).2]
    exact hlt
  have hkept : AscendingBy DataPacket.sequence
      (e.buffer.entries.filter fun p => e.losses.entries.contains p.sequence) :=
    e.buffer.ascending.filter _
  refine List.Perm.eq_of_pairwise (fun p q _ _ hpq hqp => ?_) hserved hkept ?_
  · exact absurd hpq (Nat.lt_asymm hqp)
  · -- Both ascend, so it is enough that they have the same members.
    refine (List.perm_ext_iff_of_nodup (hserved.imp ?_) (hkept.imp ?_)).mpr fun p => ?_
    · rintro p _ hlt rfl
      exact Nat.lt_irrefl _ hlt
    · rintro p _ hlt rfl
      exact Nat.lt_irrefl _ hlt
    · rw [List.mem_filterMap, List.mem_filter, List.contains_iff_mem]
      constructor
      · rintro ⟨s, hs, hp⟩
        obtain ⟨hkept, rfl⟩ := SendBuffer.mem_of_get? hp
        exact ⟨hkept, hs⟩
      · rintro ⟨hp, hs⟩
        exact ⟨p.sequence, hs, SendBuffer.get?_eq_some_iff.mpr ⟨hp, rfl⟩⟩

theorem attempts_succ (e : Engine σ τ) (q : IngressQueue) (n : Nat) :
    e.attempts q (n + 1) = e.attempts q n ++ [e.outcomeAfter q n].filter (!isSkip ·) := by
  unfold attempts
  rw [List.range_succ, List.map_append, List.filter_append]
  rfl

/-- Serving a loss sends what it calls for, if the sink takes it. -/
theorem step_serves {e : Engine (Wiretap σ) τ} {q : IngressQueue} {s : Nat}
    (hfirst : e.losses.first? = some s) (haccepts : isRefusal (e.step q).1 = false) :
    ∃ outcome sink skipped, e.step q
        = (outcome, { e.takeLoss s with
            sink
            statistics := { e.statistics with
              skipped
              retransmitted := e.statistics.retransmitted
                + UInt64.ofNat (e.buffer.get? s).toList.length } }, q)
      ∧ sink.taken = e.sink.taken ++ (e.buffer.get? s).toList.map .data
      ∧ [outcome].filter (!isSkip ·)
          = (e.buffer.get? s).toList.map (.ok <| .retransmitted ·.sequence) := by
  have hsteps := e.steps q
  generalize e.step q = r at hsteps haccepts ⊢
  cases hsteps with
  | @skips t hl hgone =>
    obtain rfl : s = t := Option.some.inj (hfirst.symm.trans hl)
    have hcount : e.statistics.retransmitted
        = e.statistics.retransmitted + UInt64.ofNat (e.buffer.get? s).toList.length := by
      rw [hgone]
      exact (UInt64.add_zero _).symm
    rw [← hcount, hgone]
    exact ⟨_, e.sink, e.statistics.skipped + 1, rfl, (List.append_nil _).symm, rfl⟩
  | @resends t p r hl hkept hr =>
    obtain rfl : s = t := Option.some.inj (hfirst.symm.trans hl)
    rw [hkept]
    cases hr with
    | @again sink hout =>
      -- Taking the loss out of the list leaves the sink as it is.
      have hsent : Sink.attempt (.data p) e.sink = (.ok (), sink) := hout
      exact ⟨_, sink, e.statistics.skipped, rfl, Wiretap.taken_of_ok hsent, rfl⟩
    | refused | crashes => exact absurd haccepts.symm Bool.false_ne_true
  | windowFull hl | pollsNothing hl | transmits hl | crashes hl =>
    exact absurd (hfirst.symm.trans hl) (by simp)

/-- What `n` steps leave that serve the first `n` losses. -/
structure Serves (e : Engine (Wiretap σ) τ) (q : IngressQueue) (n : Nat) : Prop where
  queue : (e.afterSteps q n).2 = q
  losses : (e.afterSteps q n).1.losses.entries = e.losses.entries.drop n
  /-- The demanded packets are on the wire, lowest first. -/
  wire : (e.afterSteps q n).1.sink.taken = e.sink.taken ++ (e.demanded n).map .data
  attempts : e.attempts q n = (e.demanded n).map (.ok <| .retransmitted ·.sequence)
  /-- Nothing else has changed. -/
  others : ∃ losses sink skipped, (e.afterSteps q n).1
    = { e with
        losses
        sink
        statistics := { e.statistics with
          skipped
          retransmitted := e.statistics.retransmitted + UInt64.ofNat (e.demanded n).length } }

/-- One more loss is served. -/
theorem Serves.succ {e : Engine (Wiretap σ) τ} {q : IngressQueue} {n : Nat}
    (h : e.Serves q n) (hn : n < e.losses.size)
    (haccepts : isRefusal (e.outcomeAfter q n) = false) : e.Serves q (n + 1) := by
  obtain ⟨hqueue, hlosses, hwire, hattempts, losses, sink, skipped, he⟩ := h
  obtain ⟨s, hs⟩ : ∃ s, e.losses.entries[n]? = some s := ⟨_, List.getElem?_eq_getElem hn⟩
  have hfirst : (e.afterSteps q n).1.losses.first? = some s := by
    unfold LossList.first?
    rw [hlosses, List.head?_drop, hs]
  have hbuffer : (e.afterSteps q n).1.buffer = e.buffer := by rw [he]
  obtain ⟨rest, hrest, htaken⟩ := takeLoss_first hfirst
  obtain ⟨outcome, sink', skipped', hstep, hout, houtcome⟩ := step_serves hfirst haccepts
  have hafter : e.afterSteps q (n + 1)
      = ((e.afterSteps q n).1.step (e.afterSteps q n).2).2 := rfl
  have houtcomeAfter : e.outcomeAfter q n
      = ((e.afterSteps q n).1.step (e.afterSteps q n).2).1 := rfl
  rw [hstep] at hafter houtcomeAfter
  rw [hbuffer] at hafter hout houtcome
  have hdemanded := demanded_succ hs
  refine ⟨?_, ?_, ?_, ?_, ?_⟩
  · rw [hafter]
    exact hqueue
  · rw [hafter]
    show ((e.afterSteps q n).1.takeLoss s).losses.entries = e.losses.entries.drop (n + 1)
    rw [htaken, ← List.tail_drop, ← hlosses, hrest, List.tail_cons]
  · rw [hafter, hdemanded, List.map_append, ← List.append_assoc, ← hwire]
    exact hout
  · rw [attempts_succ, hattempts, houtcomeAfter, houtcome, hdemanded, List.map_append]
  · rw [hafter, hdemanded, List.length_append, UInt64.ofNat_add, ← UInt64.add_assoc, he]
    exact ⟨_, _, _, rfl⟩

/-- **As many steps as there are losses serve them in order**, if the sink takes what they
send. -/
theorem serves {e : Engine (Wiretap σ) τ} {q : IngressQueue} {n : Nat} (hn : n ≤ e.losses.size)
    (haccepts : ∀ m < n, isRefusal (e.outcomeAfter q m) = false) : e.Serves q n := by
  induction n with
  | zero =>
    have hcount : e.statistics.retransmitted + UInt64.ofNat (e.demanded 0).length
        = e.statistics.retransmitted := UInt64.add_zero _
    refine ⟨rfl, rfl, (List.append_nil _).symm, rfl, e.losses, e.sink, e.statistics.skipped, ?_⟩
    rw [hcount]
    rfl
  | succ n ih =>
    have hbefore := ih (Nat.le_of_succ_le hn) fun m hm => haccepts m (Nat.lt_succ_of_lt hm)
    exact hbefore.succ hn (haccepts n (Nat.lt_succ_self n))

/-- Losses wait until all of them are served. -/
theorem Serves.hasLosses {e : Engine (Wiretap σ) τ} {q : IngressQueue} {n : Nat}
    (h : e.Serves q n) : (e.afterSteps q n).1.hasLosses = decide (n < e.losses.size) :=
  hasLosses_of_drop h.losses

end Engine

end ReliableSender
