/-
  ReliableSender.Proofs.Sender.Outstanding
  ────────────────────────────────────────
  **NO PACKET IS UNACCOUNTED FOR.**

  A packet is counted as pending from its announcement until it has been
  handled, and it is handled only after it went into the send buffer.  From
  there only an acknowledgment above its number takes it away.  So whoever
  looks at the pending packets first and at the buffer later misses none:

      BufferChanges    — what an event does to the send buffer, and why
      traced_replay    — transmitted packets are buffered or acknowledged
      every_packet_accounted_for — the law, and what an empty sender means
-/
import ReliableSender.Proofs.Chronicle
import ReliableSender.Proofs.Sender.Places
import ReliableSender.Transport.Channel

namespace ReliableSender

/-! ## §1. Transmitted packets. -/

namespace Ledger

/-- Whether an attempt transmitted its packet. -/
def isSent (a : DataPacket × Except Fault Progress) : Bool :=
  match a.2 with
  | .ok (.sent _) => true
  | _ => false

/-- The packets transmitted as new data, in that order. -/
def sent (l : Ledger) : List DataPacket := (l.attempted.filter isSent).map Prod.fst

theorem sent_append (l g : Ledger) : (l.append g).sent = l.sent ++ g.sent := by
  unfold sent append
  rw [List.filter_append, List.map_append]

theorem mem_attempted_of_mem_sent {l : Ledger} {p : DataPacket} (h : p ∈ l.sent) :
    ∃ a ∈ l.attempted, a.1 = p := by
  obtain ⟨a, ha, hp⟩ := List.mem_map.mp h
  exact ⟨a, (List.mem_filter.mp ha).1, hp⟩

theorem crashes_eq_zero {l : Ledger} (h : ∀ a ∈ l.attempted, ∃ progress, a.2 = .ok progress) :
    l.crashes = 0 := by
  refine List.countP_eq_zero.mpr fun a ha hcrash => ?_
  obtain ⟨progress, hok⟩ := h a ha
  unfold isCrash at hcrash
  rw [hok] at hcrash
  exact absurd hcrash Bool.false_ne_true

/-- No attempt failed if progress came of all of them. -/
theorem ok_of_outcomes {l : Ledger} (outcomes : List Progress)
    (h : l.attempted.map Prod.snd = outcomes.map .ok) :
    ∀ a ∈ l.attempted, ∃ progress, a.2 = .ok progress := by
  intro a ha
  have hmem := List.mem_map_of_mem (f := Prod.snd) ha
  rw [h] at hmem
  obtain ⟨progress, -, hok⟩ := List.mem_map.mp hmem
  exact ⟨progress, hok.symm⟩

/-- An attempt that did not fail and was not a duplicate transmitted its packet. -/
theorem isSent_of_ok {a : DataPacket × Except Fault Progress}
    (h : isSent a = true ∨ ∃ fault, a.2 = .error fault) (hok : ∃ progress, a.2 = .ok progress) :
    isSent a = true := by
  rcases h with hsent | ⟨fault, hfault⟩
  · exact hsent
  · obtain ⟨progress, hprogress⟩ := hok
    rw [hprogress] at hfault
    exact absurd hfault (by simp)

/-- Numbers that are distinct along a ledger are distinct along its beginning, and do not
come again in its end. -/
theorem distinct_of_append {l g : Ledger}
    (h : ((l.append g).attempted.map fun a => a.1.sequence).Nodup) :
    (l.attempted.map fun a => a.1.sequence).Nodup
      ∧ ∀ b ∈ l.attempted, ∀ a ∈ g.attempted, b.1.sequence ≠ a.1.sequence := by
  replace h : (l.attempted.map (fun a => a.1.sequence)
      ++ g.attempted.map (fun a => a.1.sequence)).Nodup := by
    rw [← List.map_append]
    exact h
  obtain ⟨hbegin, -, hapart⟩ := List.nodup_append.mp h
  exact ⟨hbegin, fun b hb a ha => hapart _ (List.mem_map_of_mem hb) _ (List.mem_map_of_mem ha)⟩

end Ledger

/-! ## §2. The send buffer. -/

namespace Sender

variable {σ τ : Type}

/-- What an event does to the send buffer, with the attempt that goes with it. -/
inductive BufferChanges (s : Sender σ τ) :
    Event σ → SendBuffer → List (DataPacket × Except Fault Progress) → Prop where
  | sends {ev : Event σ} {p : DataPacket} (free : s.engine.buffer.contains p.sequence = false) :
      BufferChanges s ev (s.engine.buffer.push p) [(p, .ok (.sent p.sequence))]
  | drops {ev : Event σ} {p : DataPacket} (taken : s.engine.buffer.contains p.sequence = true) :
      BufferChanges s ev s.engine.buffer [(p, .ok .idle)]
  | fails {ev : Event σ} {p : DataPacket} {fault : Fault} :
      BufferChanges s ev s.engine.buffer [(p, .error fault)]
  | acknowledges {x : Signal σ} {k : Nat} (number : x.acknowledgment? = some k) :
      BufferChanges s (.signal x) (s.engine.buffer.removeUpTo k).2 []
  | keeps {ev : Event σ} : BufferChanges s ev s.engine.buffer []

namespace BufferChanges

variable {s : Sender σ τ} {ev : Event σ} {b : SendBuffer} {g : Ledger} {p : DataPacket}

/-- What is new in the buffer was transmitted. -/
theorem mem_sent (h : BufferChanges s ev b g.attempted) (hp : p ∈ b.entries) :
    p ∈ s.engine.buffer.entries ∨ p ∈ g.sent := by
  unfold Ledger.sent
  generalize g.attempted = attempted at h ⊢
  cases h with
  | sends hfree =>
    rcases (SendBuffer.mem_push hfree).mp hp with rfl | hp
    · exact Or.inr List.mem_cons_self
    · exact Or.inl hp
  | acknowledges => exact Or.inl (SendBuffer.mem_removeUpTo.mp hp).1
  | drops | fails | keeps => exact Or.inl hp

/-- What is transmitted is in the buffer. -/
theorem mem_of_sent (h : BufferChanges s ev b g.attempted) (hp : p ∈ g.sent) :
    p ∈ b.entries := by
  unfold Ledger.sent at hp
  generalize g.attempted = attempted at h hp
  cases h with
  | @sends _ q hfree =>
    obtain rfl : p = q := List.mem_singleton.mp hp
    exact (SendBuffer.mem_push hfree).mpr (Or.inl rfl)
  | drops | fails | acknowledges | keeps => exact absurd hp List.not_mem_nil

/-- Only an acknowledgment of a number above its own takes a packet out. -/
theorem kept_or_acknowledged (h : BufferChanges s ev b g.attempted)
    (hp : p ∈ s.engine.buffer.entries) :
    p ∈ b.entries ∨ ∃ x k, ev = .signal x ∧ x.acknowledgment? = some k ∧ p.sequence < k := by
  generalize g.attempted = attempted at h
  cases h with
  | sends hfree => exact Or.inl ((SendBuffer.mem_push hfree).mpr (Or.inr hp))
  | @acknowledges x k hk =>
    by_cases hcovered : s.engine.buffer.lastAck ≤ p.sequence ∧ p.sequence < k
    · exact Or.inr ⟨x, k, rfl, hk, hcovered.2⟩
    · exact Or.inl (SendBuffer.mem_removeUpTo.mpr ⟨hp, hcovered⟩)
  | drops | fails | keeps => exact Or.inl hp

theorem counted (h : BufferChanges s ev b g.attempted) (hs : s.engine.buffer.Counted) :
    b.Counted := by
  generalize g.attempted = attempted at h
  cases h with
  | sends hfree => exact SendBuffer.counted_push hfree hs
  | acknowledges => exact SendBuffer.counted_removeUpTo _ hs
  | drops | fails | keeps => exact hs

/-- A packet is dropped only if its number is in the buffer. -/
theorem decided (h : BufferChanges s ev b g.attempted) :
    ∀ a ∈ g.attempted, Ledger.isSent a = true ∨ (∃ fault, a.2 = .error fault)
      ∨ a.1.sequence ∈ s.engine.buffer.keys := by
  generalize g.attempted = attempted at h
  intro a ha
  cases h with
  | sends =>
    obtain rfl := List.mem_singleton.mp ha
    exact Or.inl rfl
  | drops htaken =>
    obtain rfl := List.mem_singleton.mp ha
    exact Or.inr (Or.inr (SendBuffer.contains_eq_true_iff.mp htaken))
  | @fails _ p fault =>
    obtain rfl := List.mem_singleton.mp ha
    exact Or.inr (Or.inl ⟨fault, rfl⟩)
  | acknowledges | keeps => exact absurd ha List.not_mem_nil

end BufferChanges

variable [Sink σ]

theorem bufferChanges_transmit (s : Sender σ τ) (ev : Event σ) (p : DataPacket) :
    BufferChanges s ev (s.engine.transmit p).2.buffer [(p, (s.engine.transmit p).1)] := by
  have ht := s.engine.transmits p
  generalize s.engine.transmit p = r at ht ⊢
  cases ht with
  | duplicate htaken => exact .drops htaken
  | sent hfree hout => exact .sends hfree
  | failed hfree hrefused => exact .fails

variable [SilenceTimer τ]

theorem bufferChanges {s s' : Sender σ τ} {ev : Event σ} {g : Ledger} (h : Changes s ev s' g) :
    BufferChanges s ev s'.engine.buffer g.attempted := by
  cases h with
  | transmits hw halive => exact s.bufferChanges_transmit _ _
  | @crashes window p hw hcrash =>
    have ht := s.bufferChanges_transmit .work p
    rw [hcrash] at ht
    exact ht
  | @resends p hw =>
    show BufferChanges s _ (s.engine.resend p).2.buffer []
    rw [Engine.resend_buffer]
    exact .keeps
  | signals x =>
    show BufferChanges s _ (s.engine.handle x).buffer []
    rw [Engine.handle_buffer]
    cases hx : x.acknowledgment? with
    | none => exact .keeps
    | some k => exact .acknowledges hx
  | _ => exact .keeps

/-! ## §3. What became of transmitted packets. -/

/-- The packet was transmitted, and later an acknowledgment of a number above its own
took it out of the buffer. -/
def Acknowledged (start : Sender σ τ) (history : List (Event σ)) (p : DataPacket) : Prop :=
  Sometime (fun before ev => p ∈ (start.ledger before).sent
    ∧ p ∈ (start.replay before).engine.buffer.entries
    ∧ p ∉ ((start.replay before).apply ev).engine.buffer.entries
    ∧ ∃ x k, ev = .signal x ∧ x.acknowledgment? = some k ∧ p.sequence < k) history

/-- Where transmitted packets are, at the end of a history. -/
structure Traced (start : Sender σ τ) (history : List (Event σ)) : Prop where
  /-- Only transmitted packets are buffered. -/
  sent : ∀ p ∈ (start.replay history).engine.buffer.entries, p ∈ (start.ledger history).sent
  /-- A transmitted packet stays in the buffer until it is acknowledged. -/
  kept : ∀ p ∈ (start.ledger history).sent,
    p ∈ (start.replay history).engine.buffer.entries ∨ start.Acknowledged history p
  /-- With distinct numbers an attempt transmits its packet or fails. -/
  decided : ((start.ledger history).attempted.map fun a => a.1.sequence).Nodup →
    ∀ a ∈ (start.ledger history).attempted, Ledger.isSent a = true ∨ ∃ fault, a.2 = .error fault

theorem traced_replay (config : Config) (sink : σ) (timer : τ) (history : List (Event σ)) :
    (fresh config sink timer).Traced history := by
  induction history using List.reverseRecOn with
  | nil =>
    refine ⟨fun p hp => ?_, fun p hp => ?_, fun _ a ha => ?_⟩
    · exact absurd hp List.not_mem_nil
    · exact absurd hp List.not_mem_nil
    · exact absurd ha List.not_mem_nil
  | append_singleton history ev ih =>
    have hb := bufferChanges (changes ((fresh config sink timer).replay history) ev)
    refine ⟨fun p hp => ?_, fun p hp => ?_, fun hnodup a ha => ?_⟩
    · -- The last event puts into the buffer only what it transmits.
      rw [ledger_concat, Ledger.sent_append, List.mem_append]
      rw [replay_concat] at hp
      rcases hb.mem_sent hp with hold | hnew
      · exact Or.inl (ih.sent p hold)
      · exact Or.inr hnew
    · -- A packet leaves the buffer with the last event, or has left it before, or is in it.
      rw [ledger_concat, Ledger.sent_append, List.mem_append] at hp
      unfold Acknowledged
      rw [replay_concat, sometime_concat]
      rcases hp with hold | hnew
      · by_cases hstill : p
            ∈ (((fresh config sink timer).replay history).apply ev).engine.buffer.entries
        · exact Or.inl hstill
        · rcases ih.kept p hold with hin | hgone
          · rcases hb.kept_or_acknowledged hin with hkept | hack
            · exact absurd hkept hstill
            · exact Or.inr (Or.inr ⟨hold, hin, hstill, hack⟩)
          · exact Or.inr (Or.inl hgone)
      · exact Or.inl (hb.mem_of_sent hnew)
    · rw [ledger_concat] at hnodup ha
      generalize ((fresh config sink timer).replay history).gain ev = g at hb hnodup ha
      obtain ⟨hold, hapart⟩ := Ledger.distinct_of_append hnodup
      rcases List.mem_append.mp ha with ha | ha
      · exact ih.decided hold a ha
      · rcases hb.decided a ha with hsent | hfailed | htaken
        · exact Or.inl hsent
        · exact Or.inr hfailed
        · -- A packet of this number was attempted before, since it is buffered.
          obtain ⟨q, hq, hqs⟩ := SendBuffer.mem_keys.mp htaken
          obtain ⟨c, hc, rfl⟩ := Ledger.mem_attempted_of_mem_sent (ih.sent q hq)
          exact absurd hqs (hapart c hc a ha)

/-- The count in flight is the number of buffered packets. -/
theorem buffer_counted_replay (config : Config) (sink : σ) (timer : τ)
    (history : List (Event σ)) :
    ((fresh config sink timer).replay history).engine.buffer.Counted := by
  refine invariant_replay (fun s _ => s.engine.buffer.Counted) ?_
    (fun h hi => (bufferChanges h).counted hi) history
  rfl

end Sender

/-! ## §4. The account. -/

namespace Sender

variable {σ τ : Type}

/-- The packet in the worker's hands: taken out of the queue, and not handled. -/
def inHand (s : Sender σ τ) (l : Ledger) : List DataPacket :=
  if s.worker.isSettling then (l.attempted.getLast?.map Prod.fst).toList else s.worker.held

/-- The packets that the pending count is made of, as long as no worker crashed. -/
def counted (s : Sender σ τ) (l : Ledger) : List DataPacket :=
  s.queue.waiting ++ s.inHand l ++ l.discarded ++ s.offers ++ s.writer.offered

theorem length_inHand {s : Sender σ τ} {l : Ledger} (hs : s.places.Consistent l) :
    (s.inHand l).length = s.worker.held.length + s.worker.isSettling.toNat := by
  unfold inHand
  by_cases hsettling : s.worker.isSettling = true
  · obtain ⟨hattempted, hheld⟩ := hs.settling hsettling
    have hnone : s.worker.held = [] := hheld
    obtain ⟨a, ha⟩ := List.getLast?_isSome.mpr hattempted |> Option.isSome_iff_exists.mp
    rw [if_pos hsettling, ha, hsettling, hnone]
    rfl
  · rw [if_neg hsettling, Bool.eq_false_iff.mpr hsettling]
    rfl

/-- The count is the number of these packets. -/
theorem pending_eq_counted {s : Sender σ τ} {l : Ledger} (hs : s.places.Consistent l)
    (hcrash : l.crashes = 0) : s.pending = UInt64.ofNat (s.counted l).length := by
  refine hs.pending.trans (congrArg _ ?_)
  have hinHand := length_inHand hs
  unfold Places.unhandled counted places
  simp only [List.length_append]
  omega

/-- There are never more of them than the queue has room for, and one for each caller
and the worker. -/
theorem length_counted_le {s : Sender σ τ} {l : Ledger} (hs : s.places.Consistent l) :
    (s.counted l).length ≤ s.queue.capacity + s.offers.length + 3 := by
  have hinHand := length_inHand hs
  have hbounded : s.queue.waiting.length + l.discarded.length ≤ max s.queue.capacity 1 :=
    hs.bounded
  -- A worker that has a packet to settle holds no other.
  have hone : s.worker.held.length + s.worker.isSettling.toNat ≤ 1 := by
    by_cases hsettling : s.worker.isSettling = true
    · have hnone : s.worker.held = [] := (hs.settling hsettling).2
      rw [hnone, hsettling]
      exact Nat.le_refl 1
    · rw [Bool.eq_false_iff.mpr hsettling]
      exact hs.single
  have hwriter : s.writer.offered.length ≤ 1 := by
    unfold Writer.offered
    split
    · exact Nat.le_refl 1
    · exact Nat.zero_le 1
  unfold counted
  simp only [List.length_append]
  omega

/-- If nothing is pending then nothing is in these places, as long as their packets are
fewer than the count can hold.  More of them would not fit in memory. -/
theorem counted_eq_nil {s : Sender σ τ} {l : Ledger} (hs : s.places.Consistent l)
    (hcrash : l.crashes = 0) (hroom : s.queue.capacity + s.offers.length + 3 < UInt64.size)
    (hzero : s.pending = 0) : s.counted l = [] := by
  have hlt : (s.counted l).length < UInt64.size := Nat.lt_of_le_of_lt (length_counted_le hs) hroom
  have hlength := congrArg UInt64.toNat ((pending_eq_counted hs hcrash).symm.trans hzero)
  rw [UInt64.toNat_ofNat_of_lt' hlt] at hlength
  exact List.eq_nil_of_length_eq_zero hlength

/-- An accepted packet is still counted, or it was transmitted. -/
theorem counted_or_sent {s : Sender σ τ} {l : Ledger} (hs : s.places.Consistent l)
    (hsent : ∀ a ∈ l.attempted, Ledger.isSent a = true) {p : DataPacket} (hp : p ∈ l.accepted) :
    p ∈ s.counted l ∨ p ∈ l.sent := by
  have hfifo : l.accepted
      = l.attempted.map Prod.fst ++ s.worker.held ++ l.discarded ++ s.queue.waiting := hs.fifo
  rw [hfifo] at hp
  simp only [List.mem_append] at hp
  unfold counted
  simp only [List.mem_append]
  rcases hp with ((hattempted | hheld) | hdiscarded) | hwaiting
  · obtain ⟨a, ha, rfl⟩ := List.mem_map.mp hattempted
    exact Or.inr (List.mem_map_of_mem (List.mem_filter.mpr ⟨ha, hsent a ha⟩))
  · have hinHand : p ∈ s.inHand l := by
      unfold inHand
      by_cases hsettling : s.worker.isSettling = true
      · have hnone : s.worker.held = [] := (hs.settling hsettling).2
        rw [hnone] at hheld
        exact absurd hheld List.not_mem_nil
      · rw [if_neg hsettling]
        exact hheld
    exact Or.inl (Or.inl (Or.inl (Or.inl (Or.inr hinHand))))
  · exact Or.inl (Or.inl (Or.inl (Or.inr hdiscarded)))
  · exact Or.inl (Or.inl (Or.inl (Or.inl (Or.inl hwaiting))))

/-- What was attempted is a beginning of what was accepted. -/
theorem attempted_begins {s : Sender σ τ} {l : Ledger} (hs : s.places.Consistent l) :
    l.attempted.map Prod.fst <+: l.accepted := by
  refine ⟨s.worker.held ++ l.discarded ++ s.queue.waiting, ?_⟩
  rw [hs.fifo, ← List.append_assoc, ← List.append_assoc]
  rfl

/-- If accepted packets have distinct numbers then no number is attempted twice. -/
theorem attempted_distinct {s : Sender σ τ} {l : Ledger} (hs : s.places.Consistent l)
    (hdistinct : (l.accepted.map DataPacket.sequence).Nodup) :
    (l.attempted.map fun a => a.1.sequence).Nodup := by
  have hbegins := (attempted_begins hs).map DataPacket.sequence
  rw [List.map_map] at hbegins
  exact hdistinct.sublist hbegins.sublist

end Sender

/-! ## §5. No packet is unaccounted for. -/

namespace Sender

variable {σ τ : Type} [Sink σ] [SilenceTimer τ]

/-- With distinct numbers no attempt is dropped as a duplicate, so those that did not fail
transmitted their packets. -/
theorem all_sent {start : Sender σ τ} {history : List (Event σ)}
    (hs : (start.replay history).places.Consistent (start.ledger history))
    (ht : start.Traced history)
    (hdistinct : ((start.ledger history).accepted.map DataPacket.sequence).Nodup)
    (hfine : ∀ a ∈ (start.ledger history).attempted, ∃ progress, a.2 = .ok progress) :
    ∀ a ∈ (start.ledger history).attempted, Ledger.isSent a = true := fun a ha =>
  Ledger.isSent_of_ok (ht.decided (attempted_distinct hs hdistinct) a ha) (hfine a ha)

/-- **No packet is unaccounted for.**  With distinct numbers, and as long as the sink takes
all new data, the pending count is the number of packets that are waiting, in the worker's
hands, discarded or being offered, and every accepted packet is one of them, or buffered,
or was acknowledged after its transmission.  Hence a sender that reports nothing
outstanding has seen all packets accepted before acknowledged, even if it looked at the
count first, at the buffer later and at the losses still later. -/
theorem every_packet_accounted_for (config : Config) (sink : σ) (timer : τ)
    (history : List (Event σ)) :
    let start : Sender σ τ := fresh config sink timer
    let s := start.replay history
    let l := start.ledger history
    (l.accepted.map DataPacket.sequence).Nodup →
    (∀ a ∈ l.attempted, ∃ progress, a.2 = .ok progress) →
      s.pending = UInt64.ofNat (s.counted l).length
      ∧ (∀ p ∈ l.accepted,
          p ∈ s.counted l ∨ p ∈ s.engine.buffer.entries ∨ start.Acknowledged history p)
      ∧ ∀ later later', config.queueCapacity + s.offers.length + 3 < UInt64.size →
          outstandingAcross s (start.replay (history ++ later))
            (start.replay (history ++ later ++ later')) = false →
          ∀ p ∈ l.accepted, start.Acknowledged (history ++ later) p := by
  intro start s l hdistinct hfine
  have hconsistent : s.places.Consistent l := consistent_replay config sink timer history
  have htraced : start.Traced history := traced_replay config sink timer history
  have hcrash := Ledger.crashes_eq_zero hfine
  have hsent := all_sent hconsistent htraced hdistinct hfine
  have hpending := pending_eq_counted hconsistent hcrash
  refine ⟨hpending, fun p hp => ?_, fun later later' hcapacity hnone p hp => ?_⟩
  · rcases counted_or_sent hconsistent hsent hp with hcounted | hp
    · exact Or.inl hcounted
    · exact Or.inr (htraced.kept p hp)
  · unfold outstandingAcross at hnone
    simp only [Bool.or_eq_false_iff, bne_eq_false_iff_eq] at hnone
    obtain ⟨⟨hzero, hunacknowledged⟩, -⟩ := hnone
    -- At the first look nothing was counted, so every accepted packet had been transmitted.
    have hroom : s.queue.capacity = config.queueCapacity :=
      capacity_replay config sink timer history
    have hempty : s.counted l = [] :=
      counted_eq_nil hconsistent hcrash (by rw [hroom]; exact hcapacity) hzero
    rcases counted_or_sent hconsistent hsent hp with hcounted | hp
    · rw [hempty] at hcounted
      exact absurd hcounted List.not_mem_nil
    · -- It was in the buffer, and the buffer is empty at the second look.
      have hlater : p ∈ (start.ledger (history ++ later)).sent := by
        rw [ledger_append, Ledger.sent_append]
        exact List.mem_append_left _ hp
      rcases (traced_replay config sink timer (history ++ later)).kept p hlater with hin | hgone
      · have hcount := buffer_counted_replay config sink timer (history ++ later)
        refine absurd (SendBuffer.mem_keys.mpr ⟨p, hin, rfl⟩) ?_
        exact hcount.eq_zero_iff.mp hunacknowledged p.sequence
      · exact hgone

/-- Two packets are offered.  The first one is acknowledged while the worker has the second
one in its hands, and one packet is counted.  Then the second one is in the buffer and nothing
is counted; a look at the buffer once it is acknowledged too, and one at the losses after
that, find nothing outstanding. -/
theorem accounted_for_two_packets :
    let p (n : Nat) : DataPacket := { sequence := n }
    let start : Sender ChannelSink NoTimer := fresh {} {} {}
    let early : List (Event ChannelSink) :=
      [.announce (p 0), .attempt 0, .announce (p 1), .attempt 0] ++ List.replicate 13 .work
        ++ [.signal (.acknowledge 0 1)]
    let late := early ++ List.replicate 2 .work
    let later : List (Event ChannelSink) := [.signal (.acknowledge 0 2)]
    let later' : List (Event ChannelSink) := [.work]
    (∀ history ∈ [early, late],
        ((start.ledger history).accepted.map DataPacket.sequence).Nodup
          ∧ ∀ a ∈ (start.ledger history).attempted, ∃ progress, a.2 = .ok progress)
      ∧ (start.replay early).worker.held = [p 1] ∧ (start.replay early).pending = 1
      ∧ start.Acknowledged early (p 0)
      ∧ (start.replay late).engine.buffer.entries = [p 1]
      ∧ outstandingAcross (start.replay late) (start.replay (late ++ later))
          (start.replay (late ++ later ++ later')) = false
      ∧ ∀ q ∈ [p 0, p 1], start.Acknowledged (late ++ later) q := by
  intro p start early late later later'
  have hdistinct : ∀ history ∈ [early, late],
      ((start.ledger history).accepted.map DataPacket.sequence).Nodup := by decide
  have hearly : ∀ a ∈ (start.ledger early).attempted, ∃ progress, a.2 = .ok progress :=
    Ledger.ok_of_outcomes [.sent 0] (by decide)
  have hlate : ∀ a ∈ (start.ledger late).attempted, ∃ progress, a.2 = .ok progress :=
    Ledger.ok_of_outcomes [.sent 0, .sent 1] (by decide)
  have hfine : ∀ history ∈ [early, late],
      ∀ a ∈ (start.ledger history).attempted, ∃ progress, a.2 = .ok progress :=
    List.forall_mem_cons.mpr ⟨hearly, List.forall_mem_singleton.mpr hlate⟩
  have hlaw := every_packet_accounted_for {} ({} : ChannelSink) ({} : NoTimer)
  have hbefore := hlaw early (hdistinct early (by simp))
  have hafter := hlaw late (hdistinct late (by simp))
  obtain ⟨hpending, hplaces, -⟩ := hbefore hearly
  obtain ⟨-, -, hlooks⟩ := hafter hlate
  have haccepted : (start.ledger late).accepted = [p 0, p 1] := by decide
  have hnone : outstandingAcross (start.replay late) (start.replay (late ++ later))
      (start.replay (late ++ later ++ later')) = false := by decide
  refine ⟨fun history h => ⟨hdistinct history h, hfine history h⟩, by decide,
    hpending.trans (by decide), ?_, by decide, hnone, ?_⟩
  · -- It is neither counted nor in the buffer.
    rcases hplaces (p 0) (by decide) with hcounted | hin | hgone
    · exact absurd hcounted (by decide)
    · exact absurd hin (by decide)
    · exact hgone
  · rw [← haccepted]
    exact hlooks later later' (by decide) hnone

end Sender

end ReliableSender
