/-
  ReliableSender.Proofs.Engine.InOrder
  ────────────────────────────────────
  **NUMBERS IN ORDER, FROM THE QUEUE TO THE PEER.**

  If packets enter the queue with the numbers 0, 1, 2, …, if the sink takes
  all new data, and if the peer acknowledges only what was transmitted, then
  two bounds say where every accepted packet is:

      0 ..... lastAck ..... sentBound ..... accepted
        gone      in the buffer    held or waiting

  Nothing overtakes anything: the buffer is one stretch without gaps, from
  the lowest number that the peer may miss to the largest one transmitted.

      ordered_replay        — accepted = transmitted ++ held ++ waiting
      isUnacknowledged_iff  — a number is buffered exactly if it is in that stretch
-/
import ReliableSender.Proofs.Engine.Overtaken
import ReliableSender.Proofs.Engine.Steps

namespace ReliableSender

/-! ## §1. Numbered packets. -/

/-- The packets carry the numbers 0, 1, 2, … in this order. -/
def Numbered (ps : List DataPacket) : Prop :=
  ps.map DataPacket.sequence = List.range ps.length

instance (ps : List DataPacket) : Decidable (Numbered ps) :=
  inferInstanceAs (Decidable (ps.map DataPacket.sequence = List.range ps.length))

theorem Numbered.left {ps qs : List DataPacket} (h : Numbered (ps ++ qs)) : Numbered ps := by
  unfold Numbered at h
  rw [List.map_append, List.length_append, List.range_add] at h
  exact List.append_inj_left h (by rw [List.length_map, List.length_range])

/-- The place of a packet is its number. -/
theorem Numbered.sequence_eq {ps : List DataPacket} (h : Numbered ps) {n : Nat} {p : DataPacket}
    (hp : ps[n]? = some p) : p.sequence = n := by
  have hnth : (ps.map DataPacket.sequence)[n]? = some p.sequence := by
    rw [List.getElem?_map, hp]
    rfl
  obtain ⟨hn, heq⟩ := List.getElem?_eq_some_iff.mp (h ▸ hnth)
  rw [← heq, List.getElem_range]

theorem Numbered.middle {ps qs : List DataPacket} {p : DataPacket}
    (h : Numbered (ps ++ p :: qs)) : p.sequence = ps.length := by
  refine h.sequence_eq ?_
  rw [List.getElem?_append_right (Nat.le_refl _), Nat.sub_self]
  rfl

theorem Numbered.lt_length {ps : List DataPacket} (h : Numbered ps) {p : DataPacket}
    (hp : p ∈ ps) : p.sequence < ps.length := by
  obtain ⟨n, hn⟩ := List.mem_iff_getElem?.mp hp
  obtain ⟨hlt, _⟩ := List.getElem?_eq_some_iff.mp hn
  rw [h.sequence_eq hn]
  exact hlt

theorem Numbered.exists_mem {ps : List DataPacket} (h : Numbered ps) {n : Nat}
    (hn : n < ps.length) : ∃ p ∈ ps, p.sequence = n :=
  ⟨ps[n], List.getElem_mem hn, h.sequence_eq (List.getElem?_eq_getElem hn)⟩

theorem Engine.isSentOut_iff {σ τ : Type} (e : Engine σ τ) (s : Nat) :
    e.isSentOut s = true ↔ s < e.sentBound := by
  unfold isSentOut largestSent?
  split
  · rename_i hzero
    rw [hzero]
    exact ⟨fun h => absurd h Bool.false_ne_true, fun h => absurd h (Nat.not_lt_zero s)⟩
  · show decide (s ≤ e.sentBound - 1) = true ↔ s < e.sentBound
    rw [decide_eq_true_eq]
    omega

/-! ## §2. Who behaves how. -/

/-- The packet that a stage holds: out of the queue, not sent yet. -/
def Stage.held : Stage → List DataPacket
  | .holding _ p => [p]
  | _ => []

namespace Iteration

variable {σ τ : Type} [Sink σ] [SilenceTimer τ]

/-- What the queue accepts of an event. -/
def admitted (i : Iteration σ τ) : Event σ → List DataPacket
  | .offer p => if i.queue.admission = .accepted then [p] else []
  | _ => []

/-- The packets that the queue accepts in a history. -/
def accepted (i : Iteration σ τ) (history : List (Event σ)) : List DataPacket :=
  gather apply admitted i history

theorem accepted_concat (i : Iteration σ τ) (history : List (Event σ)) (ev : Event σ) :
    i.accepted (history ++ [ev]) = i.accepted history ++ (i.replay history).admitted ev :=
  gather_concat apply admitted i history ev

/-- An event that acknowledges, acknowledges transmitted numbers only. -/
def PeerHonest (i : Iteration σ τ) : Event σ → Prop
  | .signal x => ∀ k ∈ x.acknowledgment?, k ≤ i.engine.sentBound
  | _ => True

/-- If the event transmits new data, the sink takes it. -/
def SinkTakes (i : Iteration σ τ) : Event σ → Prop
  | .act => ∀ a ∈ i.attempt?, isRefusal a.2 = false
  | _ => True

instance (i : Iteration σ τ) : (ev : Event σ) → Decidable (i.PeerHonest ev)
  | .signal x => inferInstanceAs (Decidable (∀ k ∈ x.acknowledgment?, k ≤ i.engine.sentBound))
  | .act | .offer _ | .close => .isTrue trivial

instance (i : Iteration σ τ) : (ev : Event σ) → Decidable (i.SinkTakes ev)
  | .act => inferInstanceAs (Decidable (∀ a ∈ i.attempt?, isRefusal a.2 = false))
  | .offer _ | .close | .signal _ => .isTrue trivial

/-! ## §3. Where the accepted packets are. -/

/-- The accepted packets, in order: those transmitted, of which the unacknowledged ones are
buffered, the one that is held, and those that wait. -/
structure Ordered (i : Iteration σ τ) (accepted sent : List DataPacket) : Prop where
  fifo : accepted = sent ++ (i.stage.held ++ i.queue.waiting)
  bound : i.engine.sentBound = sent.length
  kept : ∀ p, p ∈ i.engine.buffer.entries ↔ p ∈ sent ∧ i.engine.lastAck ≤ p.sequence
  honest : i.engine.lastAck ≤ sent.length

variable {i i' : Iteration σ τ} {accepted sent : List DataPacket}

omit [Sink σ] [SilenceTimer τ] in
/-- Most events move no packet. -/
theorem Ordered.keep (hi : i.Ordered accepted sent)
    (hbuffer : i'.engine.buffer = i.engine.buffer)
    (hbound : i'.engine.sentBound = i.engine.sentBound)
    (hwaiting : i'.stage.held ++ i'.queue.waiting = i.stage.held ++ i.queue.waiting) :
    i'.Ordered accepted sent := by
  refine ⟨?_, hbound.trans hi.bound, fun p => ?_, ?_⟩
  · rw [hwaiting]
    exact hi.fifo
  · unfold Engine.lastAck
    rw [hbuffer]
    exact hi.kept p
  · unfold Engine.lastAck
    rw [hbuffer]
    exact hi.honest

omit [Sink σ] [SilenceTimer τ] in
/-- The packet at hand has the first number that was not transmitted. -/
theorem Ordered.free {window : Nat} {p : DataPacket} (hi : i.Ordered accepted sent)
    (hnumbered : Numbered accepted) (hs : i.stage = .holding window p) :
    p.sequence = sent.length ∧ i.engine.buffer.contains p.sequence = false := by
  have hfifo := hi.fifo
  rw [hs] at hfifo
  rw [hfifo] at hnumbered
  have hp : p.sequence = sent.length := hnumbered.middle
  refine ⟨hp, SendBuffer.contains_eq_false_iff.mpr fun hmem => ?_⟩
  obtain ⟨q, hq, hqp⟩ := SendBuffer.mem_keys.mp hmem
  have hlt := hnumbered.left.lt_length ((hi.kept q).mp hq).1
  omega

omit [SilenceTimer τ] in
theorem ordered_act (hi : i.Ordered accepted sent) (hnumbered : Numbered accepted)
    (htakes : i.SinkTakes .act) : ∃ sent, i.act.Ordered accepted sent := by
  unfold act
  split
  · rename_i outcome hs
    exact ⟨sent, hi.keep rfl rfl (by rw [hs]; rfl)⟩
  · have hadv := i.advances
    generalize i.advance = i' at hadv ⊢
    cases hadv with
    | seesLoss hs | seesNone hs | takesLoss hs | skipsLoss hs | findsLoss hs | countsFlight hs
    | readsWindow hs | windowFull hs | pollsNothing hs | settles hs =>
      exact ⟨sent, hi.keep rfl rfl (by rw [hs]; rfl)⟩
    | resends hs =>
      exact ⟨sent, hi.keep (i.engine.resend_buffer _) (i.engine.resend_sentBound _)
        (by rw [hs]; rfl)⟩
    | pollsPacket hs hhead => exact ⟨sent, hi.keep rfl rfl (by rw [hs, hhead]; rfl)⟩
    | @transmits window p hs halive =>
      obtain ⟨hp, hfree⟩ := hi.free hnumbered hs
      have hattempt : i.attempt? = some (p, (i.engine.transmit p).1) := by
        unfold attempt?
        rw [hs]
      have htaken := htakes _ hattempt
      have ht := i.engine.transmits p
      generalize i.engine.transmit p = r at ht htaken ⊢
      cases ht with
      | duplicate hc => exact absurd (hfree.symm.trans hc) Bool.false_ne_true
      | failed => exact absurd htaken.symm Bool.false_ne_true
      | sent =>
        -- The transmitted packets are one more, and so is the bound.
        have hfifo := hi.fifo
        rw [hs] at hfifo
        refine ⟨sent ++ [p], ?_, ?_, fun q => ?_, ?_⟩
        · rw [hfifo, List.append_assoc]
          rfl
        · show max i.engine.sentBound (p.sequence + 1) = (sent ++ [p]).length
          rw [hi.bound, hp, List.length_append, List.length_singleton]
          omega
        · show q ∈ (i.engine.buffer.push p).entries
            ↔ q ∈ sent ++ [p] ∧ i.engine.lastAck ≤ q.sequence
          rw [SendBuffer.mem_push hfree, hi.kept q, List.mem_append, List.mem_singleton]
          constructor
          · rintro (rfl | ⟨hq, hle⟩)
            · exact ⟨Or.inr rfl, hp ▸ hi.honest⟩
            · exact ⟨Or.inl hq, hle⟩
          · rintro ⟨hq | rfl, hle⟩
            · exact Or.inr ⟨hq, hle⟩
            · exact Or.inl rfl
        · show i.engine.lastAck ≤ (sent ++ [p]).length
          rw [List.length_append]
          exact Nat.le_trans hi.honest (Nat.le_add_right _ _)
    | @crashes window p hs hcrash =>
      have hattempt : i.attempt? = some (p, (i.engine.transmit p).1) := by
        unfold attempt?
        rw [hs]
      have htaken := htakes _ hattempt
      rw [hcrash] at htaken
      exact absurd htaken.symm Bool.false_ne_true
    | rests => exact ⟨sent, hi⟩

theorem ordered_signal (hi : i.Ordered accepted sent) {x : Signal σ}
    (hhonest : i.PeerHonest (.signal x)) : (i.apply (.signal x)).Ordered accepted sent := by
  have hbuffer : (i.apply (.signal x)).engine.buffer
      = x.acknowledgment?.elim i.engine.buffer fun k => (i.engine.buffer.removeUpTo k).2 :=
    i.engine.handle_buffer x
  have hbound : (i.apply (.signal x)).engine.sentBound = i.engine.sentBound :=
    i.engine.handle_sentBound x
  cases hx : x.acknowledgment? with
  | none =>
    rw [hx] at hbuffer
    exact hi.keep hbuffer hbound rfl
  | some k =>
    have hk : k ≤ sent.length := hi.bound ▸ hhonest k hx
    rw [hx, Option.elim_some] at hbuffer
    have hlastAck : (i.apply (.signal x)).engine.lastAck = max i.engine.lastAck k := by
      unfold Engine.lastAck
      rw [hbuffer, SendBuffer.lastAck_removeUpTo]
    refine ⟨hi.fifo, hbound.trans hi.bound, fun p => ?_, ?_⟩
    · rw [hbuffer, SendBuffer.mem_removeUpTo, hi.kept p, hlastAck]
      show (p ∈ sent ∧ i.engine.lastAck ≤ p.sequence)
          ∧ ¬ (i.engine.lastAck ≤ p.sequence ∧ p.sequence < k)
        ↔ p ∈ sent ∧ max i.engine.lastAck k ≤ p.sequence
      rw [and_assoc]
      refine and_congr_right fun _ => ?_
      omega
    · rw [hlastAck]
      exact Nat.max_le.mpr ⟨hi.honest, hk⟩

theorem ordered_apply {ev : Event σ} (hi : i.Ordered accepted sent)
    (hnumbered : Numbered (accepted ++ i.admitted ev)) (hhonest : i.PeerHonest ev)
    (htakes : i.SinkTakes ev) :
    ∃ sent, (i.apply ev).Ordered (accepted ++ i.admitted ev) sent := by
  cases ev with
  | act =>
    have hadmitted : accepted ++ i.admitted .act = accepted := List.append_nil _
    rw [hadmitted] at hnumbered ⊢
    exact ordered_act hi hnumbered htakes
  | offer p =>
    refine ⟨sent, ?_, hi.bound, hi.kept, hi.honest⟩
    show accepted ++ (if i.queue.admission = .accepted then [p] else [])
      = sent ++ (i.stage.held ++ (i.queue.announce.conclude p i.queue.admission).waiting)
    rw [hi.fifo]
    cases i.queue.admission with
    | accepted =>
      show _ = sent ++ (i.stage.held ++ (i.queue.waiting ++ [p]))
      rw [if_pos rfl, List.append_assoc, List.append_assoc]
    | full | closed => exact List.append_nil _
  | close =>
    have hadmitted : accepted ++ i.admitted .close = accepted := List.append_nil _
    rw [hadmitted]
    exact ⟨sent, hi.keep rfl rfl rfl⟩
  | signal x =>
    have hadmitted : accepted ++ i.admitted (.signal x) = accepted := List.append_nil _
    rw [hadmitted]
    exact ⟨sent, ordered_signal hi hhonest⟩

/-- **Accepted packets stay in order**, whatever the interleaving. -/
theorem ordered_replay (config : Config) (sink : σ) (timer : τ) {history : List (Event σ)}
    (hnumbered : Numbered ((fresh config sink timer).accepted history))
    (hhonest : Always (fun before => ((fresh config sink timer).replay before).PeerHonest) history)
    (htakes : Always (fun before => ((fresh config sink timer).replay before).SinkTakes) history) :
    ∃ sent, ((fresh config sink timer).replay history).Ordered
      ((fresh config sink timer).accepted history) sent := by
  induction history using List.reverseRecOn with
  | nil => exact ⟨[], rfl, rfl, by simp [replay, fresh, Engine.ofConfig], Nat.le_refl 0⟩
  | append_singleton history ev ih =>
    rw [accepted_concat] at hnumbered ⊢
    obtain ⟨hbefore, hlast⟩ := always_concat.mp hhonest
    obtain ⟨hbefore', hlast'⟩ := always_concat.mp htakes
    obtain ⟨sent, hi⟩ := ih hnumbered.left hbefore hbefore'
    rw [replay_concat]
    exact ordered_apply hi hnumbered hlast hlast'

/-! ## §4. The buffered stretch. -/

omit [Sink σ] [SilenceTimer τ] in
/-- **The buffer is one stretch without gaps**, from the acknowledged bound to the largest
number transmitted. -/
theorem Ordered.isUnacknowledged_iff (hi : i.Ordered accepted sent)
    (hnumbered : Numbered accepted) (s : Nat) :
    i.engine.isUnacknowledged s = true
      ↔ i.engine.lastAck ≤ s ∧ i.engine.isSentOut s = true := by
  have hsent : Numbered sent := by
    rw [hi.fifo] at hnumbered
    exact hnumbered.left
  unfold Engine.isUnacknowledged
  rw [SendBuffer.contains_eq_true_iff, SendBuffer.mem_keys, Engine.isSentOut_iff, hi.bound]
  constructor
  · rintro ⟨p, hp, rfl⟩
    obtain ⟨hp, hle⟩ := (hi.kept p).mp hp
    exact ⟨hle, hsent.lt_length hp⟩
  · rintro ⟨hle, hlt⟩
    obtain ⟨p, hp, rfl⟩ := hsent.exists_mem hlt
    exact ⟨p, (hi.kept p).mpr ⟨hp, hle⟩, rfl⟩

end Iteration

end ReliableSender
