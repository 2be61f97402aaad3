/-
  ReliableSender.Proofs.Engine.NoStall
  ────────────────────────────────────
  **AN HONEST PEER NEVER WAITS IN VAIN.**

  When the peer has been silent for too long, what it may be missing goes
  out again, or for the first time, before the loop finds nothing to do.
  What stands in the way does not matter: an iteration under way, numbers
  in the loss list that nobody has, packets that wait behind.

      Due             — a packet is about to go out, and why
      due_advance     — it stays due until it is on the wire
      Due.works       — while a packet is due, the loop has something to do
      no_stall        — after a silence, the packet the peer waits for is due
-/
import ReliableSender.Proofs.Engine.InOrder
import ReliableSender.Proofs.Transport.Wiretap
import Mathlib

namespace ReliableSender

/-! ## §1. Finishing an iteration. -/

/-- Most actions that an iteration still takes. -/
def Stage.remaining : Stage → Nat
  | .start => 6
  | .lossesClear => 5
  | .inFlightRead _ => 4
  | .windowRead _ | .lossSeen _ => 3
  | .lossTaken _ | .holding _ _ => 2
  | .resending _ | .settling _ _ => 1
  | .done _ => 0

theorem Stage.remaining_le (stage : Stage) : stage.remaining ≤ 6 := by
  cases stage <;> simp [remaining]

theorem Stage.exists_done {stage : Stage} (h : stage.remaining = 0) :
    ∃ outcome, stage = .done outcome := by
  cases stage with
  | done outcome => exact ⟨outcome, rfl⟩
  | _ => exact absurd h (by simp [remaining])

/-- The iteration has met a sink that did not take a data packet. -/
def Stage.isRefused : Stage → Bool
  | .settling _ outcome | .done outcome => isRefusal outcome
  | _ => false

namespace Iteration

section Finishing

variable {σ τ : Type} [Sink σ]

/-- An iteration under way comes to its end. -/
def finish (i : Iteration σ τ) : Iteration σ τ :=
  match i.stage with
  | .start => i
  | _ => i.advanceBy length

theorem remaining_advance (i : Iteration σ τ) :
    i.advance.stage.remaining ≤ i.stage.remaining - 1 := by
  have hadv := i.advances
  generalize i.advance = i' at hadv ⊢
  cases hadv with
  | rests hs =>
    rw [hs]
    exact Nat.le_refl _
  | seesLoss hs | seesNone hs | takesLoss hs | skipsLoss hs | findsLoss hs | resends hs
  | countsFlight hs | readsWindow hs | windowFull hs | pollsNothing hs | pollsPacket hs
  | transmits hs | crashes hs | settles hs =>
    rw [hs]
    simp [Stage.remaining]

theorem remaining_advanceBy (i : Iteration σ τ) (n : Nat) :
    (i.advanceBy n).stage.remaining ≤ i.stage.remaining - n := by
  induction n generalizing i with
  | zero => exact Nat.le_refl _
  | succ n ih =>
    have hfirst := i.remaining_advance
    have hrest := ih i.advance
    show (i.advance.advanceBy n).stage.remaining ≤ i.stage.remaining - (n + 1)
    omega

/-- No iteration takes more actions than its length says. -/
theorem finish_stage (i : Iteration σ τ) :
    i.finish.stage = .start ∨ ∃ outcome, i.finish.stage = .done outcome := by
  unfold finish
  split
  · rename_i hs
    exact Or.inl hs
  · have hlength := i.remaining_advanceBy length
    have hmost : i.stage.remaining ≤ length := i.stage.remaining_le
    exact Or.inr (Stage.exists_done (by omega))

end Finishing

/-! ## §2. Packets that are due. -/

section Due

variable {σ τ : Type} [Sink σ]

/-- The packet is about to go out, unless the sink refuses. -/
inductive Due (i : Iteration σ τ) (p : DataPacket) : Prop where
  | atHand (stage : i.stage = .resending p)
  | lost (kept : p ∈ i.engine.buffer.entries)
      (listed : p.sequence ∈ i.engine.losses ∨ i.stage = .lossTaken p.sequence)
  | first (empty : i.engine.buffer.entries = []) (none : i.engine.buffer.unacknowledged = 0)
      (room : 0 < i.engine.session.flowWindow)
      (head : (i.stage.held ++ i.queue.waiting).head? = some p)

/-- An action takes a loss out of the list only to look its packet up. -/
theorem losses_advance {i : Iteration σ τ} {s : Nat} (h : s ∈ i.engine.losses) :
    s ∈ i.advance.engine.losses ∨ i.advance.stage = .lossTaken s := by
  have hadv := i.advances
  generalize i.advance = i' at hadv ⊢
  cases hadv with
  | @takesLoss t hs =>
    by_cases ht : s = t
    · exact Or.inr (ht ▸ rfl)
    · refine Or.inl ?_
      show s ∈ i.engine.losses.entries.erase t
      exact (List.mem_erase_of_ne ht).mpr h
  | @resends p hs =>
    have hr := i.engine.resends p
    generalize i.engine.resend p = r at hr ⊢
    cases hr <;> exact Or.inl h
  | @transmits window p hs | @crashes window p hs =>
    have ht := i.engine.transmits p
    generalize i.engine.transmit p = r at *
    cases ht <;> exact Or.inl h
  | _ => exact Or.inl h

/-- No action takes a packet out of the buffer. -/
theorem entries_advance {i : Iteration σ τ} {p : DataPacket} (h : p ∈ i.engine.buffer.entries) :
    p ∈ i.advance.engine.buffer.entries := by
  rcases i.advance_buffer with ⟨q, _, hfree, hb, _⟩ | ⟨_, hb, _⟩
  · rw [hb]
    exact (SendBuffer.mem_push hfree).mpr (Or.inr h)
  · rw [hb]
    exact h

/-- While a packet is due, a step finds something to do. -/
theorem Due.works {e : Engine σ τ} {q : IngressQueue} {p : DataPacket}
    (h : Due { engine := e, queue := q } p) : isRest (e.step q).1 = false := by
  -- Either a loss waits, or the window is open for the head of the queue.
  have hready : e.losses.first? ≠ none
      ∨ e.buffer.entries = [] ∧ e.windowOpen = true ∧ ∃ rest, q.waiting = p :: rest := by
    cases h with
    | atHand hs => exact absurd hs (by simp)
    | lost _ hlisted =>
      refine Or.inl fun hnone => ?_
      rcases hlisted with hmem | hs
      · exact List.ne_nil_of_mem hmem (List.head?_eq_none_iff.mp hnone)
      · exact absurd hs (by simp)
    | first hempty hzero hroom hhead =>
      refine Or.inr ⟨hempty, ?_, List.head?_eq_some_iff.mp hhead⟩
      have hflight : e.buffer.unacknowledged = 0 := hzero
      unfold Engine.windowOpen
      rw [hflight]
      exact decide_eq_true hroom
  have hsteps := e.steps q
  generalize e.step q = r at hsteps ⊢
  cases hsteps with
  | skips => rfl
  | resends _ _ hr => cases hr <;> rfl
  | windowFull hnone hfull =>
    rcases hready with hsome | ⟨_, hopen, _⟩
    · exact absurd hnone hsome
    · exact absurd (hfull.symm.trans hopen) Bool.false_ne_true
  | pollsNothing hnone _ hnothing =>
    rcases hready with hsome | ⟨_, _, rest, hwaiting⟩
    · exact absurd hnone hsome
    · exact absurd (hnothing.symm.trans hwaiting) (by simp)
  | @transmits t rest r hnone _ _ hr halive =>
    rcases hready with hsome | ⟨hempty, _, _⟩
    · exact absurd hnone hsome
    · cases hr with
      | duplicate hc =>
        have hfree := SendBuffer.contains_of_empty hempty t.sequence
        exact absurd (hfree.symm.trans hc) Bool.false_ne_true
      | sent | failed => rfl
  | crashes _ _ _ _ hcrash =>
    rw [hcrash]
    rfl

end Due

/-! ## §3. What is due stays due until it is out. -/

section Wire

variable {σ τ : Type} [Sink σ]

/-- **A packet stays due until it is on the wire**, or the sink refuses. -/
theorem due_advance {i : Iteration (Wiretap σ) τ} {p : DataPacket} (h : i.Due p) :
    i.advance.stage.isRefused = true ∨ i.advance.Due p
      ∨ i.advance.engine.sink.taken = i.engine.sink.taken ++ [.data p] := by
  cases h with
  | atHand hstage =>
    have hadv := i.advances
    generalize i.advance = i' at hadv ⊢
    cases hadv with
    | @resends q hs =>
      obtain rfl : p = q := Stage.resending.inj (hstage.symm.trans hs)
      have hr := i.engine.resends p
      generalize i.engine.resend p = r at hr ⊢
      cases hr with
      | again hout => exact Or.inr (Or.inr (Wiretap.taken_of_ok hout))
      | refused | crashes => exact Or.inl rfl
    | seesLoss hs | seesNone hs | takesLoss hs | skipsLoss hs | findsLoss hs | countsFlight hs
    | readsWindow hs | windowFull hs | pollsNothing hs | pollsPacket hs | transmits hs
    | crashes hs | settles hs | rests hs =>
      exact absurd (hstage.symm.trans hs) (by simp)
  | lost hkept hlisted =>
    have hkept' := entries_advance hkept
    rcases hlisted with hmem | hstage
    · exact Or.inr (Or.inl (.lost hkept' (losses_advance hmem)))
    · -- The packet is looked up, and it is there.
      have hget : i.engine.buffer.get? p.sequence = some p :=
        SendBuffer.get?_eq_some_iff.mpr ⟨hkept, rfl⟩
      have hnext : i.advance = { i with stage := .resending p } := by
        unfold advance
        rw [hstage]
        simp only [hget]
      rw [hnext]
      exact Or.inr (Or.inl (.atHand rfl))
  | first hempty hzero hroom hhead =>
    have hadv := i.advances
    generalize i.advance = i' at hadv ⊢
    cases hadv with
    | seesLoss hs | seesNone hs | takesLoss hs | skipsLoss hs | findsLoss hs | countsFlight hs
    | readsWindow hs | windowFull hs | pollsNothing hs | settles hs =>
      rw [hs] at hhead
      exact Or.inr (Or.inl (.first hempty hzero hroom hhead))
    | @resends q hs =>
      rw [hs] at hhead
      have hr := i.engine.resends q
      generalize i.engine.resend q = r at hr ⊢
      cases hr <;> exact Or.inr (Or.inl (.first hempty hzero hroom hhead))
    | pollsPacket hs hwaiting =>
      rw [hs, hwaiting] at hhead
      exact Or.inr (Or.inl (.first hempty hzero hroom hhead))
    | @transmits window q hs halive =>
      rw [hs] at hhead
      obtain rfl : q = p := Option.some.inj hhead
      have ht := i.engine.transmits q
      generalize i.engine.transmit q = r at ht halive ⊢
      cases ht with
      | duplicate hc =>
        have hfree := SendBuffer.contains_of_empty hempty q.sequence
        exact absurd (hfree.symm.trans hc) Bool.false_ne_true
      | sent _ hout => exact Or.inr (Or.inr (Wiretap.taken_of_ok hout))
      | failed => exact Or.inl rfl
    | crashes => exact Or.inl rfl
    | rests => exact Or.inr (Or.inl (.first hempty hzero hroom hhead))

/-- Whatever an action does, what is on the wire stays there. -/
theorem taken_advance (i : Iteration (Wiretap σ) τ) :
    i.engine.sink.taken <+: i.advance.engine.sink.taken := by
  have hattempt : ∀ p, i.engine.sink.taken <+: (Sink.attempt (.data p) i.engine.sink).2.taken :=
    fun p => Wiretap.taken_attempt (.data p) i.engine.sink
  have hadv := i.advances
  generalize i.advance = i' at hadv ⊢
  cases hadv with
  | @resends p hs =>
    obtain ⟨outcome, statistics, he⟩ := i.engine.resend_eq p
    rw [he]
    exact hattempt p
  | @transmits window p hs | @crashes window p hs =>
    have ht := i.engine.transmits p
    generalize i.engine.transmit p = r at *
    cases ht with
    | duplicate => exact List.prefix_refl _
    | sent _ hout | failed _ hout =>
      have hgrows := hattempt p
      rw [hout] at hgrows
      exact hgrows
  | _ => exact List.prefix_refl _

/-- A sink that did not take a packet is not forgotten before the iteration ends. -/
theorem isRefused_advance {i : Iteration (Wiretap σ) τ} (h : i.stage.isRefused = true) :
    i.advance.stage.isRefused = true := by
  have hadv := i.advances
  generalize i.advance = i' at hadv ⊢
  cases hadv with
  | settles hs =>
    rw [hs] at h
    exact h
  | rests => exact h
  | seesLoss hs | seesNone hs | takesLoss hs | skipsLoss hs | findsLoss hs | resends hs
  | countsFlight hs | readsWindow hs | windowFull hs | pollsNothing hs | pollsPacket hs
  | transmits hs | crashes hs =>
    rw [hs] at h
    exact absurd h Bool.false_ne_true

/-- Since the wire was `base`, the packet has gone out, or it is due, or the sink has
refused. -/
def Pursues (i : Iteration (Wiretap σ) τ) (base : List Packet) (p : DataPacket) : Prop :=
  i.stage.isRefused = true
    ∨ ∃ more, i.engine.sink.taken = base ++ more ∧ (i.Due p ∨ .data p ∈ more)

theorem pursues_advance {i : Iteration (Wiretap σ) τ} {base : List Packet} {p : DataPacket}
    (h : i.Pursues base p) : i.advance.Pursues base p := by
  rcases h with hrefused | ⟨more, hmore, hdue | hout⟩
  · exact Or.inl (isRefused_advance hrefused)
  · rcases due_advance hdue with hrefused | hdue' | hsent
    · exact Or.inl hrefused
    · obtain ⟨later, hlater⟩ := i.taken_advance
      refine Or.inr ⟨more ++ later, ?_, Or.inl hdue'⟩
      rw [← hlater, hmore, List.append_assoc]
    · refine Or.inr ⟨more ++ [.data p], ?_, Or.inr List.mem_concat_self⟩
      rw [hsent, hmore, List.append_assoc]
  · obtain ⟨later, hlater⟩ := i.taken_advance
    refine Or.inr ⟨more ++ later, ?_, Or.inr (List.mem_append_left _ hout)⟩
    rw [← hlater, hmore, List.append_assoc]

theorem pursues_advanceBy {i : Iteration (Wiretap σ) τ} {base : List Packet} {p : DataPacket}
    (h : i.Pursues base p) (n : Nat) : (i.advanceBy n).Pursues base p := by
  induction n generalizing i with
  | zero => exact h
  | succ n ih => exact ih (pursues_advance h)

theorem pursues_finish {i : Iteration (Wiretap σ) τ} {base : List Packet} {p : DataPacket}
    (h : i.Pursues base p) : i.finish.Pursues base p := by
  unfold finish
  split
  · exact h
  · exact pursues_advanceBy h length

omit [Sink σ] in
/-- An iteration that has ended hands on what it pursued to the next one. -/
theorem Pursues.again {i : Iteration (Wiretap σ) τ} {base : List Packet} {p : DataPacket}
    (h : i.Pursues base p) (hstage : i.stage = .start ∨ ∃ outcome, i.stage = .done outcome)
    (hfree : i.stage.isRefused = false) :
    Pursues { engine := i.engine, queue := i.queue } base p := by
  rcases h with hrefused | ⟨more, hmore, hdue⟩
  · exact absurd (hfree.symm.trans hrefused) Bool.false_ne_true
  · refine Or.inr ⟨more, hmore, hdue.imp_left fun hdue => ?_⟩
    cases hdue with
    | atHand hs =>
      rcases hstage with hs' | ⟨outcome, hs'⟩ <;> exact absurd (hs.symm.trans hs') (by simp)
    | lost hkept hlisted =>
      refine .lost hkept (Or.inl (hlisted.resolve_right fun hs => ?_))
      rcases hstage with hs' | ⟨outcome, hs'⟩ <;> exact absurd (hs.symm.trans hs') (by simp)
    | first hempty hzero hroom hhead =>
      refine .first hempty hzero hroom ?_
      rcases hstage with hs' | ⟨outcome, hs'⟩
      · rw [hs'] at hhead
        exact hhead
      · rw [hs'] at hhead
        exact hhead

/-- Steps in a row pursue a packet. -/
theorem pursues_afterSteps {e : Engine (Wiretap σ) τ} {q : IngressQueue} {base : List Packet}
    {p : DataPacket} (h : Pursues { engine := e, queue := q } base p) {n : Nat}
    (haccepts : ∀ m < n, isRefusal (e.outcomeAfter q m) = false) :
    Pursues { engine := (e.afterSteps q n).1, queue := (e.afterSteps q n).2 } base p := by
  induction n with
  | zero => exact h
  | succ n ih =>
    have hbefore := ih fun m hm => haccepts m (Nat.lt_succ_of_lt hm)
    have hstep := pursues_advanceBy hbefore length
    rw [advanceBy_length] at hstep
    exact hstep.again (Or.inr ⟨_, rfl⟩) (haccepts n (Nat.lt_succ_self n))

/-- Where steps in a row find nothing to do for the first time, the packet has gone out. -/
theorem out_before_rest {e : Engine (Wiretap σ) τ} {q : IngressQueue} {base : List Packet}
    {p : DataPacket} (h : Pursues { engine := e, queue := q } base p) {n : Nat}
    (hrest : isRest (e.outcomeAfter q n) = true)
    (haccepts : ∀ m < n, isRefusal (e.outcomeAfter q m) = false) :
    ∃ more, (e.afterSteps q n).1.sink.taken = base ++ more ∧ .data p ∈ more := by
  rcases pursues_afterSteps h haccepts with hrefused | ⟨more, hmore, hdue | hout⟩
  · exact absurd hrefused Bool.false_ne_true
  · exact absurd (hdue.works.symm.trans hrest) Bool.false_ne_true
  · exact ⟨more, hmore, hout⟩

end Wire

/-! ## §4. After a silence. -/

section Silence

variable {σ τ : Type} [Sink σ] [SilenceTimer τ]

/-- After a silence, the lowest number that the peer may be missing is due. -/
theorem due_expire {i : Iteration σ τ} {accepted sent : List DataPacket}
    (hi : i.Ordered accepted sent) (hnumbered : Numbered accepted)
    (hcounted : i.engine.buffer.Counted) (hroom : 1 ≤ i.engine.session.flowWindow)
    (hmissing : ∃ p ∈ accepted, i.engine.lastAck ≤ p.sequence) :
    ∃ p ∈ accepted, p.sequence = i.engine.lastAck ∧ (i.apply (.signal .expire)).Due p := by
  have hfifo := hi.fifo
  rw [hfifo] at hnumbered
  by_cases hlt : i.engine.lastAck < sent.length
  · -- It has been transmitted, and the silence puts it into the loss list.
    obtain ⟨p, hp, hs⟩ := hnumbered.left.exists_mem hlt
    have hkept : p ∈ i.engine.buffer.entries := (hi.kept p).mpr ⟨hp, Nat.le_of_eq hs.symm⟩
    refine ⟨p, hfifo ▸ List.mem_append_left _ hp, hs, .lost hkept (Or.inl ?_)⟩
    exact LossList.mem_insertAll.mpr (Or.inr (SendBuffer.mem_keys.mpr ⟨p, hkept, rfl⟩))
  · -- Everything transmitted has arrived, so it is the next one to transmit.
    have hlast : i.engine.lastAck = sent.length := Nat.le_antisymm hi.honest (Nat.not_lt.mp hlt)
    have hempty : i.engine.buffer.entries = [] := by
      refine List.eq_nil_iff_forall_not_mem.mpr fun q hq => ?_
      obtain ⟨hq, hle⟩ := (hi.kept q).mp hq
      have := hnumbered.left.lt_length hq
      omega
    have hzero : i.engine.buffer.unacknowledged = 0 := by
      rw [hcounted, hempty]
      rfl
    cases hahead : i.stage.held ++ i.queue.waiting with
    | nil =>
      obtain ⟨p, hp, hle⟩ := hmissing
      rw [hfifo, hahead, List.append_nil] at hp
      have := hnumbered.left.lt_length hp
      omega
    | cons p rest =>
      rw [hahead] at hnumbered
      refine ⟨p, ?_, hnumbered.middle.trans hlast.symm, .first hempty hzero hroom ?_⟩
      · rw [hfifo, hahead]
        exact List.mem_append_right _ List.mem_cons_self
      · show (i.stage.held ++ i.queue.waiting).head? = some p
        rw [hahead]
        rfl

/-- **An honest peer never waits in vain.**  If the queue accepts the numbers 0, 1, 2, … in
this order, the sink takes all new data and the peer acknowledges transmitted numbers only,
then at every moment the buffer holds exactly the numbers from the acknowledged bound to the
largest one transmitted.  If the peer is silent then, the iteration under way comes to its
end, and the iterations after it come to a first one that finds nothing to do.  If an accepted
packet is not acknowledged, the window is not 0 and the sink takes what it is given, the
packet with the lowest number that the peer may be missing has gone out by then. -/
theorem no_stall (config : Config) (sink : σ) (timer : τ)
    (history : List (Event (Wiretap σ)))
    (hnumbered : Numbered ((fresh config ({ sink } : Wiretap σ) timer).accepted history))
    (hhonest : Always
      (fun before => ((fresh config ({ sink } : Wiretap σ) timer).replay before).PeerHonest) history)
    (htakes : Always
      (fun before => ((fresh config ({ sink } : Wiretap σ) timer).replay before).SinkTakes) history) :
    let start : Iteration (Wiretap σ) τ := fresh config { sink } timer
    let i := start.replay history
    let j := (i.apply (.signal .expire)).finish
    (∀ s, i.engine.isUnacknowledged s = true
        ↔ i.engine.lastAck ≤ s ∧ i.engine.isSentOut s = true)
      ∧ ∃ n, isRest (j.engine.outcomeAfter j.queue n) = true
          ∧ (∀ m < n, isRest (j.engine.outcomeAfter j.queue m) = false)
          ∧ ((∃ p ∈ start.accepted history, i.engine.lastAck ≤ p.sequence) →
              1 ≤ i.engine.session.flowWindow →
              j.stage.isRefused = false →
              (∀ m < n, isRefusal (j.engine.outcomeAfter j.queue m) = false) →
              ∃ p ∈ start.accepted history, p.sequence = i.engine.lastAck
                ∧ ∃ more, (j.engine.afterSteps j.queue n).1.sink.taken
                    = i.engine.sink.taken ++ more ∧ .data p ∈ more) := by
  intro start i j
  obtain ⟨sent, hi⟩ := ordered_replay config _ timer hnumbered hhonest htakes
  obtain ⟨n, hrest, hfirst⟩ := j.engine.rests_after j.queue
  refine ⟨hi.isUnacknowledged_iff hnumbered, n, hrest, hfirst, ?_⟩
  intro hmissing hroom hfree haccepts
  have hcounted : i.engine.buffer.Counted := (bufferSound_replay config _ timer history).counted
  obtain ⟨p, hp, hs, hdue⟩ := due_expire hi hnumbered hcounted hroom hmissing
  -- A silence puts nothing on the wire.
  have hbegun : (i.apply (.signal .expire)).Pursues i.engine.sink.taken p :=
    Or.inr ⟨[], (List.append_nil _).symm, Or.inl hdue⟩
  have hfinished : Pursues { engine := j.engine, queue := j.queue } i.engine.sink.taken p :=
    (pursues_finish hbegun).again (finish_stage _) hfree
  exact ⟨p, hp, hs, out_before_rest hfinished hrest haccepts⟩

/-- Packet 0 has arrived, packet 1 is in flight, packet 2 is about to go out, and the peer
reports 5 and 1 lost before it falls silent.  The iteration under way sends packet 2; the next
one sends packet 1 again. -/
theorem silence_during_an_iteration :
    let start : Iteration (Wiretap ChannelSink) NoTimer :=
      fresh { session := { flowWindow := 2 } } { sink := {} } {}
    let history : List (Event (Wiretap ChannelSink)) :=
      [.offer { sequence := 0 }, .offer { sequence := 1 }, .offer { sequence := 2 }]
        ++ List.replicate 13 .act ++ [.signal (.acknowledge 0 1), .act, .act,
          .signal (.negativeAcknowledge 0 [5, 1])]
    let i := start.replay history
    let j := (i.apply (.signal .expire)).finish
    (Numbered (start.accepted history)
        ∧ Always (fun before => (start.replay before).PeerHonest) history
        ∧ Always (fun before => (start.replay before).SinkTakes) history)
      ∧ i.engine.lastAck = 1 ∧ i.engine.losses.entries = [1, 5]
      ∧ (∀ s, i.engine.isUnacknowledged s = true
        ↔ i.engine.lastAck ≤ s ∧ i.engine.isSentOut s = true)
      ∧ ∃ n more, isRest (j.engine.outcomeAfter j.queue n) = true
          ∧ (j.engine.afterSteps j.queue n).1.sink.taken = i.engine.sink.taken ++ more
          ∧ ∃ p, p.sequence = 1 ∧ .data p ∈ more := by
  obtain ⟨hstretch, n, hrest, hfirst, hout⟩ :=
    no_stall { session := { flowWindow := 2 } } ({} : ChannelSink) ({} : NoTimer)
      ([.offer { sequence := 0 }, .offer { sequence := 1 }, .offer { sequence := 2 }]
        ++ List.replicate 13 .act ++ [.signal (.acknowledge 0 1), .act, .act,
          .signal (.negativeAcknowledge 0 [5, 1])])
      (by decide) (by decide) (by decide)
  -- Two losses are served, then the window is full.
  have hn : n ≤ 2 := by
    refine Nat.not_lt.mp fun hlt => absurd (hfirst 2 hlt) ?_
    rw [Bool.not_eq_false]
    cbv
  obtain ⟨p, _, hp, more, hmore, hmem⟩ := hout
    ⟨{ sequence := 1 }, by decide, by cbv⟩ (by cbv) (by cbv) fun m hm => by
      have hlt : m < 2 := Nat.lt_of_lt_of_le hm hn
      interval_cases m <;> cbv
  exact ⟨⟨by decide, by decide, by decide⟩, by cbv, by cbv, hstretch, n, more, hrest, hmore,
    p, hp.trans (by cbv), hmem⟩

end Silence

end Iteration

end ReliableSender
