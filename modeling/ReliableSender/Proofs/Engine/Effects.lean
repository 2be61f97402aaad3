/-
  ReliableSender.Proofs.Engine.Effects
  ────────────────────────────────────
  **WHAT EACH ACTION ON AN ENGINE CHANGES, AND WHAT IT LEAVES ALONE.**

  Every invariant of a run goes through the actions one by one.  This module
  says once what each of them does, so that no later proof opens one again:

      Transmits      — the three ends of a transmission of new data
      Resends        — those of a retransmission, which touches the sink and a counter only
      Handles        — the signals, and handle_* for one part of the engine each
      Advances       — the next action of an iteration, guard and effect
-/
import ReliableSender.Engine.History
import ReliableSender.Proofs.SendBuffer

namespace ReliableSender

namespace Engine

variable {σ τ : Type} [Sink σ]

/-! ## §1. Transmitting new data. -/

/-- How a transmission of new data ends. -/
inductive Transmits (e : Engine σ τ) (p : DataPacket) :
    Except Fault Progress × Engine σ τ → Prop where
  /-- The number is in flight already: the packet is dropped. -/
  | duplicate (taken : e.buffer.contains p.sequence = true) : Transmits e p (.ok .idle, e)
  /-- The packet is out, and buffered. -/
  | sent {sink : σ} (free : e.buffer.contains p.sequence = false)
      (out : Sink.attempt (.data p) e.sink = (.ok (), sink)) :
      Transmits e p
        (.ok (.sent p.sequence), { e with buffer := e.buffer.push p, sink }.recordSent p)
  /-- The sink did not take the packet: nothing is buffered. -/
  | failed {fault : Fault} {sink : σ} (free : e.buffer.contains p.sequence = false)
      (refused : Sink.attempt (.data p) e.sink = (.error fault, sink)) :
      Transmits e p (.error fault, { e with sink })

theorem transmits (e : Engine σ τ) (p : DataPacket) : Transmits e p (e.transmit p) := by
  unfold transmit SendBuffer.insertWith
  cases hc : e.buffer.contains p.sequence with
  | true => exact .duplicate hc
  | false =>
    rcases ha : Sink.attempt (.data p) e.sink with ⟨fault | _, sink⟩
    · simp only [ha, Bool.false_eq_true, if_false]
      exact .failed hc ha
    · simp only [ha, Bool.false_eq_true, if_false]
      exact .sent hc ha

/-- A transmission touches the buffer, the sink and what is counted of it. -/
theorem transmit_eq (e : Engine σ τ) (p : DataPacket) :
    ∃ outcome buffer sink statistics sentBound,
      e.transmit p = (outcome, { e with buffer, sink, statistics, sentBound }) := by
  have ht := e.transmits p
  generalize e.transmit p = r at ht ⊢
  cases ht <;> exact ⟨_, _, _, _, _, rfl⟩

/-! ## §2. Retransmitting. -/

/-- How a retransmission ends. -/
inductive Resends (e : Engine σ τ) (p : DataPacket) :
    Except Fault Progress × Engine σ τ → Prop where
  | again {sink : σ} (out : Sink.attempt (.data p) e.sink = (.ok (), sink)) :
      Resends e p
        (.ok (.retransmitted p.sequence),
          { e with sink, statistics := e.statistics.countRetransmitted })
  | refused {cause : TransportError} {sink : σ}
      (refused : Sink.attempt (.data p) e.sink = (.error (.transport cause), sink)) :
      Resends e p (.ok (.retransmitFailed p.sequence), { e with sink })
  | crashes {sink : σ} (crash : Sink.attempt (.data p) e.sink = (.error .crash, sink)) :
      Resends e p (.error .crash, { e with sink })

theorem resends (e : Engine σ τ) (p : DataPacket) : Resends e p (e.resend p) := by
  unfold resend
  rcases ha : Sink.attempt (.data p) e.sink with ⟨(cause | _) | _, sink⟩
  · exact .refused ha
  · exact .crashes ha
  · exact .again ha

theorem resend_eq (e : Engine σ τ) (p : DataPacket) :
    ∃ outcome statistics, e.resend p
      = (outcome, { e with sink := (Sink.attempt (.data p) e.sink).2, statistics }) := by
  unfold resend
  rcases ha : Sink.attempt (.data p) e.sink with ⟨(cause | _) | _, sink⟩
  · exact ⟨_, e.statistics, rfl⟩
  · exact ⟨_, e.statistics, rfl⟩
  · exact ⟨_, e.statistics.countRetransmitted, rfl⟩

@[simp] theorem resend_buffer (e : Engine σ τ) (p : DataPacket) :
    (e.resend p).2.buffer = e.buffer := by
  obtain ⟨outcome, statistics, he⟩ := e.resend_eq p
  rw [he]

@[simp] theorem resend_sentBound (e : Engine σ τ) (p : DataPacket) :
    (e.resend p).2.sentBound = e.sentBound := by
  obtain ⟨outcome, statistics, he⟩ := e.resend_eq p
  rw [he]

/-- What an iteration sends again is in the buffer. -/
theorem isUnacknowledged_of_step_retransmitted {e : Engine σ τ} {q : IngressQueue} {s : Nat}
    (h : (e.step q).1 = .ok (.retransmitted s)) : e.isUnacknowledged s = true := by
  unfold step at h
  split at h
  · rename_i x hx
    unfold retransmit at h
    -- Taking the loss out of the list leaves the buffer as it is.
    have hbuffer : (e.takeLoss x).buffer = e.buffer := rfl
    rw [hbuffer] at h
    cases hg : e.buffer.get? x with
    | none => simp [hg] at h
    | some p =>
      obtain ⟨hp, hps⟩ := SendBuffer.mem_of_get? hg
      have hs : p.sequence = s := by
        simp only [hg] at h
        unfold resend at h
        rcases ha : Sink.attempt (.data p) (e.takeLoss x).sink with ⟨(cause | _) | _, sink⟩
        all_goals simp [ha] at h
        exact h
      exact SendBuffer.contains_eq_true_iff.mpr (SendBuffer.mem_keys.mpr ⟨p, hp, hs⟩)
  · split at h
    · unfold transmitNext at h
      rcases hq : q.poll with ⟨_ | _ | _, q'⟩
      · rename_i p
        have ht := e.transmits p
        simp only [hq] at h
        generalize e.transmit p = r at h ht
        cases ht with
        | duplicate => simp at h
        | sent => simp at h
        | @failed fault => cases fault <;> simp at h
      all_goals simp [hq] at h
    · simp at h

/-! ## §3. Signals. -/

theorem sendControl_eq (e : Engine σ τ) (now : Moment) (body : ControlBody) :
    (e.sendControl now body).2
      = { e with sink := (Sink.attempt (e.control now body) e.sink).2 } := by
  rfl

end Engine

/-- The number up to which a signal acknowledges. -/
def Signal.acknowledgment? {σ : Type} : Signal σ → Option Nat
  | .acknowledge _ k => some k
  | .receive _ p =>
    match p.body with
    | .ack a => some a.number
    | _ => none
  | _ => none

namespace Engine

variable {σ τ : Type} [Sink σ]

theorem acknowledge_eq (e : Engine σ τ) (now : Moment) (k : Nat) :
    ∃ statistics, (e.acknowledge now k).2
      = { e with
          buffer := (e.buffer.removeUpTo k).2
          sink := (Sink.attempt ((e.dropAcknowledged k).control now (.ack2 k)) e.sink).2
          statistics } := by
  unfold acknowledge
  split
  · rename_i e' h
    have he : e' = ((e.dropAcknowledged k).sendControl now (.ack2 k)).2 := by rw [h]
    rw [he, sendControl_eq]
    exact ⟨_, rfl⟩
  · rw [sendControl_eq]
    exact ⟨_, rfl⟩

theorem sendKeepAlive_eq (e : Engine σ τ) (now : Moment) :
    ∃ statistics, (e.sendKeepAlive now).2
      = { e with
          sink := (Sink.attempt (e.control now .keepAlive) e.sink).2
          statistics } := by
  unfold sendKeepAlive
  split
  · rename_i e' h
    have he : e' = (e.sendControl now .keepAlive).2 := by rw [h]
    rw [he, sendControl_eq]
    exact ⟨_, rfl⟩
  · rw [sendControl_eq]
    exact ⟨e.statistics, rfl⟩

variable [SilenceTimer τ]

/-- What a signal does to an engine. -/
inductive Handles (e : Engine σ τ) : Signal σ → Engine σ τ → Prop where
  | acknowledges {x : Signal σ} {now : Moment} {k : Nat} {statistics : Statistics}
      (number : x.acknowledgment? = some k) :
      Handles e x
        { e with
          buffer := (e.buffer.removeUpTo k).2
          sink := (Sink.attempt ((e.dropAcknowledged k).control now (.ack2 k)) e.sink).2
          statistics }
  | loses {x : Signal σ} {now : Moment} {lost : List Nat} (silent : x.acknowledgment? = none) :
      Handles e x (e.negativeAcknowledge now lost).2
  | expires : Handles e .expire e.expire
  | answers {now : Moment} {statistics : Statistics} :
      Handles e (.keepAlive now)
        { e with
          sink := (Sink.attempt (e.control now .keepAlive) e.sink).2
          statistics }
  | sets {x : Signal σ} {session : Session} (silent : x.acknowledgment? = none) :
      Handles e x { e with session }
  | packetizes {now : Moment} {payload : Bytes} :
      Handles e (.packetize now payload) (e.packetize now payload).2
  | numbers : Handles e .nextSequence e.nextSequence.2
  | stops : Handles e .requestStop e.requestStop
  | modifies {f : σ → σ} : Handles e (.modifySink f) (e.modifySink f)
  | ignores {now : Moment} {p : ControlPacket}
      (silent : (Signal.receive (σ := σ) now p).acknowledgment? = none) :
      Handles e (.receive now p) e

theorem handles (e : Engine σ τ) (x : Signal σ) : Handles e x (e.handle x) := by
  cases x with
  | acknowledge now k =>
    obtain ⟨statistics, he⟩ := e.acknowledge_eq now k
    show Handles e _ (e.acknowledge now k).2
    rw [he]
    exact .acknowledges rfl
  | receive now p =>
    rcases p with ⟨timestamp, destination, _ | a | report | number | _⟩
    case ack =>
      obtain ⟨statistics, he⟩ := e.acknowledge_eq now a.number
      show Handles e _ (e.acknowledge now a.number).2
      rw [he]
      exact .acknowledges rfl
    case nak => exact .loses rfl
    all_goals exact .ignores rfl
  | keepAlive now =>
    obtain ⟨statistics, he⟩ := e.sendKeepAlive_eq now
    show Handles e _ (e.sendKeepAlive now).2
    rw [he]
    exact .answers
  | negativeAcknowledge => exact .loses rfl
  | expire => exact .expires
  | setFlowWindow | setDestination => exact .sets rfl
  | packetize => exact .packetizes
  | nextSequence => exact .numbers
  | requestStop => exact .stops
  | modifySink => exact .modifies

/-- A signal drops what it acknowledges from the buffer, and nothing else. -/
theorem handle_buffer (e : Engine σ τ) (x : Signal σ) :
    (e.handle x).buffer
      = x.acknowledgment?.elim e.buffer fun k => (e.buffer.removeUpTo k).2 := by
  have h := e.handles x
  generalize e.handle x = e' at h ⊢
  cases h with
  | acknowledges hk => rw [hk, Option.elim_some]
  | loses hn | sets hn | ignores hn =>
    rw [hn]
    rfl
  | expires | answers | packetizes | numbers | stops | modifies => rfl

@[simp] theorem handle_sentBound (e : Engine σ τ) (x : Signal σ) :
    (e.handle x).sentBound = e.sentBound := by
  have h := e.handles x
  generalize e.handle x = e' at h ⊢
  cases h <;> rfl

end Engine

/-- Whether a signal takes a sequence number. -/
def Signal.issuesNumber {σ : Type} : Signal σ → Bool
  | .packetize _ _ | .nextSequence => true
  | _ => false

namespace Engine

variable {σ τ : Type} [Sink σ]

/-- Transmitting and retransmitting take no sequence number. -/
theorem transmit_sequences (e : Engine σ τ) (p : DataPacket) :
    (e.transmit p).2.sequences = e.sequences := by
  obtain ⟨outcome, buffer, sink, statistics, sentBound, he⟩ := e.transmit_eq p
  rw [he]

theorem resend_sequences (e : Engine σ τ) (p : DataPacket) :
    (e.resend p).2.sequences = e.sequences := by
  obtain ⟨outcome, statistics, he⟩ := e.resend_eq p
  rw [he]

variable [SilenceTimer τ]

theorem handle_sequences (e : Engine σ τ) {x : Signal σ} (hx : x.issuesNumber = false) :
    (e.handle x).sequences = e.sequences := by
  have h := e.handles x
  generalize e.handle x = e' at h ⊢
  cases h with
  | packetizes | numbers => exact absurd hx.symm Bool.false_ne_true
  | _ => rfl

end Engine

/-! ## §4. The actions of an iteration. -/

namespace Iteration

variable {σ τ : Type} [Sink σ]

/-- What the next action of an iteration does, and when. -/
inductive Advances (i : Iteration σ τ) : Iteration σ τ → Prop where
  | seesLoss {s : Nat} (stage : i.stage = .start) (first : i.engine.losses.first? = some s) :
      Advances i { i with stage := .lossSeen s }
  | seesNone (stage : i.stage = .start) (none : i.engine.losses.first? = none) :
      Advances i { i with stage := .lossesClear }
  | takesLoss {s : Nat} (stage : i.stage = .lossSeen s) :
      Advances i { i with engine := i.engine.takeLoss s, stage := .lossTaken s }
  | skipsLoss {s : Nat} (stage : i.stage = .lossTaken s)
      (gone : i.engine.buffer.get? s = none) :
      Advances i { i with engine := i.engine.skipLoss, stage := .done (.ok (.skipped s)) }
  | findsLoss {s : Nat} {p : DataPacket} (stage : i.stage = .lossTaken s)
      (kept : i.engine.buffer.get? s = some p) :
      Advances i { i with stage := .resending p }
  | resends {p : DataPacket} (stage : i.stage = .resending p) :
      Advances i
        { i with engine := (i.engine.resend p).2, stage := .done (i.engine.resend p).1 }
  | countsFlight (stage : i.stage = .lossesClear) :
      Advances i { i with stage := .inFlightRead i.engine.buffer.unacknowledged }
  | readsWindow {inFlight : Nat} (stage : i.stage = .inFlightRead inFlight)
      (room : inFlight < i.engine.session.flowWindow) :
      Advances i { i with stage := .windowRead i.engine.session.flowWindow }
  | windowFull {inFlight : Nat} (stage : i.stage = .inFlightRead inFlight)
      (full : ¬ inFlight < i.engine.session.flowWindow) :
      Advances i { i with stage := .done (.ok .windowFull) }
  | pollsNothing {window : Nat} {outcome : Progress} (stage : i.stage = .windowRead window)
      (empty : i.queue.waiting = [])
      (verdict : outcome = if i.queue.producers = 0 then .closed else .idle) :
      Advances i { i with stage := .done (.ok outcome) }
  | pollsPacket {window : Nat} {p : DataPacket} {rest : List DataPacket}
      (stage : i.stage = .windowRead window) (head : i.queue.waiting = p :: rest) :
      Advances i
        { i with queue := { i.queue with waiting := rest }, stage := .holding window p }
  | transmits {window : Nat} {p : DataPacket} (stage : i.stage = .holding window p)
      (alive : (i.engine.transmit p).1 ≠ .error .crash) :
      Advances i
        { i with
          engine := (i.engine.transmit p).2
          stage := .settling window (i.engine.transmit p).1 }
  | crashes {window : Nat} {p : DataPacket} (stage : i.stage = .holding window p)
      (crash : (i.engine.transmit p).1 = .error .crash) :
      Advances i
        { i with engine := (i.engine.transmit p).2, stage := .done (.error .crash) }
  | settles {window : Nat} {outcome : Except Fault Progress}
      (stage : i.stage = .settling window outcome) :
      Advances i { i with queue := i.queue.handled, stage := .done outcome }
  | rests {outcome : Except Fault Progress} (stage : i.stage = .done outcome) : Advances i i

theorem advances (i : Iteration σ τ) : Advances i i.advance := by
  unfold advance
  cases hs : i.stage with
  | start =>
    cases hl : i.engine.losses.first? with
    | some s =>
      simp only [hl]
      exact .seesLoss hs hl
    | none =>
      simp only [hl]
      exact .seesNone hs hl
  | lossSeen s => exact .takesLoss hs
  | lossTaken s =>
    cases hg : i.engine.buffer.get? s with
    | none =>
      simp only [hg]
      exact .skipsLoss hs hg
    | some p =>
      simp only [hg]
      exact .findsLoss hs hg
  | resending p => exact .resends hs
  | lossesClear => exact .countsFlight hs
  | inFlightRead inFlight =>
    by_cases hw : inFlight < i.engine.session.flowWindow
    · simp only [hw, if_true]
      exact .readsWindow hs hw
    · simp only [hw, if_false]
      exact .windowFull hs hw
  | windowRead window =>
    simp only [IngressQueue.poll]
    cases hq : i.queue.waiting with
    | cons p rest => exact .pollsPacket hs hq
    | nil =>
      by_cases hp : i.queue.producers = 0
      · simp only [hp, if_true]
        exact .pollsNothing hs hq (if_pos hp).symm
      · simp only [hp, if_false]
        exact .pollsNothing hs hq (if_neg hp).symm
  | holding window p =>
    have halive := Advances.transmits hs
    have hcrash := Advances.crashes hs
    rcases ht : i.engine.transmit p with ⟨(cause | _) | progress, e⟩
    · rw [ht] at halive
      simp only [ht]
      exact halive (by simp)
    · rw [ht] at hcrash
      simp only [ht]
      exact hcrash rfl
    · rw [ht] at halive
      simp only [ht]
      exact halive (by simp)
  | settling window outcome => exact .settles hs
  | done outcome => exact .rests hs

/-! ## §5. Attempts at new data. -/

/-- The packet that the next action tries as new data, and what comes of it. -/
def attempt? (i : Iteration σ τ) : Option (DataPacket × Except Fault Progress) :=
  match i.stage with
  | .holding _ p => some (p, (i.engine.transmit p).1)
  | _ => none

/-- The next action transmits a packet as new data, and buffers it. -/
def Sends (i : Iteration σ τ) (p : DataPacket) : Prop :=
  i.attempt? = some (p, .ok (.sent p.sequence))

/-- An action either transmits a packet as new data, whose number was free, or leaves
the buffer alone. -/
theorem advance_buffer (i : Iteration σ τ) :
    (∃ p, i.Sends p ∧ i.engine.buffer.contains p.sequence = false
        ∧ i.advance.engine.buffer = i.engine.buffer.push p
        ∧ i.advance.engine.sentBound = max i.engine.sentBound (p.sequence + 1))
      ∨ ((∀ p, ¬ i.Sends p) ∧ i.advance.engine.buffer = i.engine.buffer
        ∧ i.advance.engine.sentBound = i.engine.sentBound) := by
  have hadv := i.advances
  generalize i.advance = i' at hadv ⊢
  -- Outside the holding stage nothing is attempted.
  have hidle : (∀ w p, i.stage ≠ .holding w p) → ∀ p, ¬ i.Sends p := by
    intro hn p hp
    unfold Sends attempt? at hp
    split at hp
    · rename_i w q hs
      exact hn w q hs
    · exact absurd hp (by simp)
  cases hadv with
  | @transmits w p hs halive | @crashes w p hs hcrash =>
    have hsends : ∀ q, i.Sends q ↔ q = p ∧ (i.engine.transmit p).1 = .ok (.sent q.sequence) := by
      intro q
      unfold Sends attempt?
      rw [hs]
      simp [eq_comm]
    have ht := i.engine.transmits p
    generalize i.engine.transmit p = r at *
    cases ht with
    | sent hfree hout =>
      exact Or.inl ⟨p, (hsends p).mpr ⟨rfl, rfl⟩, hfree, rfl, rfl⟩
    | duplicate htaken | failed hfree hrefused =>
      refine Or.inr ⟨fun q hq => ?_, rfl, rfl⟩
      -- The attempt had another end than a transmission.
      have hq := ((hsends q).mp hq).2
      simp at hq
  | resends hs =>
    refine Or.inr ⟨hidle (by simp [hs]), ?_, ?_⟩
    · exact i.engine.resend_buffer _
    · exact i.engine.resend_sentBound _
  | seesLoss hs | seesNone hs | takesLoss hs | skipsLoss hs | findsLoss hs | countsFlight hs
  | readsWindow hs | windowFull hs | pollsNothing hs | pollsPacket hs | settles hs | rests hs =>
    exact Or.inr ⟨hidle (by simp [hs]), rfl, rfl⟩

end Iteration

end ReliableSender
