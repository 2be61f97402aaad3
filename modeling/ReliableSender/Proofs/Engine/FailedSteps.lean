/-
  ReliableSender.Proofs.Engine.FailedSteps
  ────────────────────────────────────────
  **WHAT A STEP THAT SENDS NOTHING LEAVES BEHIND.**

  The sink is handed a packet in the middle of a step: the loss is out of
  the list by then, and buffer, counters and the largest number sent come
  after.  Whatever the sink says, a step that sends nothing has changed one
  thing of the engine at most, and a packet that was not sent is neither
  buffered nor counted.

      step_of_refused_data   — the head of the queue is lost
      step_of_refused_again  — the loss is dropped, its packet stays buffered
      step_of_duplicate      — the sink is not asked
      failed_steps           — the three together
-/
import ReliableSender.Proofs.Engine.Steps
import ReliableSender.Transport.Channel

namespace ReliableSender

namespace Engine

variable {σ τ : Type} [Sink σ]

/-! ## §1. Three ends of a step. -/

/-- New data is refused when no loss waits and the window has room.  The packet is out of the
queue and no longer pending. -/
theorem step_of_refused_data {e : Engine σ τ} {q : IngressQueue} {cause : TransportError}
    (h : (e.step q).1 = .error (.transport cause)) :
    e.hasLosses = false ∧ e.unacknowledged < e.session.flowWindow
      ∧ ∃ p rest, q.waiting = p :: rest ∧ e.isUnacknowledged p.sequence = false
        ∧ (Sink.attempt (.data p) e.sink).1 = .error (.transport cause)
        ∧ (e.step q).2 = ({ e with sink := (Sink.attempt (.data p) e.sink).2 },
            { q with waiting := rest, pending := q.pending - 1 }) := by
  have hsteps := e.steps q
  generalize e.step q = r at h hsteps ⊢
  cases hsteps with
  | skips | windowFull | pollsNothing => exact absurd h (by simp)
  | resends _ _ hsending => cases hsending <;> exact absurd h (by simp)
  | crashes _ _ _ _ hcrash => exact absurd (hcrash.symm.trans h) (by simp)
  | @transmits p rest r hnone hroom hhead hsending =>
    refine ⟨hasLosses_of_first? hnone, of_decide_eq_true hroom, p, rest, hhead, ?_⟩
    cases hsending with
    | duplicate | sent => exact absurd h (by simp)
    | @failed fault sink hfree hrefused =>
      obtain rfl : fault = .transport cause := Except.error.inj h
      rw [hrefused]
      exact ⟨hfree, rfl, rfl⟩

/-- A retransmission is refused for the lowest loss, whose packet is buffered.  The loss is out
of the list. -/
theorem step_of_refused_again {e : Engine σ τ} {q : IngressQueue} {s : Nat}
    (h : (e.step q).1 = .ok (.retransmitFailed s)) :
    ∃ p cause, ∃ losses : LossList, e.losses.entries = s :: losses.entries
      ∧ e.buffer.get? s = some p
      ∧ (Sink.attempt (.data p) e.sink).1 = .error (.transport cause)
      ∧ (e.step q).2 = ({ e with losses, sink := (Sink.attempt (.data p) e.sink).2 }, q) := by
  have hsteps := e.steps q
  generalize e.step q = r at h hsteps ⊢
  cases hsteps with
  | skips | windowFull => exact absurd h (by simp)
  | pollsNothing _ _ _ hverdict =>
    rw [hverdict] at h
    split at h <;> exact absurd h (by simp)
  | transmits _ _ _ hsending | crashes _ _ _ hsending =>
    cases hsending <;> exact absurd h (by simp)
  | @resends t p r hfirst hkept hsending =>
    obtain ⟨hp, hsequence⟩ := SendBuffer.mem_of_get? hkept
    obtain ⟨rest, hentries, htaken⟩ := takeLoss_first hfirst
    cases hsending with
    | again | crashes => exact absurd h (by simp)
    | @refused cause sink hrefused =>
      -- Taking the loss out of the list leaves the sink as it is.
      have hattempt : Sink.attempt (.data p) e.sink = (.error (.transport cause), sink) := hrefused
      obtain rfl : p.sequence = s := by simpa using h
      obtain rfl := hsequence
      refine ⟨p, cause, (e.takeLoss p.sequence).losses, ?_, hkept, ?_, ?_⟩
      · rw [htaken, hentries]
      · rw [hattempt]
      · rw [hattempt]
        rfl

/-- A packet whose number is in flight is taken out of the queue, and that is all. -/
theorem step_of_duplicate {e : Engine σ τ} {q : IngressQueue} {p : DataPacket}
    {rest : List DataPacket} (hlosses : e.hasLosses = false)
    (hroom : e.unacknowledged < e.session.flowWindow) (hhead : q.waiting = p :: rest)
    (htaken : e.isUnacknowledged p.sequence = true) :
    e.step q = (.ok .idle, e, { q with waiting := rest, pending := q.pending - 1 }) := by
  have hsteps := e.steps q
  have hnone := first?_eq_none hlosses
  generalize e.step q = r at hsteps ⊢
  cases hsteps with
  | skips hfirst | resends hfirst => exact absurd (hfirst.symm.trans hnone) (by simp)
  | windowFull _ hfull => exact absurd hroom (of_decide_eq_false hfull)
  | pollsNothing _ _ hempty => exact absurd (hhead.symm.trans hempty) (by simp)
  | transmits _ _ hhead' hsending =>
    obtain ⟨rfl, rfl⟩ := List.cons.inj (hhead.symm.trans hhead')
    cases hsending with
    | duplicate => rfl
    | sent hfree | failed hfree => exact absurd (htaken.symm.trans hfree) (by simp)
  | crashes _ _ hhead' hsending hcrash =>
    obtain ⟨rfl, rfl⟩ := List.cons.inj (hhead.symm.trans hhead')
    cases hsending with
    | duplicate => exact absurd hcrash (by simp)
    | sent hfree | failed hfree => exact absurd (htaken.symm.trans hfree) (by simp)

/-! ## §2. All that a failed step changes. -/

/-- **Failed steps leave the state intact.**  A step that returns an error found no loss and
room in the window; the head of the queue is gone and no longer pending.  A step that fails to
send a packet again has dropped the loss.  A packet whose number is in flight is dropped
without asking the sink.  Apart from what the sink did with itself, nothing else differs. -/
theorem failed_steps (e : Engine σ τ) (q : IngressQueue) :
    (∀ cause, (e.step q).1 = .error (.transport cause) →
        e.hasLosses = false ∧ e.unacknowledged < e.session.flowWindow
          ∧ ∃ p rest, q.waiting = p :: rest ∧ e.isUnacknowledged p.sequence = false
            ∧ (Sink.attempt (.data p) e.sink).1 = .error (.transport cause)
            ∧ (e.step q).2 = ({ e with sink := (Sink.attempt (.data p) e.sink).2 },
                { q with waiting := rest, pending := q.pending - 1 }))
      ∧ (∀ s, (e.step q).1 = .ok (.retransmitFailed s) →
          ∃ p cause, ∃ losses : LossList, e.losses.entries = s :: losses.entries
            ∧ e.buffer.get? s = some p
            ∧ (Sink.attempt (.data p) e.sink).1 = .error (.transport cause)
            ∧ (e.step q).2
                = ({ e with losses, sink := (Sink.attempt (.data p) e.sink).2 }, q))
      ∧ ∀ p rest, e.hasLosses = false → e.unacknowledged < e.session.flowWindow →
          q.waiting = p :: rest → e.isUnacknowledged p.sequence = true →
          e.step q = (.ok .idle, e, { q with waiting := rest, pending := q.pending - 1 }) :=
  ⟨fun _ => step_of_refused_data, fun _ => step_of_refused_again, fun _ _ => step_of_duplicate⟩

/-- Packet 1 is in flight, 1 and 2 wait, and the sink refuses data.  Packet 1 is dropped, then 2
is refused and not buffered; where the loss of 1 waits, it is dropped and 1 stays buffered. -/
theorem refusing_sink_leaves_buffer :
    let e : Engine FaultySink NoTimer :=
      { Engine.ofConfig {} { refuseData := true } {} with
        buffer := ({} : SendBuffer).push { sequence := 1 } }
    let lossy := { e with losses := (({} : LossList).insert 1).2 }
    let q : IngressQueue :=
      { capacity := 2, waiting := [{ sequence := 1 }, { sequence := 2 }], pending := 2 }
    let q' := { q with waiting := [{ sequence := 2 }], pending := q.pending - 1 }
    e.step q = (.ok .idle, e, q')
      ∧ (e.step q').2.1.buffer = e.buffer ∧ (e.step q').2.2.waiting = []
      ∧ (lossy.step q).2.1.buffer = e.buffer ∧ (lossy.step q).2.1.losses.entries = [] := by
  intro e lossy q q'
  have hrefused : (e.step q').1 = .error (.transport .refused) := by decide
  have hagain : (lossy.step q).1 = .ok (.retransmitFailed 1) := by decide
  have hidle := (failed_steps e q).2.2 { sequence := 1 } [{ sequence := 2 }]
    (by decide) (by decide) rfl (by decide)
  obtain ⟨-, -, p, rest, hwaiting, -, -, hleft⟩ := (failed_steps e q').1 _ hrefused
  obtain ⟨_, _, losses, hentries, _, _, hdropped⟩ := (failed_steps lossy q).2.1 1 hagain
  obtain ⟨rfl, rfl⟩ := List.cons.inj hwaiting
  have hone : lossy.losses.entries = [1] := by decide
  rw [hleft, hdropped]
  exact ⟨hidle, rfl, rfl, rfl, (List.cons.inj (hone.symm.trans hentries)).2.symm⟩

end Engine

end ReliableSender
