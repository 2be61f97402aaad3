/-
  ReliableSender.Proofs.Sender.Ledger
  ───────────────────────────────────
  **WHAT A RUN DOES WITH PACKETS, AND EVERY STEP OF IT.**

  A state of the sender does not tell what became of earlier packets.  The
  ledger of a history keeps it, beside the state and without any influence
  on it:

      written     — the messages let in, with the packets they were cut into
      results     — how the writes ended
      accepted    — what went into the queue, in that order
      attempted   — what was tried as new data, and what came of it
      discarded   — what was thrown away with the queue

  `Changes` says of every event what it does to the state and what it puts
  on the ledger.  The invariants of a run are case analyses over it, and
  `invariant_replay` is their induction.
-/
import ReliableSender.Proofs.Engine.Effects
import ReliableSender.Sender.History
import Mathlib.Data.List.Induction

namespace ReliableSender

/-! ## §1. The ledger. -/

/-- What became of packets. -/
structure Ledger where
  written : List (Bytes × List DataPacket) := []
  results : List (Except SenderError Nat) := []
  accepted : List DataPacket := []
  attempted : List (DataPacket × Except Fault Progress) := []
  discarded : List DataPacket := []

namespace Ledger

/-- The entries of one ledger and then those of another. -/
def append (a b : Ledger) : Ledger where
  written := a.written ++ b.written
  results := a.results ++ b.results
  accepted := a.accepted ++ b.accepted
  attempted := a.attempted ++ b.attempted
  discarded := a.discarded ++ b.discarded

theorem append_empty (a : Ledger) : a.append {} = a := by
  unfold append
  simp only [List.append_nil]

theorem append_assoc (a b c : Ledger) : (a.append b).append c = a.append (b.append c) := by
  unfold append
  simp only [List.append_assoc]

end Ledger

namespace Sender

variable {σ τ : Type} [Sink σ] [SilenceTimer τ]

/-- What an event puts on the ledger. -/
def gain (s : Sender σ τ) : Event σ → Ledger
  | .work =>
    match s.worker with
    | .working (.holding _ p) => { attempted := [(p, (s.engine.transmit p).1)] }
    | .closing _ => { discarded := s.queue.waiting }
    | _ => {}
  | .writeOn =>
    match s.writer with
    | .offering total [] => { results := [.ok total] }
    | .waiting _ p _ =>
      match s.admission with
      | .accepted => { accepted := [p] }
      | .closed => { results := [.error .stopped] }
      | .full => {}
    | _ => {}
  | .write now message =>
    if s.writer.isUnderWay then {}
    else if s.engine.stopped then { results := [.error .stopped] }
    else { written := [(message, (s.engine.fragment now message).1)] }
  | .enter now message =>
    if s.writer.isUnderWay then {}
    else { written := [(message, (s.engine.fragment now message).1)] }
  | .attempt n =>
    match s.offers[n]?, s.admission with
    | some p, .accepted => { accepted := [p] }
    | _, _ => {}
  | .announce _ | .abandon _ | .signal _ | .join => {}

/-- The ledger of a history. -/
def ledger (s : Sender σ τ) : List (Event σ) → Ledger
  | [] => {}
  | ev :: later => (s.gain ev).append ((s.apply ev).ledger later)

theorem ledger_append (s : Sender σ τ) (history later : List (Event σ)) :
    s.ledger (history ++ later) = (s.ledger history).append ((s.replay history).ledger later) := by
  induction history generalizing s with
  | nil => rfl
  | cons ev history ih =>
    show (s.gain ev).append ((s.apply ev).ledger (history ++ later)) = _
    rw [ih, ← Ledger.append_assoc]
    rfl

theorem ledger_concat (s : Sender σ τ) (history : List (Event σ)) (ev : Event σ) :
    s.ledger (history ++ [ev]) = (s.ledger history).append ((s.replay history).gain ev) := by
  rw [ledger_append]
  show (s.ledger history).append (((s.replay history).gain ev).append {}) = _
  rw [Ledger.append_empty]

theorem replay_concat (s : Sender σ τ) (history : List (Event σ)) (ev : Event σ) :
    s.replay (history ++ [ev]) = (s.replay history).apply ev := by
  rw [replay_append]
  rfl

end Sender

/-! ## §2. Every step. -/

/-- No packet is between the queue and the end of its handling. -/
def Stage.isEmptyHanded : Stage → Bool
  | .holding _ _ | .settling _ _ => false
  | _ => true

namespace Sender

variable {σ τ : Type} [Sink σ] [SilenceTimer τ]

/-- What an event does to a sender and puts on the ledger, and when. -/
inductive Changes (s : Sender σ τ) : Event σ → Sender σ τ → Ledger → Prop where
  -- The worker, between iterations and within one.
  | starts (worker : s.worker = .ready) (going : s.engine.stopped = false) :
      Changes s .work { s with worker := .working .start } {}
  | leaves (worker : s.worker = .ready) (asked : s.engine.stopped = true) :
      Changes s .work { s with worker := .leaving .finished } {}
  | looks {stage stage' : Stage} {losses : LossList} {statistics : Statistics}
      (worker : s.worker = .working stage)
      (before : stage.isEmptyHanded = true) (going : ∀ outcome, stage ≠ .done outcome)
      (after : stage'.isEmptyHanded = true)
      (resends : ∀ p, stage' = .resending p → p ∈ s.engine.buffer.entries)
      (faultless : ∀ fault, stage' ≠ .done (.error fault)) :
      Changes s .work
        { s with
          engine := { s.engine with losses, statistics }
          worker := .working stage' } {}
  | resends {p : DataPacket} (worker : s.worker = .working (.resending p)) :
      Changes s .work
        { s with
          engine := (s.engine.resend p).2
          worker := .working (.done (s.engine.resend p).1) } {}
  | polls {window : Nat} {p : DataPacket} {rest : List DataPacket}
      (worker : s.worker = .working (.windowRead window)) (head : s.queue.waiting = p :: rest) :
      Changes s .work
        { s with
          queue := { s.queue with waiting := rest }
          worker := .working (.holding window p) } {}
  | transmits {window : Nat} {p : DataPacket} (worker : s.worker = .working (.holding window p))
      (alive : (s.engine.transmit p).1 ≠ .error .crash) :
      Changes s .work
        { s with
          engine := (s.engine.transmit p).2
          worker := .working (.settling window (s.engine.transmit p).1) }
        { attempted := [(p, (s.engine.transmit p).1)] }
  | crashes {window : Nat} {p : DataPacket} (worker : s.worker = .working (.holding window p))
      (crash : (s.engine.transmit p).1 = .error .crash) :
      Changes s .work
        { s with
          engine := (s.engine.transmit p).2
          worker := .working (.done (.error .crash)) }
        { attempted := [(p, .error .crash)] }
  | settles {window : Nat} {outcome : Except Fault Progress}
      (worker : s.worker = .working (.settling window outcome)) :
      Changes s .work { s with queue := s.queue.handled, worker := .working (.done outcome) } {}
  | concludes {outcome : Except Fault Progress} (worker : s.worker = .working (.done outcome)) :
      Changes s .work { s with worker := Worker.after outcome } {}
  | flags {exit : WorkerExit} (worker : s.worker = .leaving exit) :
      Changes s .work { s.requestStop with worker := .closing exit } {}
  | closes {exit : WorkerExit} (worker : s.worker = .closing exit) :
      Changes s .work { s with queue := s.queue.dropConsumer, worker := .ended exit }
        { discarded := s.queue.waiting }
  -- Packets that others offer.
  | announces {p : DataPacket} : Changes s (.announce p) (s.announceOffer p) {}
  | accepts {n : Nat} {p : DataPacket} (offered : s.offers[n]? = some p)
      (room : s.admission = .accepted) :
      Changes s (.attempt n) { s with queue := s.queue.push p, offers := s.offers.eraseIdx n }
        { accepted := [p] }
  | takesBack {ev : Event σ} {n : Nat} {p : DataPacket} (offered : s.offers[n]? = some p) :
      Changes s ev { s with queue := s.queue.retract, offers := s.offers.eraseIdx n } {}
  -- Writes.
  | begins {ev : Event σ} {now : Moment} {message : Bytes}
      (free : s.writer.isUnderWay = false) :
      Changes s ev (s.startWrite now message)
        { written := [(message, (s.engine.fragment now message).1)] }
  | turnsAway {ev : Event σ} (free : s.writer.isUnderWay = false) :
      Changes s ev { s with writer := .returned (.error .stopped) }
        { results := [.error .stopped] }
  | announcesNext {total : Nat} {p : DataPacket} {rest : List DataPacket}
      (writer : s.writer = .offering total (p :: rest)) :
      Changes s .writeOn
        { s with queue := s.queue.announce, writer := .waiting total p rest } {}
  | acceptsNext {total : Nat} {p : DataPacket} {rest : List DataPacket}
      (writer : s.writer = .waiting total p rest) (room : s.admission = .accepted) :
      Changes s .writeOn { s with queue := s.queue.push p, writer := .offering total rest }
        { accepted := [p] }
  | refusesNext {total : Nat} {p : DataPacket} {rest : List DataPacket}
      (writer : s.writer = .waiting total p rest) (closed : s.admission = .closed) :
      Changes s .writeOn
        { s with queue := s.queue.retract, writer := .returned (.error .stopped) }
        { results := [.error .stopped] }
  | finishes {total : Nat} (writer : s.writer = .offering total []) :
      Changes s .writeOn { s with writer := .returned (.ok total) } { results := [.ok total] }
  -- Everything else.
  | signals (x : Signal σ) : Changes s (.signal x) { s with engine := s.engine.handle x } {}
  | joins : Changes s .join { s with joined := true } {}
  | stays {ev : Event σ} : Changes s ev s {}

omit [SilenceTimer τ] in
/-- An action of the worker within an iteration is the iteration's. -/
theorem advanceWorker_working {s : Sender σ τ} {stage : Stage} (hs : s.worker = .working stage)
    (hstage : ∀ outcome, stage ≠ .done outcome) :
    let i := Iteration.advance { engine := s.engine, queue := s.queue, stage }
    s.advanceWorker
      = { s with engine := i.engine, queue := i.queue, worker := .working i.stage } := by
  unfold advanceWorker
  rw [hs]
  cases stage with
  | done outcome => exact absurd rfl (hstage outcome)
  | _ => rfl

/-- The worker's next action. -/
theorem changes_work (s : Sender σ τ) : Changes s .work s.advanceWorker (s.gain .work) := by
  unfold gain
  cases hw : s.worker with
  | ready =>
    unfold advanceWorker
    rw [hw]
    by_cases hstop : s.engine.stopped = true
    · rw [if_pos hstop]
      exact .leaves hw hstop
    · rw [if_neg hstop]
      exact .starts hw (Bool.eq_false_iff.mpr hstop)
  | leaving exit =>
    unfold advanceWorker
    rw [hw]
    exact .flags hw
  | closing exit =>
    unfold advanceWorker
    rw [hw]
    exact .closes hw
  | ended exit =>
    unfold advanceWorker
    rw [hw]
    exact .stays
  | working stage =>
    by_cases hdone : ∃ outcome, stage = .done outcome
    · obtain ⟨outcome, rfl⟩ := hdone
      unfold advanceWorker
      rw [hw]
      exact .concludes hw
    · rw [advanceWorker_working hw fun outcome he => hdone ⟨outcome, he⟩]
      have hadv := Iteration.advances { engine := s.engine, queue := s.queue, stage }
      generalize Iteration.advance { engine := s.engine, queue := s.queue, stage } = i at hadv ⊢
      cases hadv with
      | seesLoss hs | seesNone hs | takesLoss hs | countsFlight hs | readsWindow hs =>
        obtain rfl := hs
        exact .looks hw rfl (by simp) rfl (by simp) (by simp)
      | skipsLoss hs | windowFull hs | pollsNothing hs =>
        obtain rfl := hs
        exact .looks hw rfl (by simp) rfl (by simp) (by simp)
      | @findsLoss x p hs hkept =>
        obtain rfl := hs
        have hp : p ∈ s.engine.buffer.entries := (SendBuffer.mem_of_get? hkept).1
        refine .looks hw rfl (by simp) rfl (fun q hq => ?_) (by simp)
        obtain rfl := Stage.resending.inj hq
        exact hp
      | resends hs =>
        obtain rfl := hs
        exact .resends hw
      | pollsPacket hs hhead =>
        obtain rfl := hs
        exact .polls hw hhead
      | transmits hs halive =>
        obtain rfl := hs
        exact .transmits hw halive
      | @crashes window p hs hcrash =>
        obtain rfl := hs
        show Changes s .work _ { attempted := [(p, (s.engine.transmit p).1)] }
        rw [hcrash]
        exact .crashes hw hcrash
      | settles hs =>
        obtain rfl := hs
        exact .settles hw
      | rests hs => exact absurd ⟨_, hs⟩ hdone

/-- The next action of a write. -/
theorem changes_writeOn (s : Sender σ τ) :
    Changes s .writeOn s.advanceWriter (s.gain .writeOn) := by
  unfold gain advanceWriter
  cases hw : s.writer with
  | idle | returned => exact .stays
  | offering total rest =>
    cases rest with
    | nil => exact .finishes hw
    | cons p rest => exact .announcesNext hw
  | waiting total p rest =>
    cases ha : s.admission with
    | accepted => exact .acceptsNext hw ha
    | full => exact .stays
    | closed => exact .refusesNext hw ha

/-- Every event. -/
theorem changes (s : Sender σ τ) (ev : Event σ) : Changes s ev (s.apply ev) (s.gain ev) := by
  cases ev with
  | work => exact s.changes_work
  | writeOn => exact s.changes_writeOn
  | write now message =>
    show Changes s _ (s.beginWrite now message)
      (if s.writer.isUnderWay then {}
        else if s.engine.stopped then { results := [.error .stopped] }
        else { written := [(message, (s.engine.fragment now message).1)] })
    unfold beginWrite
    by_cases hbusy : s.writer.isUnderWay = true
    · rw [if_pos hbusy, if_pos hbusy]
      exact .stays
    · rw [if_neg hbusy, if_neg hbusy]
      have hfree := Bool.eq_false_iff.mpr hbusy
      by_cases hstop : s.engine.stopped = true
      · rw [if_pos hstop, if_pos hstop]
        exact .turnsAway hfree
      · rw [if_neg hstop, if_neg hstop]
        exact .begins hfree
  | enter now message =>
    show Changes s _ (s.enterWrite now message)
      (if s.writer.isUnderWay then {}
        else { written := [(message, (s.engine.fragment now message).1)] })
    unfold enterWrite
    by_cases hbusy : s.writer.isUnderWay = true
    · rw [if_pos hbusy, if_pos hbusy]
      exact .stays
    · rw [if_neg hbusy, if_neg hbusy]
      exact .begins (Bool.eq_false_iff.mpr hbusy)
  | announce p => exact .announces
  | attempt n =>
    show Changes s _ (if s.admission = .full then s else s.concludeOffer n s.admission)
      (match s.offers[n]?, s.admission with
        | some p, .accepted => { accepted := [p] }
        | _, _ => {})
    cases hn : s.offers[n]? with
    | none =>
      rw [concludeOffer_of_none hn, ite_self]
      exact .stays
    | some p =>
      cases ha : s.admission with
      | accepted =>
        rw [if_neg (by simp), concludeOffer_of_some hn]
        exact .accepts hn ha
      | full =>
        rw [if_pos rfl]
        exact .stays
      | closed =>
        rw [if_neg (by simp), concludeOffer_of_some hn]
        exact .takesBack hn
  | abandon n =>
    show Changes s _ (s.concludeOffer n .full) {}
    cases hn : s.offers[n]? with
    | none =>
      rw [concludeOffer_of_none hn]
      exact .stays
    | some p =>
      rw [concludeOffer_of_some hn]
      exact .takesBack hn
  | signal x => exact .signals x
  | join =>
    show Changes s _ (s.join?.elim s Prod.snd) {}
    unfold join?
    by_cases hj : s.joined = true
    · rw [if_pos hj]
      exact .stays
    · rw [if_neg hj]
      split
      · exact .joins
      · exact .stays

/-- **One induction for all invariants**: what holds where a run begins, and is kept by every
event, holds of the sender and the ledger in the end. -/
theorem invariant_replay (Inv : Sender σ τ → Ledger → Prop) {start : Sender σ τ}
    (hstart : Inv start {})
    (hkeep : ∀ {s s' : Sender σ τ} {ev : Event σ} {l g : Ledger},
      Changes s ev s' g → Inv s l → Inv s' (l.append g))
    (history : List (Event σ)) : Inv (start.replay history) (start.ledger history) := by
  induction history using List.reverseRecOn with
  | nil => exact hstart
  | append_singleton history ev ih =>
    rw [replay_concat, ledger_concat]
    exact hkeep (changes _ ev) ih

end Sender

end ReliableSender
