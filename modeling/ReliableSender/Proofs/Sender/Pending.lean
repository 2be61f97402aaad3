/-
  ReliableSender.Proofs.Sender.Pending
  ────────────────────────────────────
  **WHAT THE PENDING COUNT IS THE NUMBER OF.**

  A packet is counted from its announcement, when it is not in the queue
  yet, until the worker has dealt with it.  So the count is the number of
  packets that wait, with the one in the worker's hands and those that are
  being offered at this moment:

      pending_eq      — the count of any sender, with what was lost in it
      intact_replay   — a worker that goes on has lost nothing
      pending_exact   — the count of a sender that has lost nothing
-/
import ReliableSender.Proofs.Sender.Places
import ReliableSender.Transport.Channel

namespace ReliableSender

/-! ## §1. What is lost. -/

/-- Accepted packets that a worker took with it: the one whose transmission made it crash,
and those that were thrown away with the queue. -/
def Ledger.lost (l : Ledger) : List DataPacket :=
  (l.attempted.filter isCrash).map Prod.fst ++ l.discarded

theorem Ledger.length_lost (l : Ledger) : l.lost.length = l.crashes + l.discarded.length := by
  unfold lost crashes
  rw [List.length_append, List.length_map, List.countP_eq_length_filter]

namespace Worker

/-- Whether the sink made the worker crash. -/
def isCrashed : Worker → Bool
  | working (.done (.error .crash)) | closing .crashed | ended .crashed => true
  | _ => false

theorem isCrashed_working {stage : Stage} (h : ∀ outcome, stage ≠ .done outcome) :
    (working stage).isCrashed = false := by
  cases stage with
  | done outcome => exact absurd rfl (h outcome)
  | _ => rfl

theorem isCrashed_after (outcome : Except Fault Progress) :
    (after outcome).isCrashed = (working (.done outcome)).isCrashed := by
  rcases outcome with (cause | _) | (_ | _ | _ | _ | _ | _ | _) <;> rfl

/-- The packet that was taken out and not dealt with is held, or is being settled. -/
theorem toNat_holdsPacket (w : Worker) :
    w.holdsPacket.toNat = w.held.length + w.isSettling.toNat := by
  cases w with
  | working stage => cases stage <;> rfl
  | _ => rfl

end Worker

namespace Sender

variable {σ τ : Type} [Sink σ] [SilenceTimer τ]

/-- A worker that has not crashed after an event had not before, and attempted nothing that
made it crash. -/
theorem intact_changes {s s' : Sender σ τ} {ev : Event σ} {g : Ledger} (h : Changes s ev s' g)
    (hintact : s'.worker.isCrashed = false) :
    s.worker.isCrashed = false ∧ g.crashes = 0 := by
  cases h with
  | starts hw | leaves hw | resends hw | polls hw | settles hw | flags hw =>
    rw [hw]
    exact ⟨rfl, rfl⟩
  | looks hw _ hgoing =>
    rw [hw]
    exact ⟨Worker.isCrashed_working hgoing, rfl⟩
  | @transmits window p hw halive =>
    rw [hw]
    refine ⟨rfl, List.countP_eq_zero.mpr fun a ha hcrash => halive ?_⟩
    obtain rfl := List.mem_singleton.mp ha
    unfold Ledger.isCrash at hcrash
    split at hcrash
    · assumption
    · exact absurd hcrash Bool.false_ne_true
  | crashes => exact absurd hintact.symm Bool.false_ne_true
  -- A crash is carried on from the iteration to the end of the worker.
  | @concludes outcome hw =>
    rw [hw, ← Worker.isCrashed_after]
    exact ⟨hintact, rfl⟩
  | @closes exit hw =>
    rw [hw]
    cases exit with
    | crashed => exact absurd hintact.symm Bool.false_ne_true
    | _ => exact ⟨rfl, rfl⟩
  | _ => exact ⟨hintact, rfl⟩

theorem crashes_replay (config : Config) (sink : σ) (timer : τ) (history : List (Event σ))
    (hintact : ((fresh config sink timer).replay history).worker.isCrashed = false) :
    ((fresh config sink timer).ledger history).crashes = 0 := by
  induction history using List.reverseRecOn with
  | nil => rfl
  | append_singleton history ev ih =>
    rw [replay_concat] at hintact
    obtain ⟨hbefore, hnow⟩ := intact_changes (changes _ ev) hintact
    rw [ledger_concat]
    show (((fresh config sink timer).ledger history).attempted ++ _).countP Ledger.isCrash = 0
    rw [List.countP_append]
    exact Nat.add_eq_zero_iff.mpr ⟨ih hbefore, hnow⟩

/-- A worker that goes on has lost nothing. -/
theorem intact_replay (config : Config) (sink : σ) (timer : τ) (history : List (Event σ))
    (hgoing : ((fresh config sink timer).replay history).worker.hasEnded = false)
    (hintact : ((fresh config sink timer).replay history).worker.isCrashed = false) :
    ((fresh config sink timer).ledger history).lost = [] := by
  have hcrashes := crashes_replay config sink timer history hintact
  have hdiscarded := (consistent_replay config sink timer history).kept hgoing
  refine List.eq_nil_of_length_eq_zero ?_
  rw [Ledger.length_lost, hcrashes, hdiscarded]
  rfl

end Sender

/-! ## §2. The count. -/

namespace Sender

variable {σ τ : Type}

/-- How many packets are being offered at this moment: by other callers, and by the write
under way. -/
def offering (s : Sender σ τ) : Nat := s.offers.length + s.writer.offered.length

/-- The count of a sender is the number of packets that wait, are in the worker's hands, are
being offered, or were lost. -/
theorem pending_eq {s : Sender σ τ} {l : Ledger} (hs : s.places.Consistent l) :
    s.pending = UInt64.ofNat
      (s.queue.waiting.length + s.worker.holdsPacket.toNat + s.offering + l.lost.length) := by
  have hhands := s.worker.toNat_holdsPacket
  have hlost := l.length_lost
  refine hs.pending.trans (congrArg _ ?_)
  unfold Places.unhandled places offering
  simp only
  omega

variable [Sink σ] [SilenceTimer τ]

/-- **The pending count of a sender that has lost nothing is exact.**  Nothing is lost as
long as the worker has not ended and not crashed.  If nothing was lost, the count is the
number of packets in the queue, with one more if the worker is between taking a packet and
finishing with it, and one more for each packet that is being offered at this moment; and
behind a worker that has ended the queue is empty and its hands are, so that with no offer
under way only the send buffer and the losses can be outstanding. -/
theorem pending_exact (config : Config) (sink : σ) (timer : τ) (history : List (Event σ)) :
    let start : Sender σ τ := fresh config sink timer
    let s := start.replay history
    let l := start.ledger history
    (s.worker.hasEnded = false → s.worker.isCrashed = false → l.lost = [])
      ∧ (l.lost = [] →
        s.pending = UInt64.ofNat
            (s.queue.waiting.length + s.worker.holdsPacket.toNat + s.offering)
          ∧ (s.worker.hasEnded = true →
            s.queue.waiting = [] ∧ s.worker.holdsPacket = false
              ∧ s.pending = UInt64.ofNat s.offering
              ∧ (s.offering = 0 →
                s.hasOutstanding
                  = (s.engine.unacknowledged != 0 || s.engine.hasLosses)))) := by
  intro start s l
  have hconsistent : s.places.Consistent l := consistent_replay config sink timer history
  refine ⟨intact_replay config sink timer history, fun hlost => ?_⟩
  have hcount := pending_eq hconsistent
  rw [hlost, List.length_nil, Nat.add_zero] at hcount
  refine ⟨hcount, fun hended => ?_⟩
  -- The queue was given up, and a worker that has ended has no stage to hold a packet in.
  have hwaiting : s.queue.waiting = [] := hconsistent.emptied hended
  have hhands : s.worker.holdsPacket = false := by
    unfold Worker.hasEnded at hended
    split at hended
    · simp [*, Worker.holdsPacket]
    · exact absurd hended Bool.false_ne_true
  rw [hwaiting, hhands] at hcount
  simp only [List.length_nil, Bool.toNat_false, Nat.zero_add] at hcount
  refine ⟨hwaiting, hhands, hcount, fun hoffering => ?_⟩
  unfold hasOutstanding outstandingAcross
  rw [hcount, hoffering]
  rfl

/-- One packet is transmitted, and the worker is asked to end; then the packet is
outstanding because it is unacknowledged, and nothing is pending. -/
theorem pending_exact_after_stop :
    let start : Sender ChannelSink NoTimer := fresh {} {} {}
    let history : List (Event ChannelSink) :=
      [.announce { sequence := 0 }, .attempt 0] ++ List.replicate 8 .work
        ++ [.signal .requestStop] ++ List.replicate 4 .work
    let s := start.replay history
    let l := start.ledger history
    s.worker.hasEnded = true ∧ l.lost = [] ∧ s.pending = 0
      ∧ s.hasOutstanding = (s.engine.unacknowledged != 0 || s.engine.hasLosses)
      ∧ s.engine.unacknowledged = 1 := by
  intro start history s l
  have hended : s.worker.hasEnded = true := by decide +kernel
  have hlost : l.lost = [] := by decide +kernel
  have hoffering : s.offering = 0 := by decide +kernel
  have hone : s.engine.unacknowledged = 1 := by decide +kernel
  clear_value history
  obtain ⟨-, hexact⟩ := pending_exact {} {} ({} : NoTimer) history
  obtain ⟨-, hafter⟩ := hexact hlost
  obtain ⟨-, -, hpending, houtstanding⟩ := hafter hended
  rw [hoffering] at hpending
  exact ⟨hended, hlost, hpending, houtstanding hoffering, hone⟩

/-- A write fills a queue of one place and waits with its second packet: the queue holds
one packet, the worker none, and two are pending. -/
theorem waiting_write_is_pending :
    let start : Sender ChannelSink NoTimer :=
      fresh { queueCapacity := 1, maxPayload := 1 } {} {}
    let s := start.replay [.write 0 [0, 1], .writeOn, .writeOn, .writeOn, .writeOn]
    s.queue.waiting.length = 1 ∧ s.worker.holdsPacket = false ∧ s.pending = 2 := by
  decide +kernel

end Sender

end ReliableSender
