/-
  ReliableSender.Proofs.Sender.Ended
  ──────────────────────────────────
  **A SENDER WHOSE WORKER HAS ENDED.**

  A worker ends because it was asked to, because new data could not be
  transmitted, or because the sink crashed.  In the first two cases it sets
  the stop flag on its way out, in the third it does not; but it gives up
  the queue in all three.  An offer and a write look at the flag first and
  at the queue then, so either trace is enough to turn them away.  A message
  of no packets never comes to the queue, and that leaves one gap:

      admission_of_gone     — no packet enters the queue
      Flagged               — only a crash leaves the flag unset
      ended_sender_refuses  — what every later call is told
-/
import ReliableSender.Proofs.Engine.Fragment
import ReliableSender.Proofs.Sender.Places
import ReliableSender.Transport.Channel

namespace ReliableSender

/-! ## §1. The stop flag. -/

namespace Engine

variable {σ τ : Type} [Sink σ]

theorem stopped_transmit (e : Engine σ τ) (p : DataPacket) :
    (e.transmit p).2.stopped = e.stopped := by
  obtain ⟨outcome, buffer, sink, statistics, sentBound, he⟩ := e.transmit_eq p
  rw [he]

theorem stopped_resend (e : Engine σ τ) (p : DataPacket) :
    (e.resend p).2.stopped = e.stopped := by
  obtain ⟨outcome, statistics, he⟩ := e.resend_eq p
  rw [he]

variable [SilenceTimer τ]

/-- No signal takes the flag back. -/
theorem stopped_handle {e : Engine σ τ} (h : e.stopped = true) (x : Signal σ) :
    (e.handle x).stopped = true := by
  have hx := e.handles x
  generalize e.handle x = e' at hx ⊢
  cases hx with
  | stops => rfl
  | _ => exact h

end Engine

namespace Sender

variable {σ τ : Type} [Sink σ] [SilenceTimer τ]

/-- Nothing takes the flag back. -/
theorem stopped_changes {s s' : Sender σ τ} {ev : Event σ} {g : Ledger} (h : Changes s ev s' g)
    (hstop : s.engine.stopped = true) : s'.engine.stopped = true := by
  cases h with
  | resends => exact (s.engine.stopped_resend _).trans hstop
  | transmits | crashes => exact (s.engine.stopped_transmit _).trans hstop
  | flags => rfl
  | signals x => exact Engine.stopped_handle hstop x
  | _ => exact hstop

/-- A worker on its way out behind the flag has set it, unless the sink crashed. -/
def Flagged (s : Sender σ τ) : Prop :=
  ∀ exit, s.worker = .closing exit ∨ s.worker = .ended exit →
    exit = .crashed ∨ s.engine.stopped = true

theorem flagged_changes {s s' : Sender σ τ} {ev : Event σ} {g : Ledger} (h : Changes s ev s' g)
    (hi : s.Flagged) : s'.Flagged := by
  have hstop := stopped_changes h
  intro exit hout
  cases h with
  | @concludes outcome hw =>
    -- Straight from an iteration to the end goes only a crash.
    replace hout : Worker.after outcome = .closing exit ∨ Worker.after outcome = .ended exit := hout
    unfold Worker.after at hout
    split at hout
    · simp at hout
    · simp at hout
    · simp at hout
    · obtain rfl : WorkerExit.crashed = exit := by simpa using hout
      exact Or.inl rfl
  | flags hw => exact Or.inr rfl
  | @closes exit' hw =>
    obtain rfl : exit' = exit := by simpa using hout
    exact hi exit' (Or.inl hw)
  | starts | leaves | looks | resends | polls | transmits | crashes | settles => simp at hout
  | _ => exact (hi exit hout).imp_right hstop

/-- **Only a crash leaves the flag unset.** -/
theorem flagged_replay (config : Config) (sink : σ) (timer : τ) (history : List (Event σ)) :
    ((fresh config sink timer).replay history).Flagged := by
  refine invariant_replay (fun s _ => s.Flagged) ?_ flagged_changes history
  intro exit hout
  simp [fresh, spawn] at hout

end Sender

/-! ## §2. The queue. -/

namespace Sender

variable {σ τ : Type}

/-- The packet that was announced last is taken back without a trace. -/
theorem announceOffer_concludeOffer (s : Sender σ τ) (p : DataPacket) :
    (s.announceOffer p).concludeOffer s.offers.length .closed = s := by
  have hlast : (s.announceOffer p).offers[s.offers.length]? = some p :=
    List.getElem?_concat_length
  rw [concludeOffer_of_some hlast]
  show { s with
    queue := s.queue.announce.retract
    offers := (s.offers ++ [p]).eraseIdx s.offers.length } = s
  rw [eraseIdx_concat_length, IngressQueue.retract_announce]

/-- A closed queue refuses an offer, and the offer leaves no trace. -/
theorem offer_of_closed {s : Sender σ τ} (h : s.admission = .closed) (p : DataPacket) :
    s.offer p = (.closed, s) := by
  unfold offer
  rw [h, announceOffer_concludeOffer, ite_self]

variable [Sink σ]

/-- There is nothing to wait for at a closed queue. -/
theorem waitForRoom_of_closed {s : Sender σ τ} (h : s.admission = .closed) (patience : Nat) :
    waitForRoom patience s = s := by
  cases patience with
  | zero => rfl
  | succ patience =>
    unfold waitForRoom
    rw [h]
    exact if_neg (by decide)

theorem offerWithin_of_closed {s : Sender σ τ} (h : s.admission = .closed) (patience : Nat)
    (p : DataPacket) : s.offerWithin patience p = (.closed, s) := by
  have hannounced : (s.announceOffer p).admission = .closed := h
  unfold offerWithin
  rw [waitForRoom_of_closed hannounced]
  show (if s.engine.stopped then (Offer.closed, s)
    else ((s.announceOffer p).admission,
      (s.announceOffer p).concludeOffer s.offers.length (s.announceOffer p).admission)) = _
  rw [hannounced, announceOffer_concludeOffer, ite_self]

variable [SilenceTimer τ]

/-- A worker that has ended does nothing more. -/
theorem ended_changes {s s' : Sender σ τ} {ev : Event σ} {g : Ledger} {exit : WorkerExit}
    (h : Changes s ev s' g) (hw : s.worker = .ended exit) : s'.worker = .ended exit := by
  cases h with
  | starts worker | leaves worker | looks worker | resends worker | polls worker
  | transmits worker | crashes worker | settles worker | concludes worker | flags worker
  | closes worker =>
    -- Every action of the worker starts somewhere else.
    rw [hw] at worker
    cases worker
  | _ => exact hw

theorem ended_replay {s : Sender σ τ} {exit : WorkerExit} (h : s.worker = .ended exit)
    (later : List (Event σ)) : (s.replay later).worker = .ended exit := by
  induction later generalizing s with
  | nil => exact h
  | cons ev later ih => exact ih (ended_changes (changes s ev) h)

/-- **No packet enters the queue behind a worker that has ended.** -/
theorem admission_of_ended (config : Config) (sink : σ) (timer : τ) {history : List (Event σ)}
    {exit : WorkerExit} (h : ((fresh config sink timer).replay history).worker = .ended exit) :
    ((fresh config sink timer).replay history).admission = .closed := by
  have hconsumed := (consistent_replay config sink timer history).closed
  generalize (fresh config sink timer).replay history = s at h hconsumed ⊢
  replace hconsumed : s.queue.consumed = !s.worker.hasEnded := hconsumed
  rw [h] at hconsumed
  -- Nobody takes packets any more, neither out of the queue nor from hand to hand.
  have hhand : s.handsOver = false := by
    unfold handsOver
    rw [h]
    exact Bool.and_false _
  unfold admission
  rw [hhand]
  exact IngressQueue.admission_eq_closed_iff.mpr hconsumed

/-- The queue is closed, and stays so. -/
def Shut (s : Sender σ τ) : Prop := ∀ later, (s.replay later).admission = .closed

theorem shut_of_ended (config : Config) (sink : σ) (timer : τ) {history : List (Event σ)}
    {exit : WorkerExit} (h : ((fresh config sink timer).replay history).worker = .ended exit) :
    ((fresh config sink timer).replay history).Shut := by
  intro later
  have hlater := ended_replay h later
  rw [← replay_append] at hlater ⊢
  exact admission_of_ended config sink timer hlater

theorem shut_replay {s : Sender σ τ} (h : s.Shut) (later : List (Event σ)) :
    (s.replay later).Shut := by
  intro later'
  rw [← replay_append]
  exact h (later ++ later')

theorem accepted_changes {s s' : Sender σ τ} {ev : Event σ} {g : Ledger} (h : Changes s ev s' g)
    (hclosed : s.admission = .closed) : g.accepted = [] := by
  cases h with
  | accepts _ room | acceptsNext _ room =>
    rw [hclosed] at room
    cases room
  | _ => rfl

/-- Whoever offers, nothing is accepted any more. -/
theorem accepted_of_shut {s : Sender σ τ} (h : s.Shut) (later : List (Event σ)) :
    (s.ledger later).accepted = [] := by
  induction later using List.reverseRecOn with
  | nil => rfl
  | append_singleton later ev ih =>
    rw [ledger_concat]
    show (s.ledger later).accepted ++ ((s.replay later).gain ev).accepted = []
    rw [ih, accepted_changes (changes _ ev) (h later)]
    rfl

end Sender

/-! ## §3. Writes. -/

namespace Sender

variable {σ τ : Type} [Sink σ]

/-- A write that finds no other takes its turn; one that begins looks at the flag first. -/
theorem gain_enter_of_free {s : Sender σ τ} (hfree : s.writer.isUnderWay = false) (now : Moment)
    (message : Bytes) :
    s.gain (.enter now message)
      = { written := [(message, (s.engine.fragment now message).1)] } := by
  unfold gain
  exact if_neg (by simp [hfree])

theorem gain_write_of_free {s : Sender σ τ} (hfree : s.writer.isUnderWay = false) (now : Moment)
    (message : Bytes) :
    s.gain (.write now message)
      = if s.engine.stopped then { results := [.error .stopped] }
        else { written := [(message, (s.engine.fragment now message).1)] } := by
  unfold gain
  exact if_neg (by simp [hfree])

variable [SilenceTimer τ]

theorem results_ledger_cons (s : Sender σ τ) (ev : Event σ) (later : List (Event σ)) :
    (s.ledger (ev :: later)).results
      = (s.gain ev).results ++ ((s.apply ev).ledger later).results := by
  rfl

theorem results_ledger_append (s : Sender σ τ) (history later : List (Event σ)) :
    (s.ledger (history ++ later)).results
      = (s.ledger history).results ++ ((s.replay history).ledger later).results := by
  rw [ledger_append]
  rfl

/-- Nothing but its own action moves a write that is under way. -/
theorem undisturbed_changes {s s' : Sender σ τ} {ev : Event σ} {g : Ledger}
    (h : Changes s ev s' g) (hbusy : s.writer.isUnderWay = true) (hev : ev ≠ .writeOn) :
    s'.writer = s.writer ∧ g.results = [] := by
  cases h with
  | begins free | turnsAway free =>
    rw [hbusy] at free
    cases free
  | announcesNext | acceptsNext | refusesNext | finishes => exact absurd rfl hev
  | _ => exact ⟨rfl, rfl⟩

theorem undisturbed_replay {s : Sender σ τ} (hbusy : s.writer.isUnderWay = true)
    {later : List (Event σ)} (hlater : .writeOn ∉ later) :
    (s.replay later).writer = s.writer ∧ (s.ledger later).results = [] := by
  induction later using List.reverseRecOn with
  | nil => exact ⟨rfl, rfl⟩
  | append_singleton later ev ih =>
    rw [List.mem_append, not_or] at hlater
    -- The write is still as it was, so it is under way when the last event comes.
    obtain ⟨hwriter, hresults⟩ := ih hlater.1
    have hev : ev ≠ .writeOn := fun he => hlater.2 (List.mem_singleton.mpr he.symm)
    have hnow := undisturbed_changes (changes (s.replay later) ev) (hwriter ▸ hbusy) hev
    rw [replay_concat, ledger_concat]
    refine ⟨hnow.1.trans hwriter, ?_⟩
    show (s.ledger later).results ++ ((s.replay later).gain ev).results = []
    rw [hresults, hnow.2]
    rfl

/-- A write that is under way comes to its next action as it is now, and without a result. -/
theorem next_action {s : Sender σ τ} (hbusy : s.writer.isUnderWay = true)
    {later : List (Event σ)} (hlater : .writeOn ∈ later) :
    ∃ before after, later = before ++ .writeOn :: after ∧ .writeOn ∉ before
      ∧ (s.replay before).writer = s.writer
      ∧ (s.ledger later).results = ((s.replay before).gain .writeOn).results
          ++ (((s.replay before).apply .writeOn).ledger after).results := by
  obtain ⟨before, after, rfl, hbefore⟩ := List.eq_append_cons_of_mem hlater
  obtain ⟨hwriter, hresults⟩ := undisturbed_replay hbusy hbefore
  refine ⟨before, after, rfl, hbefore, hwriter, ?_⟩
  rw [results_ledger_append, hresults, results_ledger_cons]
  rfl

/-- A write that has no packet left is over with its next action. -/
theorem result_of_offering_nil {s : Sender σ τ} {total : Nat}
    (hwriter : s.writer = .offering total []) {later : List (Event σ)}
    (hlater : .writeOn ∈ later) :
    (s.ledger later).results.head? = some (.ok total) := by
  obtain ⟨before, after, -, -, hsame, hresults⟩ := next_action (by rw [hwriter]; rfl) hlater
  rw [hwriter] at hsame
  rw [hresults]
  unfold gain
  rw [hsame]
  rfl

/-- A packet that waits at a closed queue is refused, and its write with it. -/
theorem result_of_waiting {s : Sender σ τ} (hshut : s.Shut) {total : Nat} {p : DataPacket}
    {rest : List DataPacket} (hwriter : s.writer = .waiting total p rest)
    {later : List (Event σ)} (hlater : .writeOn ∈ later) :
    (s.ledger later).results.head? = some (.error .stopped) := by
  obtain ⟨before, after, -, -, hsame, hresults⟩ := next_action (by rw [hwriter]; rfl) hlater
  rw [hwriter] at hsame
  rw [hresults]
  unfold gain
  rw [hsame]
  simp only [hshut before]
  rfl

/-- A write that still has a packet announces it first, and is refused then. -/
theorem result_of_offering_cons {s : Sender σ τ} (hshut : s.Shut) {total : Nat} {p : DataPacket}
    {rest : List DataPacket} (hwriter : s.writer = .offering total (p :: rest))
    {later : List (Event σ)} (hlater : [.writeOn, .writeOn].Sublist later) :
    (s.ledger later).results.head? = some (.error .stopped) := by
  have hfirst : .writeOn ∈ later := hlater.subset List.mem_cons_self
  obtain ⟨before, after, rfl, hbefore, hsame, hresults⟩ :=
    next_action (by rw [hwriter]; rfl) hfirst
  rw [hwriter] at hsame
  -- The second action comes after the first.
  have hsecond : .writeOn ∈ after := by
    obtain ⟨early, late, hboth, hearly, hlate⟩ := List.sublist_append_iff.mp hlater
    cases early with
    | nil =>
      obtain rfl : [.writeOn, .writeOn] = late := hboth
      exact List.singleton_sublist.mp (List.cons_sublist_cons.mp hlate)
    | cons ev early =>
      obtain ⟨rfl, -⟩ := List.cons.inj hboth
      exact absurd (hearly.subset List.mem_cons_self) hbefore
  have hgain : ((s.replay before).gain .writeOn).results = [] := by
    unfold gain
    rw [hsame]
  have hwaiting : ((s.replay before).apply .writeOn).writer = .waiting total p rest := by
    show ((s.replay before).advanceWriter).writer = _
    unfold advanceWriter
    rw [hsame]
  rw [hresults, hgain]
  refine result_of_waiting ?_ hwaiting hsecond
  rw [← replay_concat]
  exact shut_replay hshut _

/-- A write that takes its turn is told that the sender stopped, unless its message has no
packets. -/
theorem result_of_startWrite {s : Sender σ τ} {now : Moment} {message : Bytes}
    (hshut : (s.startWrite now message).Shut) {later : List (Event σ)}
    (hlater : [.writeOn, .writeOn].Sublist later) :
    ((s.startWrite now message).ledger later).results.head?
      = some (if message = [] then .ok 0 else .error .stopped) := by
  have hwriter : (s.startWrite now message).writer
      = .offering (s.engine.fragment now message).1.length (s.engine.fragment now message).1 := rfl
  have hempty := s.engine.fragment_eq_nil_iff now message
  -- Only with a packet does the write come to the queue, and only there is it refused.
  by_cases hmessage : message = []
  · rw [hempty.mpr hmessage] at hwriter
    rw [if_pos hmessage]
    exact result_of_offering_nil hwriter (hlater.subset List.mem_cons_self)
  · rw [if_neg hmessage]
    cases hpackets : (s.engine.fragment now message).1 with
    | nil => exact absurd (hempty.mp hpackets) hmessage
    | cons p rest =>
      rw [hpackets] at hwriter
      exact result_of_offering_cons hshut hwriter hlater

theorem result_of_enter {s : Sender σ τ} (hshut : s.Shut) (hfree : s.writer.isUnderWay = false)
    (now : Moment) (message : Bytes) {later : List (Event σ)}
    (hlater : [.writeOn, .writeOn].Sublist later) :
    (s.ledger (.enter now message :: later)).results.head?
      = some (if message = [] then .ok 0 else .error .stopped) := by
  have happly : s.apply (.enter now message) = s.startWrite now message := if_neg (by simp [hfree])
  have hgain : (s.gain (.enter now message)).results = [] := by
    rw [gain_enter_of_free hfree]
  have hstart : (s.apply (.enter now message)).Shut := shut_replay hshut [.enter now message]
  rw [happly] at hstart
  rw [results_ledger_cons, hgain, happly]
  exact result_of_startWrite hstart hlater

theorem result_of_write {s : Sender σ τ} (hshut : s.Shut) (hfree : s.writer.isUnderWay = false)
    (now : Moment) (message : Bytes) {later : List (Event σ)}
    (hlater : [.writeOn, .writeOn].Sublist later) :
    (s.ledger (.write now message :: later)).results.head?
      = some (if s.engine.stopped = false ∧ message = [] then .ok 0 else .error .stopped) := by
  have hbusy : ¬ s.writer.isUnderWay = true := by simp [hfree]
  by_cases hstop : s.engine.stopped = true
  · -- The flag is seen before anything else.
    have hgain : (s.gain (.write now message)).results = [.error .stopped] := by
      rw [gain_write_of_free hfree, if_pos hstop]
    rw [results_ledger_cons, hgain, if_neg (by simp [hstop])]
    rfl
  · have happly : s.apply (.write now message) = s.startWrite now message := by
      show s.beginWrite now message = _
      unfold beginWrite
      rw [if_neg hbusy, if_neg hstop]
    have hgain : (s.gain (.write now message)).results = [] := by
      rw [gain_write_of_free hfree, if_neg hstop]
    have hstart : (s.apply (.write now message)).Shut := shut_replay hshut [.write now message]
    rw [happly] at hstart
    rw [results_ledger_cons, hgain, happly]
    have hunset : s.engine.stopped = false := Bool.eq_false_iff.mpr hstop
    simp only [hunset, true_and]
    exact result_of_startWrite hstart hlater

end Sender

/-! ## §4. What every later call is told. -/

namespace Sender

variable {σ τ : Type} [Sink σ] [SilenceTimer τ]

/-- **A sender whose worker has ended takes nothing more.**  However the worker ended, from
then on an offer is refused, with or without patience, and leaves the sender as it is;
nothing is accepted, whoever offers; and a write is told that the sender stopped as soon as
it has acted twice.  One write is not: that of a message of no octets, as long as the flag
is not set, which is only behind a crash. -/
theorem ended_sender_refuses (config : Config) (sink : σ) (timer : τ)
    (history later : List (Event σ)) (exit : WorkerExit)
    (hended : ((fresh config sink timer).replay history).worker = .ended exit) :
    let start : Sender σ τ := fresh config sink timer
    let s := start.replay (history ++ later)
    (∀ p, s.offer p = (.closed, s))
      ∧ (∀ patience p, s.offerWithin patience p = (.closed, s))
      ∧ ((start.replay history).ledger later).accepted = []
      ∧ (∀ now message rest, s.writer.isUnderWay = false → [.writeOn, .writeOn].Sublist rest →
          (s.ledger (.write now message :: rest)).results.head?
              = some (if s.engine.stopped = false ∧ message = [] then .ok 0
                else .error .stopped)
            ∧ (s.ledger (.enter now message :: rest)).results.head?
              = some (if message = [] then .ok 0 else .error .stopped))
      ∧ (s.engine.stopped = false → exit = .crashed) := by
  intro start s
  have hgone : (start.replay history).Shut := shut_of_ended config sink timer hended
  have hworker : s.worker = .ended exit := by
    show (start.replay (history ++ later)).worker = _
    rw [replay_append]
    exact ended_replay hended later
  have hshut : s.Shut := shut_of_ended config sink timer hworker
  have hclosed : s.admission = .closed := hshut []
  refine ⟨offer_of_closed hclosed, offerWithin_of_closed hclosed, accepted_of_shut hgone later,
    fun now message rest hfree hrest => ?_, fun hunset => ?_⟩
  · exact ⟨result_of_write hshut hfree now message hrest,
      result_of_enter hshut hfree now message hrest⟩
  · rcases flagged_replay config sink timer (history ++ later) exit (Or.inr hworker) with
      hcrash | hset
    · exact hcrash
    · exact absurd (hunset.symm.trans hset) Bool.false_ne_true

/-- The sink refuses new data, the worker ends of it, and a message of one octet is turned
away. -/
theorem refused_after_failure :
    let start : Sender FaultySink NoTimer := fresh {} { refuseData := true } {}
    let history : List (Event FaultySink) :=
      [.announce { sequence := 0 }, .attempt 0] ++ List.replicate 10 .work
    let s := start.replay history
    s.worker = .ended (.failed .refused)
      ∧ s.offerWithin 3 { sequence := 1 } = (.closed, s)
      ∧ (s.ledger [.write 0 [7], .writeOn, .writeOn]).results.head? = some (.error .stopped) := by
  intro start history s
  have hended : s.worker = .ended (.failed .refused) := by cbv
  have hfree : s.writer.isUnderWay = false := by decide +kernel
  clear_value history
  have hrefuses := ended_sender_refuses {} { refuseData := true } ({} : NoTimer) history [] _ hended
  rw [List.append_nil] at hrefuses
  obtain ⟨-, hoffer, -, hwrite, -⟩ := hrefuses
  obtain ⟨hwritten, -⟩ := hwrite 0 [7] _ hfree (List.Sublist.refl _)
  rw [if_neg (by simp)] at hwritten
  exact ⟨hended, hoffer 3 _, hwritten⟩

/-- Behind a crash a message of no octets is written as if nothing had happened. -/
theorem empty_message_after_crash :
    let start : Sender FaultySink NoTimer := fresh {} { crashOnData := true } {}
    let history : List (Event FaultySink) :=
      [.announce { sequence := 0 }, .attempt 0] ++ List.replicate 8 .work
    let s := start.replay history
    s.worker = .ended .crashed ∧ s.offer { sequence := 1 } = (.closed, s)
      ∧ (s.ledger [.write 0 [], .writeOn, .writeOn]).results.head? = some (.ok 0) := by
  intro start history s
  have hended : s.worker = .ended .crashed := by cbv
  have hfree : s.writer.isUnderWay = false := by decide +kernel
  have hunset : s.engine.stopped = false := by decide +kernel
  clear_value history
  have hshut : s.Shut := shut_of_ended _ _ _ hended
  have hwritten := result_of_write hshut hfree 0 [] (List.Sublist.refl _)
  rw [if_pos ⟨hunset, rfl⟩] at hwritten
  exact ⟨hended, offer_of_closed (hshut []) _, hwritten⟩

end Sender

end ReliableSender
