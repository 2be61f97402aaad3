/-
  ReliableSender.Proofs.Sender.LifeCycle
  ──────────────────────────────────────
  **HOW A WORKER ENDS, AND WHO IS TOLD.**

  The worker looks at the stop flag between two iterations.  So behind the
  flag there is at most the iteration under way, and in an iteration at most
  one packet is tried; whatever else waits is thrown away with the queue.

      WindsDown          — what a sender still does behind the flag
      windsDown_replay   — and that it does no more
      remaining_worker   — asked to stop, the worker ends within ten actions
      stopDuring         — asking the worker to end, and waiting for it
      told_of_ended      — what its end is told to have been
      worker_life_cycle  — all of it, with what the one who waits is told

  What is told was decided by the one fault that a try has met, if there was
  one; `Proofs.Sender.Tried` has found it.
-/
import ReliableSender.Proofs.Engine.NoStall
import ReliableSender.Proofs.Sender.Ended
import ReliableSender.Proofs.Sender.SentOut
import ReliableSender.Proofs.Sender.Tried

namespace ReliableSender

/-! ## §1. The data on the wire. -/

/-- The packet of a try, if it was delivered. -/
def delivered? (a : DataPacket × Except Fault Progress) : Option DataPacket :=
  match a.2 with
  | .ok (.sent _) | .ok (.retransmitted _) => some a.1
  | _ => none

namespace Engine

variable {σ τ : Type}

/-- The data packets that the sink has taken. -/
def dataTaken (e : Engine (Wiretap σ) τ) : List DataPacket := e.sink.taken.filterMap Packet.data?

theorem dataTaken_data {e e' : Engine (Wiretap σ) τ} {p : DataPacket}
    (h : e'.sink.taken = e.sink.taken ++ [.data p]) : e'.dataTaken = e.dataTaken ++ [p] := by
  unfold dataTaken
  rw [h, List.filterMap_append]
  rfl

theorem dataTaken_same {e e' : Engine (Wiretap σ) τ} (h : e'.sink.taken = e.sink.taken) :
    e'.dataTaken = e.dataTaken ++ [] := by
  unfold dataTaken
  rw [h, List.append_nil]

variable [Sink σ]

theorem dataTaken_transmit (e : Engine (Wiretap σ) τ) (p : DataPacket) :
    (e.transmit p).2.dataTaken = e.dataTaken ++ [(p, (e.transmit p).1)].filterMap delivered? := by
  have ht := e.transmits p
  generalize e.transmit p = r at ht ⊢
  cases ht with
  | duplicate => exact dataTaken_same rfl
  | sent _ hout => exact dataTaken_data (Wiretap.taken_of_ok hout)
  | failed _ herror => exact dataTaken_same (Wiretap.taken_of_error herror)

theorem dataTaken_resend (e : Engine (Wiretap σ) τ) (p : DataPacket) :
    (e.resend p).2.dataTaken = e.dataTaken ++ [(p, (e.resend p).1)].filterMap delivered? := by
  have hr := e.resends p
  generalize e.resend p = r at hr ⊢
  cases hr with
  | again hout => exact dataTaken_data (Wiretap.taken_of_ok hout)
  | refused herror | crashes herror => exact dataTaken_same (Wiretap.taken_of_error herror)

variable [SilenceTimer τ]

/-- A signal puts no data on the wire. -/
theorem dataTaken_handle (e : Engine (Wiretap σ) τ) {x : Signal (Wiretap σ)}
    (hx : x.KeepsRecord) : (e.handle x).dataTaken = e.dataTaken ++ [] := by
  have hcontrol : (e.puts (.signal x)).filterMap Packet.data? = [] := by
    show ((e.replied? x).toList.map Packet.control).filterMap _ = []
    cases e.replied? x <;> rfl
  unfold dataTaken
  rw [e.handle_taken hx, List.filterMap_append, hcontrol]

end Engine

namespace Sender

variable {σ τ : Type} [Sink σ] [SilenceTimer τ]

/-- An event puts on the wire what it tries, if that is delivered. -/
theorem dataTaken_apply (s : Sender (Wiretap σ) τ) {ev : Event (Wiretap σ)}
    (hev : ev.KeepsRecord) :
    (s.apply ev).engine.dataTaken
      = s.engine.dataTaken ++ (s.tries ev).filterMap delivered? := by
  rcases s.tries_cases ev with ⟨p, rfl, hw, htries, -⟩ | ⟨hother, htries⟩
  · show s.advanceWorker.engine.dataTaken = _
    rw [advanceWorker_of_resending hw, htries]
    exact s.engine.dataTaken_resend p
  · rw [htries]
    have h := changes s ev
    generalize s.apply ev = s' at h ⊢
    generalize s.gain ev = g at h ⊢
    cases h with
    | @resends p hw => exact absurd hw (hother p rfl)
    | @transmits window p => exact s.engine.dataTaken_transmit p
    | @crashes window p hw hcrash =>
      rw [← hcrash]
      exact s.engine.dataTaken_transmit p
    | signals x => exact s.engine.dataTaken_handle hev
    | _ => exact Engine.dataTaken_same rfl

/-- **The data on the wire is what was tried and delivered, in this order.** -/
theorem dataTaken_replay (s : Sender (Wiretap σ) τ) {later : List (Event (Wiretap σ))}
    (hlater : ∀ ev ∈ later, ev.KeepsRecord) :
    (s.replay later).engine.dataTaken
      = s.engine.dataTaken ++ (s.tried later).filterMap delivered? := by
  unfold tried
  rw [filterMap_gather]
  exact record_foldl (fun s : Sender (Wiretap σ) τ => s.engine.dataTaken)
    (fun ev hev s => s.dataTaken_apply (hlater ev hev)) s

end Sender

/-! ## §2. Behind the stop flag. -/

namespace Worker

/-- Whether an iteration is under way. -/
def isAtWork : Worker → Bool
  | working _ => true
  | _ => false

/-- Whether an iteration is under way that may still try a packet. -/
def mayTry : Worker → Bool
  | working (.settling _ _) | working (.done _) => false
  | working _ => true
  | _ => false

theorem mayTry_of_isEmptyHanded {stage : Stage} (h : stage.isEmptyHanded = true)
    (hgoing : ∀ outcome, stage ≠ .done outcome) : (working stage).mayTry = true := by
  cases stage with
  | done outcome => exact absurd rfl (hgoing outcome)
  | settling => exact absurd h Bool.false_ne_true
  | _ => rfl

/-- Behind an iteration there is none. -/
theorem after_idle (outcome : Except Fault Progress) :
    (after outcome).isAtWork = false ∧ (after outcome).mayTry = false := by
  unfold after
  split <;> exact ⟨rfl, rfl⟩

end Worker

namespace Sender

variable {σ τ : Type} [Sink σ] [SilenceTimer τ]

/-- Behind the flag no iteration begins. -/
theorem idle_changes {s s' : Sender σ τ} {ev : Event σ} {g : Ledger} (h : Changes s ev s' g)
    (hstop : s.engine.stopped = true) (hidle : s.worker.isAtWork = false) :
    s'.worker.isAtWork = false := by
  cases h with
  | starts _ hgoing => exact absurd (hgoing.symm.trans hstop) Bool.false_ne_true
  | leaves | flags | closes => rfl
  | concludes => exact (Worker.after_idle _).1
  | looks hw | resends hw | polls hw | transmits hw | crashes hw | settles hw =>
    rw [hw] at hidle
    exact absurd hidle.symm Bool.false_ne_true
  | _ => exact hidle

/-- Behind the flag a try is the last one. -/
theorem mayTry_apply {s : Sender σ τ} (hstop : s.engine.stopped = true) (ev : Event σ) :
    (s.tries ev).length + (s.apply ev).worker.mayTry.toNat ≤ s.worker.mayTry.toNat := by
  rcases s.tries_cases ev with ⟨p, rfl, hw, htries, -⟩ | ⟨hother, htries⟩
  · show _ + s.advanceWorker.worker.mayTry.toNat ≤ _
    rw [advanceWorker_of_resending hw, htries, hw]
    exact Nat.le_refl 1
  · rw [htries]
    have h := changes s ev
    generalize s.apply ev = s' at h ⊢
    generalize s.gain ev = g at h ⊢
    cases h with
    | starts _ hgoing => exact absurd (hgoing.symm.trans hstop) Bool.false_ne_true
    | @resends p hw => exact absurd hw (hother p rfl)
    | looks hw hbefore hgoing =>
      rw [hw, Worker.mayTry_of_isEmptyHanded hbefore hgoing]
      exact (Nat.zero_add _).trans_le (Bool.toNat_le _)
    | concludes =>
      show 0 + (Worker.after _).mayTry.toNat ≤ _
      rw [(Worker.after_idle _).2]
      exact Nat.zero_le _
    | leaves | flags | closes | settles => exact Nat.zero_le _
    | polls hw | transmits hw | crashes hw =>
      rw [hw]
      exact Nat.le_refl 1
    | _ => exact (Nat.zero_add _).le

/-- Nothing takes the flag back. -/
theorem stopped_replay {s : Sender σ τ} (hstop : s.engine.stopped = true)
    (later : List (Event σ)) : (s.replay later).engine.stopped = true := by
  induction later generalizing s with
  | nil => exact hstop
  | cons ev later ih => exact ih (stopped_changes (changes s ev) hstop)

theorem idle_replay {s : Sender σ τ} (hstop : s.engine.stopped = true)
    (hidle : s.worker.isAtWork = false) (later : List (Event σ)) :
    (s.replay later).worker.isAtWork = false := by
  induction later using List.reverseRecOn with
  | nil => exact hidle
  | append_singleton later ev ih =>
    rw [replay_concat]
    exact idle_changes (changes _ ev) (stopped_replay hstop later) ih

theorem mayTry_replay {s : Sender σ τ} (hstop : s.engine.stopped = true)
    (later : List (Event σ)) :
    (s.tried later).length + (s.replay later).worker.mayTry.toNat ≤ s.worker.mayTry.toNat := by
  induction later using List.reverseRecOn with
  | nil => exact (Nat.zero_add _).le
  | append_singleton later ev ih =>
    have hlast := mayTry_apply (stopped_replay hstop later) ev
    rw [tried_concat, replay_concat, List.length_append]
    omega

/-- From one moment to a later one packets keep their order: what was held, waited or came in
since then has been attempted, is held, was thrown away or waits. -/
theorem order_later (config : Config) (sink : σ) (timer : τ) (history later : List (Event σ)) :
    let s : Sender σ τ := (fresh config sink timer).replay history
    let s' := s.replay later
    let g := s.ledger later
    s.worker.held ++ s.queue.waiting ++ g.accepted
      = g.attempted.map Prod.fst ++ s'.worker.held ++ g.discarded ++ s'.queue.waiting := by
  intro s s' g
  have hnow : s.places.Consistent ((fresh config sink timer).ledger history) :=
    consistent_replay config sink timer history
  have hlater := consistent_replay config sink timer (history ++ later)
  rw [replay_append, ledger_append] at hlater
  generalize (fresh config sink timer).ledger history = l at hnow hlater
  have hfifo : l.accepted
      = l.attempted.map Prod.fst ++ s.worker.held ++ l.discarded ++ s.queue.waiting := hnow.fifo
  have hfifo' : l.accepted ++ g.accepted
      = (l.attempted ++ g.attempted).map Prod.fst ++ s'.worker.held
        ++ (l.discarded ++ g.discarded) ++ s'.queue.waiting := hlater.fifo
  by_cases hended : ∃ exit, s.worker = .ended exit
  · -- Behind the end nothing comes in any more, and nothing was left.
    obtain ⟨exit, hworker⟩ := hended
    have hheld : s.worker.held = [] := by rw [hworker]; rfl
    have hwaiting : s.queue.waiting = [] :=
      hnow.emptied (show s.worker.hasEnded = true by rw [hworker]; rfl)
    have haccepted : g.accepted = [] :=
      accepted_of_shut (shut_of_ended config sink timer hworker) later
    rw [haccepted, List.append_nil, hfifo] at hfifo'
    have hlength := congrArg List.length hfifo'
    rw [hheld, hwaiting, haccepted]
    refine (List.length_eq_zero_iff.mp ?_).symm
    simp only [List.map_append, List.length_append, List.length_map, hheld, hwaiting,
      List.length_nil] at hlength ⊢
    omega
  · -- Before it nothing has been thrown away.
    have hkept : l.discarded = [] := hnow.kept (by
      show s.worker.hasEnded = false
      cases hworker : s.worker with
      | ended exit => exact absurd ⟨exit, hworker⟩ hended
      | _ => rfl)
    rw [hfifo, hkept, List.map_append] at hfifo'
    simp only [List.append_assoc, List.nil_append] at hfifo' ⊢
    exact List.append_cancel_left hfifo'

end Sender

/-- What a sender still does behind the stop flag. -/
structure Sender.WindsDown {σ τ : Type} [Sink σ] [SilenceTimer τ] (s : Sender (Wiretap σ) τ)
    (later : List (Sender.Event (Wiretap σ))) : Prop where
  /-- No iteration begins; one that is under way may go on. -/
  idle : s.worker.isAtWork = false → (s.replay later).worker.isAtWork = false
  /-- At most one packet is tried, and only by an iteration that was under way. -/
  once : (s.tried later).length ≤ s.worker.mayTry.toNat
  /-- No data comes to the wire but this packet. -/
  wire : (∀ ev ∈ later, ev.KeepsRecord) →
    (s.replay later).engine.dataTaken
      = s.engine.dataTaken ++ (s.tried later).filterMap delivered?
  /-- New data is attempted by this try or not at all, -/
  attempts : (s.ledger later).attempted.Sublist (s.tried later)
  /-- so that the others that were or come into the queue are held, thrown away or wait. -/
  order : s.worker.held ++ s.queue.waiting ++ (s.ledger later).accepted
    = (s.ledger later).attempted.map Prod.fst ++ (s.replay later).worker.held
      ++ (s.ledger later).discarded ++ (s.replay later).queue.waiting

namespace Sender

variable {σ τ : Type} [Sink σ] [SilenceTimer τ]

/-- **Behind the flag a sender only winds down.** -/
theorem windsDown_replay (config : Config) (sink : Wiretap σ) (timer : τ)
    (history later : List (Event (Wiretap σ)))
    (hstop : ((fresh config sink timer).replay history).engine.stopped = true) :
    ((fresh config sink timer).replay history).WindsDown later where
  idle := fun hidle => idle_replay hstop hidle later
  once := (Nat.le_add_right _ _).trans (mayTry_replay hstop later)
  wire := dataTaken_replay _
  attempts := attempted_sublist_tried _ later
  order := order_later config sink timer history later

end Sender

/-! ## §3. Stopping. -/

/-- Most actions that a worker still takes when it has been asked to stop. -/
def Worker.remaining : Worker → Nat
  | working stage => stage.remaining + 4
  | ready => 3
  | leaving _ => 2
  | closing _ => 1
  | ended _ => 0

theorem Worker.remaining_after (outcome : Except Fault Progress) :
    (after outcome).remaining ≤ 3 := by
  unfold after
  split <;> simp [remaining]

theorem Worker.remaining_le (w : Worker) : w.remaining ≤ 10 := by
  cases w with
  | working stage => exact Nat.add_le_add_right stage.remaining_le 4
  | _ => simp [remaining]

theorem Worker.exists_ended {w : Worker} (h : w.remaining = 0) : ∃ exit, w = ended exit := by
  cases w with
  | ended exit => exact ⟨exit, rfl⟩
  | _ => exact absurd h (by simp [remaining])

/-- Whether an event is the worker's. -/
def Sender.Event.isWork {σ : Type} : Sender.Event σ → Bool
  | .work => true
  | _ => false

namespace Sender

variable {σ τ : Type} [Sink σ] [SilenceTimer τ]

/-- Ask the worker to end, let this happen in the meantime, and learn how it ended; nothing if
it still runs then. -/
def stopDuring (s : Sender σ τ) (meanwhile : List (Event σ)) :
    Option (Except SenderError Unit × Sender σ τ) :=
  (s.requestStop.replay meanwhile).join?

/-- Nobody but the worker moves it. -/
theorem worker_changes {s s' : Sender σ τ} {ev : Event σ} {g : Ledger} (h : Changes s ev s' g)
    (hev : ev.isWork = false) : s'.worker = s.worker := by
  cases h with
  | starts | leaves | looks | resends | polls | transmits | crashes | settles | concludes | flags
  | closes => exact absurd hev.symm Bool.false_ne_true
  | _ => rfl

omit [SilenceTimer τ] in
/-- Asked to stop, every action of the worker brings it nearer to its end. -/
theorem remaining_advanceWorker {s : Sender σ τ} (hstop : s.engine.stopped = true) :
    s.advanceWorker.worker.remaining ≤ s.worker.remaining - 1 := by
  cases hw : s.worker with
  | ready =>
    unfold advanceWorker
    rw [hw, hstop]
    exact Nat.le_refl 2
  | leaving | closing =>
    unfold advanceWorker
    rw [hw]
    exact Nat.le_refl _
  | ended =>
    have hrests : s.advanceWorker = s := by
      unfold advanceWorker
      rw [hw]
    rw [hrests, hw]
    exact Nat.le_refl 0
  | working stage =>
    by_cases hdone : ∃ outcome, stage = .done outcome
    · obtain ⟨outcome, rfl⟩ := hdone
      unfold advanceWorker
      rw [hw]
      exact Worker.remaining_after outcome
    · rw [advanceWorker_working hw fun outcome he => hdone ⟨outcome, he⟩]
      have hless :=
        Iteration.remaining_advance { engine := s.engine, queue := s.queue, stage }
      generalize Iteration.advance { engine := s.engine, queue := s.queue, stage } = i at hless ⊢
      have hsome : stage.remaining ≠ 0 := fun hzero => hdone (Stage.exists_done hzero)
      show i.stage.remaining + 4 ≤ stage.remaining + 4 - 1
      replace hless : i.stage.remaining ≤ stage.remaining - 1 := hless
      omega

theorem remaining_replay {s : Sender σ τ} (hstop : s.engine.stopped = true)
    (later : List (Event σ)) :
    (s.replay later).worker.remaining ≤ s.worker.remaining - later.countP Event.isWork := by
  induction later using List.reverseRecOn with
  | nil => exact Nat.le_refl _
  | append_singleton later ev ih =>
    rw [replay_concat, List.countP_append, List.countP_singleton]
    cases hev : ev.isWork with
    | false =>
      rw [worker_changes (changes _ ev) hev]
      simpa using ih
    | true =>
      obtain rfl : ev = .work := by
        cases ev with
        | work => rfl
        | _ => exact absurd hev Bool.false_ne_true
      have hless := remaining_advanceWorker (stopped_replay hstop later)
      show (s.replay later).advanceWorker.worker.remaining ≤ _
      rw [if_pos rfl]
      omega

/-- **Asked to stop, the worker ends within ten actions.** -/
theorem ended_of_work {s : Sender σ τ} (hstop : s.engine.stopped = true) {later : List (Event σ)}
    (hwork : 10 ≤ later.countP Event.isWork) : ∃ exit, (s.replay later).worker = .ended exit := by
  have hfew := remaining_replay hstop later
  have hmost := s.worker.remaining_le
  exact Worker.exists_ended (by omega)

omit [Sink σ] [SilenceTimer τ] in
/-- Whoever waits is told how the worker ended, unless somebody has been told before. -/
theorem join?_eq_some {s s' : Sender σ τ} {result : Except SenderError Unit}
    (h : s.join? = some (result, s')) :
    s' = { s with joined := true } ∧
      (s.joined = true ∧ result = .ok ()
        ∨ s.joined = false ∧ ∃ exit, s.worker = .ended exit ∧ result = exit.result) := by
  unfold join? at h
  by_cases hjoined : s.joined = true
  · rw [if_pos hjoined] at h
    obtain ⟨rfl, rfl⟩ := Prod.mk.inj (Option.some.inj h)
    refine ⟨?_, Or.inl ⟨hjoined, rfl⟩⟩
    rw [← hjoined]
  · rw [if_neg hjoined] at h
    split at h
    · rename_i exit hworker
      obtain ⟨rfl, rfl⟩ := Prod.mk.inj (Option.some.inj h)
      exact ⟨rfl, Or.inr ⟨Bool.eq_false_iff.mpr hjoined, exit, hworker, rfl⟩⟩
    · cases h

omit [Sink σ] [SilenceTimer τ] in
/-- There is nothing to wait for behind the end of the worker. -/
theorem join?_isSome_of_ended {s : Sender σ τ} {exit : WorkerExit} (h : s.worker = .ended exit) :
    s.join?.isSome = true := by
  unfold join?
  by_cases hjoined : s.joined = true
  · rw [if_pos hjoined]
    rfl
  · rw [if_neg hjoined, h]
    rfl

theorem joined_changes {s s' : Sender σ τ} {ev : Event σ} {g : Ledger} (h : Changes s ev s' g)
    (hjoined : s.joined = true) : s'.joined = true := by
  cases h with
  | joins => rfl
  | _ => exact hjoined

theorem joined_replay {s : Sender σ τ} (hjoined : s.joined = true) (later : List (Event σ)) :
    (s.replay later).joined = true := by
  induction later generalizing s with
  | nil => exact hjoined
  | cons ev later ih => exact ih (joined_changes (changes s ev) hjoined)

omit [Sink σ] [SilenceTimer τ] in
/-- The flag is set once. -/
theorem requestStop_of_stopped {s : Sender σ τ} (hstop : s.engine.stopped = true) :
    s.requestStop = s := by
  have hengine : s.engine.requestStop = s.engine := by
    unfold Engine.requestStop
    rw [← hstop]
  show { s with engine := s.engine.requestStop } = s
  rw [hengine]

/-- Where somebody has been told and the flag is set, stopping does nothing more. -/
theorem stopDuring_of_joined {s : Sender σ τ} (hstop : s.engine.stopped = true)
    (hjoined : s.joined = true) (meanwhile : List (Event σ)) :
    s.stopDuring meanwhile = some (.ok (), s.replay meanwhile) := by
  unfold stopDuring join?
  rw [requestStop_of_stopped hstop, if_pos (joined_replay hjoined meanwhile)]

end Sender

/-! ## §4. What is told. -/

/-- The three things that can be told of a fault. -/
theorem WorkerExit.result_eq_iff (exit : WorkerExit) :
    (∀ cause, exit.result = .error (.transmission cause)
        ↔ exit.fault? = some (.transport cause))
      ∧ (exit.result = .error .crashed ↔ exit.fault? = some .crash)
      ∧ (exit.result = .ok () ↔ exit.fault? = none) := by
  cases exit <;> simp [result, fault?]

namespace Sender

variable {σ τ : Type} [Sink σ] [SilenceTimer τ]

/-- **What is told of a worker that has ended** was decided by its tries: the refusal of new
data, or the crash, or neither. -/
theorem told_of_ended (config : Config) (sink : σ) (timer : τ) (whole : List (Event σ))
    {exit : WorkerExit} :
    let start : Sender σ τ := fresh config sink timer
    let l := start.ledger whole
    (start.replay whole).worker = .ended exit →
      (∀ cause, exit.result = .error (.transmission cause)
          ↔ ∃ p, (p, .error (.transport cause)) ∈ l.attempted)
        ∧ (exit.result = .error .crashed ↔ ∃ p, (p, .error .crash) ∈ start.tried whole)
        ∧ (exit.result = .ok ()
          ↔ (∀ p cause, (p, .error (.transport cause)) ∉ l.attempted)
            ∧ ∀ p, (p, .error .crash) ∉ start.tried whole) := by
  intro start l hended
  have hfault : ∀ fault, exit.fault? = some fault
      ↔ ∃ p, (p, .error fault) ∈ start.tried whole := by
    intro fault
    have hmet : (start.replay whole).worker.fault? = some fault
        ↔ ∃ p, (p, .error fault) ∈ start.tried whole :=
      fault_iff config sink timer whole fault
    rw [hended] at hmet
    exact hmet
  -- Only new data ends a worker by being refused.
  have hrefused : ∀ cause, (∃ p, (p, .error (.transport cause)) ∈ start.tried whole)
      ↔ ∃ p, (p, .error (.transport cause)) ∈ l.attempted := fun cause =>
    exists_congr fun p =>
      ⟨mem_attempted_of_refused, fun hp => (attempted_sublist_tried start whole).subset hp⟩
  obtain ⟨htransmission, hcrashed, hok⟩ := exit.result_eq_iff
  refine ⟨fun cause => ?_, ?_, ?_⟩
  · rw [htransmission, hfault, hrefused]
  · rw [hcrashed, hfault]
  · rw [hok, Option.eq_none_iff_forall_ne_some]
    constructor
    · intro hnone
      exact ⟨fun p cause hp => hnone _ ((hfault _).mpr ((hrefused cause).mpr ⟨p, hp⟩)),
        fun p hp => hnone _ ((hfault _).mpr ⟨p, hp⟩)⟩
    · rintro ⟨hnew, hcrash⟩ fault hsome
      obtain ⟨p, hp⟩ := (hfault fault).mp hsome
      cases fault with
      | transport cause =>
        obtain ⟨q, hq⟩ := (hrefused cause).mp ⟨p, hp⟩
        exact hnew q cause hq
      | crash => exact hcrash p hp

/-- **The life cycle of a worker.**  Behind the stop flag no iteration begins, at most one more
packet is tried, and only what is tried can come to the wire; the rest of the queue is never
transmitted.  A worker that has ended and did not crash has set the flag.  Who stops a sender
gets an answer as soon as the worker has acted ten times.  The first is told of the refusal of
new data if there was one, of the crash if there was one, and otherwise that all is well; every
later one is told that all is well and changes nothing. -/
theorem worker_life_cycle (config : Config) (sink : σ) (timer : τ)
    (history : List (Event (Wiretap σ))) :
    let start : Sender (Wiretap σ) τ := fresh config { sink } timer
    let s := start.replay history
    (s.engine.stopped = true → ∀ later, s.WindsDown later)
      ∧ (∀ exit, s.worker = .ended exit → exit ≠ .crashed → s.engine.stopped = true)
      ∧ (∀ meanwhile, 10 ≤ meanwhile.countP Event.isWork →
          (s.stopDuring meanwhile).isSome = true)
      ∧ ∀ meanwhile result s', s.stopDuring meanwhile = some (result, s') →
          let whole := history ++ .signal .requestStop :: meanwhile
          let l := start.ledger whole
          ((start.replay whole).joined = false →
            (∀ cause, result = .error (.transmission cause)
                ↔ ∃ p, (p, .error (.transport cause)) ∈ l.attempted)
              ∧ (result = .error .crashed ↔ ∃ p, (p, .error .crash) ∈ start.tried whole)
              ∧ (result = .ok ()
                ↔ (∀ p cause, (p, .error (.transport cause)) ∉ l.attempted)
                  ∧ ∀ p, (p, .error .crash) ∉ start.tried whole))
            ∧ ∀ later, (s'.replay later).requestStop = s'.replay later
              ∧ ∀ meanwhile', (s'.replay later).stopDuring meanwhile'
                = some (.ok (), (s'.replay later).replay meanwhile') := by
  intro start s
  refine ⟨fun hstop later => windsDown_replay config { sink } timer history later hstop,
    fun exit hended hexit => ?_, fun meanwhile hwork => ?_, fun meanwhile result s' hresult => ?_⟩
  · exact (flagged_replay config { sink } timer history exit (Or.inr hended)).resolve_left hexit
  · obtain ⟨exit, hended⟩ := ended_of_work (s := s.requestStop) rfl hwork
    exact join?_isSome_of_ended hended
  · have hwhole : start.replay (history ++ .signal .requestStop :: meanwhile)
        = s.requestStop.replay meanwhile := replay_append start history _
    have hstop : (s.requestStop.replay meanwhile).engine.stopped = true :=
      stopped_replay rfl meanwhile
    unfold stopDuring at hresult
    rw [← hwhole] at hresult hstop
    intro whole l
    obtain ⟨rfl, hcases⟩ := join?_eq_some hresult
    refine ⟨fun hfirst => ?_, fun later => ?_⟩
    · rcases hcases with ⟨hjoined, -⟩ | ⟨-, exit, hended, rfl⟩
      · exact absurd (hfirst.symm.trans hjoined) Bool.false_ne_true
      exact told_of_ended config { sink } timer whole hended
    · have hstop' := stopped_replay (s := { start.replay whole with joined := true }) hstop later
      have hjoined' := joined_replay (s := { start.replay whole with joined := true }) rfl later
      exact ⟨requestStop_of_stopped hstop', stopDuring_of_joined hstop' hjoined'⟩

/-- Three packets are accepted.  The first is sent; the peer reports it lost, and neither it nor
the answer to an acknowledgment can be sent then.  The stop flag is set when the second packet is
at hand: it is the last one sent, the third is thrown away, and whoever stops the sender hears
that all is well. -/
theorem stopped_with_packet_at_hand :
    let p (n : Nat) : DataPacket := { sequence := n }
    let refuse (flag : Bool) : Event (Wiretap FaultySink) :=
      .signal (.modifySink fun w => { w with sink := { w.sink with refuseData := flag } })
    let works (n : Nat) : List (Event (Wiretap FaultySink)) := List.replicate n .work
    let offered : List (Event (Wiretap FaultySink)) :=
      [.announce (p 0), .announce (p 1), .announce (p 2), .attempt 0, .attempt 0, .attempt 0]
    let reported : List (Event (Wiretap FaultySink)) :=
      [.signal (.negativeAcknowledge 0 [0]), .signal (.acknowledge 0 0), refuse true]
    let start : Sender (Wiretap FaultySink) NoTimer :=
      fresh {} { sink := { refuseControl := true } } {}
    let history := offered ++ works 8 ++ reported ++ works 6 ++ refuse false :: works 5
      ++ [.signal .requestStop]
    let s := start.replay history
    let later := works 10
    s.engine.stopped = true ∧ s.worker.held = [p 1]
      ∧ start.tried history = [(p 0, .ok (.sent 0)), (p 0, .ok (.retransmitFailed 0))]
      ∧ (s.tried later).length ≤ 1 ∧ (s.replay later).engine.dataTaken = [p 0, p 1]
      ∧ (s.ledger later).discarded = [p 2] ∧ (start.replay (history ++ later)).engine.stopped = true
      ∧ ∃ s', s.stopDuring later = some (.ok (), s') ∧ s'.stopDuring [] = some (.ok (), s') := by
  intro p refuse works offered reported start history s later
  have hstop : s.engine.stopped = true := by decide +kernel
  have hheld : s.worker.held = [p 1] := by decide +kernel
  have hmay : s.worker.mayTry = true := by decide +kernel
  have htried : start.tried history
      = [(p 0, .ok (.sent 0)), (p 0, .ok (.retransmitFailed 0))] := by cbv
  have htried' : s.tried later = [(p 1, .ok (.sent 1))] := by cbv
  have htaken : s.engine.dataTaken = [p 0] := by decide +kernel
  have hdiscarded : (s.ledger later).discarded = [p 2] := by decide +kernel
  have hwork : 10 ≤ later.countP Event.isWork := by decide
  have hkeeps : ∀ ev ∈ later, ev.KeepsRecord := by
    intro ev hev
    obtain rfl := List.eq_of_mem_replicate hev
    trivial
  have hended : (start.replay (history ++ later)).worker = .ended .finished := by cbv
  have hfirst : (start.replay (history ++ .signal .requestStop :: later)).joined = false := by
    decide +kernel
  have hattempted : (start.ledger (history ++ .signal .requestStop :: later)).attempted
      = [(p 0, .ok (.sent 0)), (p 1, .ok (.sent 1))] := by cbv
  have hall : start.tried (history ++ .signal .requestStop :: later)
      = [(p 0, .ok (.sent 0)), (p 0, .ok (.retransmitFailed 0)), (p 1, .ok (.sent 1))] := by cbv
  clear_value history later
  obtain ⟨hflag, -, hreturns, htold⟩ :=
    worker_life_cycle {} { refuseControl := true } ({} : NoTimer) history
  obtain ⟨-, hset, -⟩ :=
    worker_life_cycle {} { refuseControl := true } ({} : NoTimer) (history ++ later)
  have hdown := hflag hstop later
  obtain ⟨⟨result, s'⟩, hanswer⟩ := Option.isSome_iff_exists.mp (hreturns later hwork)
  obtain ⟨hnow, hafter⟩ := htold later result s' hanswer
  obtain ⟨-, -, hok⟩ := hnow hfirst
  rw [hattempted, hall] at hok
  obtain rfl := hok.mpr ⟨by simp, by simp⟩
  refine ⟨hstop, hheld, htried, ?_, ?_, hdiscarded, hset _ hended (by simp), s', hanswer,
    (hafter []).2 []⟩
  · have honce := hdown.once
    rw [hmay] at honce
    exact honce
  · rw [hdown.wire hkeeps, htaken, htried']
    rfl

end Sender

end ReliableSender
