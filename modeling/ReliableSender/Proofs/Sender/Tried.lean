/-
  ReliableSender.Proofs.Sender.Tried
  ──────────────────────────────────
  **WHAT THE WORKER TRIES TO SEND, AND WHAT IT ENDS OF.**

  The worker hands data to the sink at two points of an iteration: where it
  transmits new data, and where it sends a lost packet again.  The ledger
  knows of the first only; here both are looked at together.

      tried           — all that was tried in a history, with what came of it
      fault_replay    — the faults of all that was tried, and the one fault that
                        the worker ends of, are the same
      mem_attempted_of_refused — what the sink refuses counts as new data only

  Behind a fault nothing more is tried.  That is why no history has two
  faults, and why the one it has decides how the worker ends.
-/
import ReliableSender.Proofs.Chronicle
import ReliableSender.Proofs.Sender.Ledger

namespace ReliableSender

/-! ## §1. What is tried. -/

namespace Sender

variable {σ τ : Type} [Sink σ]

/-- The packet that the worker's next action tries to send, and what comes of it. -/
def nextTry (s : Sender σ τ) : List (DataPacket × Except Fault Progress) :=
  match s.worker with
  | .working (.holding _ p) => [(p, (s.engine.transmit p).1)]
  | .working (.resending p) => [(p, (s.engine.resend p).1)]
  | _ => []

/-- What an event tries to send, and what comes of it. -/
def tries (s : Sender σ τ) : Event σ → List (DataPacket × Except Fault Progress)
  | .work => s.nextTry
  | _ => []

/-- The action that sends a packet again. -/
theorem advanceWorker_of_resending {s : Sender σ τ} {p : DataPacket}
    (h : s.worker = .working (.resending p)) :
    s.advanceWorker = { s with
      engine := (s.engine.resend p).2
      worker := .working (.done (s.engine.resend p).1) } := by
  rw [advanceWorker_working h fun outcome => by simp]
  rfl

variable [SilenceTimer τ]

/-- A history tries what its events try. -/
def tried (s : Sender σ τ) (history : List (Event σ)) :
    List (DataPacket × Except Fault Progress) :=
  gather apply tries s history

theorem tried_concat (s : Sender σ τ) (history : List (Event σ)) (ev : Event σ) :
    s.tried (history ++ [ev]) = s.tried history ++ (s.replay history).tries ev :=
  gather_concat apply tries s history ev

/-- Nobody but the worker attempts anything. -/
theorem attempted_of_changes {s s' : Sender σ τ} {ev : Event σ} {g : Ledger}
    (h : Changes s ev s' g) (hev : ev ≠ .work) : g.attempted = [] := by
  cases h with
  | transmits | crashes => exact absurd rfl hev
  | _ => rfl

/-- What an event tries is a packet sent again, or new data. -/
theorem tries_cases (s : Sender σ τ) (ev : Event σ) :
    (∃ p, ev = .work ∧ s.worker = .working (.resending p)
        ∧ s.tries ev = [(p, (s.engine.resend p).1)] ∧ (s.gain ev).attempted = [])
      ∨ (∀ p, ev = .work → s.worker ≠ .working (.resending p))
        ∧ s.tries ev = (s.gain ev).attempted := by
  cases ev with
  | work =>
    show (∃ p, Event.work = Event.work ∧ s.worker = .working (.resending p)
      ∧ s.nextTry = [(p, (s.engine.resend p).1)] ∧ (s.gain .work).attempted = [])
      ∨ (∀ p, Event.work = Event.work → s.worker ≠ .working (.resending p))
        ∧ s.nextTry = (s.gain .work).attempted
    unfold nextTry gain
    cases s.worker with
    | working stage =>
      cases stage with
      | resending p => exact Or.inl ⟨p, rfl, rfl, rfl, rfl⟩
      | _ => exact Or.inr ⟨by simp, rfl⟩
    | _ => exact Or.inr ⟨by simp, rfl⟩
  | _ => exact Or.inr ⟨by simp, (attempted_of_changes (changes s _) (by simp)).symm⟩

/-- What is attempted as new data is tried. -/
theorem attempted_sublist_tried (s : Sender σ τ) (history : List (Event σ)) :
    (s.ledger history).attempted.Sublist (s.tried history) := by
  induction history using List.reverseRecOn with
  | nil => exact List.Sublist.refl _
  | append_singleton history ev ih =>
    rw [ledger_concat, tried_concat]
    refine ih.append ?_
    rcases (s.replay history).tries_cases ev with ⟨p, -, -, htries, hnone⟩ | ⟨-, htries⟩
    · rw [hnone]
      exact List.nil_sublist _
    · rw [htries]

/-- A packet that cannot be sent again is given up, so a refusal is one of new data. -/
theorem mem_attempted_of_refused {s : Sender σ τ} {history : List (Event σ)} {p : DataPacket}
    {cause : TransportError} (h : (p, .error (.transport cause)) ∈ s.tried history) :
    (p, .error (.transport cause)) ∈ (s.ledger history).attempted := by
  induction history using List.reverseRecOn with
  | nil => exact absurd h List.not_mem_nil
  | append_singleton history ev ih =>
    rw [tried_concat, List.mem_append] at h
    rw [ledger_concat]
    refine List.mem_append.mpr (h.imp ih fun hlast => ?_)
    rcases (s.replay history).tries_cases ev with ⟨q, -, -, htries, -⟩ | ⟨-, htries⟩
    · rw [htries, List.mem_singleton] at hlast
      have hr := (s.replay history).engine.resends q
      generalize (s.replay history).engine.resend q = r at hr hlast
      cases hr <;> cases hlast
    · rw [← htries]
      exact hlast

end Sender

/-! ## §2. What a worker ends of. -/

/-- The fault that a try has met. -/
def faultOf? (a : DataPacket × Except Fault Progress) : Option Fault :=
  match a.2 with
  | .ok _ => none
  | .error fault => some fault

theorem faults_singleton (a : DataPacket × Except Fault Progress) :
    [a].filterMap faultOf? = (faultOf? a).toList := by
  rw [List.filterMap_cons]
  cases faultOf? a <;> rfl

theorem faultOf?_eq_some_iff {a : DataPacket × Except Fault Progress} {fault : Fault} :
    faultOf? a = some fault ↔ a.2 = .error fault := by
  unfold faultOf?
  cases a.2 <;> simp

/-- The fault that a worker ended of. -/
def WorkerExit.fault? : WorkerExit → Option Fault
  | finished => none
  | failed cause => some (.transport cause)
  | crashed => some .crash

namespace Worker

/-- The fault that a worker ends of, from the try that has met it to the end. -/
def fault? : Worker → Option Fault
  | working (.settling _ (.error fault)) | working (.done (.error fault)) => some fault
  | leaving exit | closing exit | ended exit => exit.fault?
  | _ => none

theorem fault?_settling (window : Nat) (p : DataPacket) (outcome : Except Fault Progress) :
    (working (.settling window outcome)).fault? = faultOf? (p, outcome) := by
  cases outcome <;> rfl

theorem fault?_done (p : DataPacket) (outcome : Except Fault Progress) :
    (working (.done outcome)).fault? = faultOf? (p, outcome) := by
  cases outcome <;> rfl

/-- Before anything is tried there is no fault. -/
theorem fault?_of_isEmptyHanded {stage : Stage} (h : stage.isEmptyHanded = true)
    (hfaultless : ∀ fault, stage ≠ .done (.error fault)) : (working stage).fault? = none := by
  cases stage with
  | holding | settling => exact absurd h Bool.false_ne_true
  | done outcome =>
    cases outcome with
    | ok => rfl
    | error fault => exact absurd rfl (hfaultless fault)
  | _ => rfl

/-- An iteration hands its fault on. -/
theorem fault?_after (outcome : Except Fault Progress) :
    (after outcome).fault? = (working (.done outcome)).fault? := by
  rcases outcome with (cause | _) | progress
  · rfl
  · rfl
  · cases progress <;> rfl

end Worker

namespace Sender

variable {σ τ : Type} [Sink σ] [SilenceTimer τ]

/-- A worker gets its fault from what it tries, and keeps it. -/
theorem fault_apply (s : Sender σ τ) (ev : Event σ) :
    (s.apply ev).worker.fault?.toList
      = s.worker.fault?.toList ++ (s.tries ev).filterMap faultOf? := by
  rcases s.tries_cases ev with ⟨p, rfl, hw, htries, -⟩ | ⟨hother, htries⟩
  · show s.advanceWorker.worker.fault?.toList = _
    rw [advanceWorker_of_resending hw, htries, hw, faults_singleton]
    exact congrArg Option.toList (Worker.fault?_done p _)
  · rw [htries]
    have h := changes s ev
    generalize s.apply ev = s' at h ⊢
    generalize s.gain ev = g at h ⊢
    cases h with
    | starts hw | leaves hw | polls hw =>
      rw [hw]
      rfl
    | @looks stage stage' _ _ hw hbefore hgoing hafter _ hfaultless =>
      rw [hw, Worker.fault?_of_isEmptyHanded hbefore fun fault => hgoing _]
      exact congrArg Option.toList (Worker.fault?_of_isEmptyHanded hafter hfaultless)
    | @resends p hw => exact absurd hw (hother p rfl)
    | @transmits window p hw =>
      rw [hw, faults_singleton]
      exact congrArg Option.toList (Worker.fault?_settling window p _)
    | crashes hw =>
      rw [hw]
      rfl
    | @settles window outcome hw =>
      rw [hw]
      cases outcome <;> rfl
    | @concludes outcome hw =>
      rw [hw]
      exact (congrArg Option.toList (Worker.fault?_after outcome)).trans (List.append_nil _).symm
    | flags hw | closes hw =>
      rw [hw]
      exact (List.append_nil _).symm
    | _ => exact (List.append_nil _).symm

/-- **What a worker ends of is the one fault that its tries have met.** -/
theorem fault_replay (config : Config) (sink : σ) (timer : τ) (history : List (Event σ)) :
    let start : Sender σ τ := fresh config sink timer
    (start.replay history).worker.fault?.toList = (start.tried history).filterMap faultOf? := by
  intro start
  have hrecord := record_foldl (fun s : Sender σ τ => s.worker.fault?.toList)
    (h := history) (fun ev _ s => s.fault_apply ev) start
  unfold tried
  rw [filterMap_gather]
  exact hrecord.trans (List.nil_append _)

/-- A worker ends of a fault exactly if something that was tried has met it. -/
theorem fault_iff (config : Config) (sink : σ) (timer : τ) (history : List (Event σ))
    (fault : Fault) :
    let start : Sender σ τ := fresh config sink timer
    (start.replay history).worker.fault? = some fault
      ↔ ∃ p, (p, .error fault) ∈ start.tried history := by
  intro start
  rw [← Option.mem_toList, fault_replay config sink timer history,
    List.mem_filterMap]
  constructor
  · rintro ⟨⟨p, outcome⟩, ha, hfault⟩
    obtain rfl := faultOf?_eq_some_iff.mp hfault
    exact ⟨p, ha⟩
  · rintro ⟨p, hp⟩
    exact ⟨_, hp, rfl⟩

end Sender

end ReliableSender
