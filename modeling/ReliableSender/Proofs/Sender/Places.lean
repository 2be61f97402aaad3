/-
  ReliableSender.Proofs.Sender.Places
  ───────────────────────────────────
  **WHERE THE PACKETS ARE.**

  A packet is announced, waits in the queue, is held by the worker, is
  attempted, and is handled; with a crash it is never handled, and with the
  end of the worker it is discarded.  `Places` keeps of a sender only this,
  with the count of pending packets beside it, and `Moves` lists the nine
  ways in which packets move.

      fifo     — packets are attempted in the order in which they were accepted
      pending  — the count is the number of packets in the places before the last
      bounded  — the queue never holds more than it has room for

  How a write or an iteration goes about it does not matter here: `moves`
  is the only lemma that looks at the sender itself.
-/
import ReliableSender.Proofs.IngressQueue
import ReliableSender.Proofs.Sender.Ledger

namespace ReliableSender

/-! ## §1. Places. -/

namespace Worker

/-- The packet that was taken out of the queue and not attempted yet. -/
def held : Worker → List DataPacket
  | working (.holding _ p) => [p]
  | _ => []

/-- Whether a packet was attempted of which the queue has not been told. -/
def isSettling : Worker → Bool
  | working (.settling _ _) => true
  | _ => false

theorem held_of_isEmptyHanded {stage : Stage} (h : stage.isEmptyHanded = true) :
    (working stage).held = [] := by
  cases stage with
  | holding | settling => exact absurd h Bool.false_ne_true
  | _ => rfl

theorem isSettling_of_isEmptyHanded {stage : Stage} (h : stage.isEmptyHanded = true) :
    (working stage).isSettling = false := by
  cases stage with
  | holding | settling => exact absurd h Bool.false_ne_true
  | _ => rfl

/-- Behind an iteration there is nothing in the worker's hands. -/
theorem after_places (outcome : Except Fault Progress) :
    (after outcome).held = [] ∧ (after outcome).isSettling = false
      ∧ (after outcome).hasEnded = false := by
  unfold after
  split <;> exact ⟨rfl, rfl, rfl⟩

end Worker

/-- The packet that a write has announced and that is not in the queue. -/
def Writer.offered : Writer → List DataPacket
  | waiting _ p _ => [p]
  | _ => []

theorem Writer.offered_of_free {w : Writer} (h : w.isUnderWay = false) : w.offered = [] := by
  cases w with
  | waiting => exact absurd h.symm Bool.false_ne_true
  | _ => rfl

/-- The places in which packets are. -/
structure Places where
  capacity : Nat
  announced : Nat
  waiting : List DataPacket
  held : List DataPacket
  settling : Bool
  pending : UInt64
  consumed : Bool
  ended : Bool

/-- The places of a sender. -/
def Sender.places {σ τ : Type} (s : Sender σ τ) : Places where
  capacity := s.queue.capacity
  announced := s.offers.length + s.writer.offered.length
  waiting := s.queue.waiting
  held := s.worker.held
  settling := s.worker.isSettling
  pending := s.queue.pending
  consumed := s.queue.consumed
  ended := s.worker.hasEnded

namespace Places

/-! ## §2. Moves. -/

/-- The ways in which packets move, with what each puts on the ledger. -/
inductive Moves (v : Places) : Places → Ledger → Prop where
  | rests {g : Ledger} (accepted : g.accepted = []) (attempted : g.attempted = [])
      (discarded : g.discarded = []) : Moves v v g
  | announces : Moves v { v with announced := v.announced + 1, pending := v.pending + 1 } {}
  | retracts {g : Ledger} {n : Nat} (announced : v.announced = n + 1)
      (accepted : g.accepted = []) (attempted : g.attempted = []) (discarded : g.discarded = []) :
      Moves v { v with announced := n, pending := v.pending - 1 } g
  | accepts {p : DataPacket} {n : Nat} (announced : v.announced = n + 1)
      (room : v.waiting.length < max v.capacity 1) (going : v.consumed = true ∨ v.ended = false) :
      Moves v { v with announced := n, waiting := v.waiting ++ [p] } { accepted := [p] }
  | polls {p : DataPacket} {rest : List DataPacket} (head : v.waiting = p :: rest)
      (free : v.held = []) (settled : v.settling = false) (going : v.ended = false) :
      Moves v { v with waiting := rest, held := [p] } {}
  | attempts {p : DataPacket} {outcome : Except Fault Progress} (held : v.held = [p])
      (settled : v.settling = false) (going : v.ended = false) (alive : outcome ≠ .error .crash) :
      Moves v { v with held := [], settling := true } { attempted := [(p, outcome)] }
  | crashes {p : DataPacket} (held : v.held = [p]) (settled : v.settling = false)
      (going : v.ended = false) :
      Moves v { v with held := [] } { attempted := [(p, .error .crash)] }
  | settles (settling : v.settling = true) :
      Moves v { v with settling := false, pending := v.pending - 1 } {}
  | closes (free : v.held = []) (settled : v.settling = false) :
      Moves v { v with waiting := [], consumed := false, ended := true }
        { discarded := v.waiting }

end Places

namespace Sender

variable {σ τ : Type} [Sink σ] [SilenceTimer τ]

omit [Sink σ] [SilenceTimer τ] in
/-- Only a worker that has not ended leaves room. -/
theorem room_of_accepted {s : Sender σ τ} (h : s.admission = .accepted) :
    s.queue.waiting.length < max s.queue.capacity 1
      ∧ (s.queue.consumed = true ∨ s.worker.hasEnded = false) := by
  unfold admission at h
  by_cases hhand : s.handsOver = true
  · -- From hand to hand: the worker waits for a packet, so it has not ended.
    unfold handsOver at hhand
    simp only [Bool.and_eq_true, beq_iff_eq, List.isEmpty_iff] at hhand
    obtain ⟨⟨hcapacity, hwaiting⟩, hawaits⟩ := hhand
    refine ⟨?_, Or.inr ?_⟩
    · rw [hwaiting]
      exact Nat.lt_of_lt_of_le Nat.one_pos (Nat.le_max_right _ _)
    · unfold Worker.awaitsPacket at hawaits
      cases hw : s.worker <;> first | rfl | simp [hw] at hawaits
  · -- Through the queue: somebody takes packets out, and a place is free.
    rw [if_neg hhand] at h
    obtain ⟨hconsumed, hroom⟩ := IngressQueue.room_of_admission h
    exact ⟨Nat.lt_of_lt_of_le hroom (Nat.le_max_left _ _), Or.inl hconsumed⟩

omit [Sink σ] [SilenceTimer τ] in
/-- The places of a sender whose worker is known. -/
theorem places_of_worker {s : Sender σ τ} {w : Worker} (h : s.worker = w) :
    s.places = { s.places with
      held := w.held, settling := w.isSettling, ended := w.hasEnded } := by
  unfold places
  rw [h]

omit [Sink σ] [SilenceTimer τ] in
/-- The places of a sender whose write is known. -/
theorem places_of_writer {s : Sender σ τ} {w : Writer} (h : s.writer = w) :
    s.places = { s.places with announced := s.offers.length + w.offered.length } := by
  unfold places
  rw [h]

omit [Sink σ] [SilenceTimer τ] in
theorem announced_of_offered {s : Sender σ τ} {n : Nat} {p : DataPacket}
    (h : s.offers[n]? = some p) :
    s.places.announced = (s.offers.eraseIdx n).length + s.writer.offered.length + 1 := by
  obtain ⟨hn, _⟩ := List.getElem?_eq_some_iff.mp h
  show s.offers.length + s.writer.offered.length = _
  rw [List.length_eraseIdx_of_lt hn]
  omega

/-- **Every event moves packets in one of the nine ways.** -/
theorem moves {s s' : Sender σ τ} {ev : Event σ} {g : Ledger} (h : Changes s ev s' g) :
    Places.Moves s.places s'.places g := by
  cases h with
  | starts hw | leaves hw | flags hw | resends hw =>
    rw [places_of_worker hw]
    exact .rests rfl rfl rfl
  | @looks stage stage' losses statistics hw hbefore _ hafter _ =>
    -- The stages differ, and no packet is in the worker's hands in either.
    rw [places_of_worker hw, Worker.held_of_isEmptyHanded hbefore,
      Worker.isSettling_of_isEmptyHanded hbefore]
    have hs' := places_of_worker (s := { s with
      engine := { s.engine with losses, statistics }, worker := .working stage' }) rfl
    rw [Worker.held_of_isEmptyHanded hafter, Worker.isSettling_of_isEmptyHanded hafter] at hs'
    rw [hs']
    exact .rests rfl rfl rfl
  | @concludes outcome hw =>
    obtain ⟨hheld, hsettling, hended⟩ := Worker.after_places outcome
    have hs' := places_of_worker (s := { s with worker := Worker.after outcome }) rfl
    rw [hheld, hsettling, hended] at hs'
    rw [places_of_worker hw, hs']
    exact .rests rfl rfl rfl
  | polls hw hhead =>
    rw [places_of_worker hw]
    exact .polls hhead rfl rfl rfl
  | transmits hw halive =>
    rw [places_of_worker hw]
    exact .attempts rfl rfl rfl halive
  | crashes hw hcrash =>
    rw [places_of_worker hw]
    exact .crashes rfl rfl rfl
  | settles hw =>
    rw [places_of_worker hw]
    exact .settles rfl
  | closes hw =>
    rw [places_of_worker hw]
    exact .closes rfl rfl
  | @announces p =>
    have hmore : (s.offers ++ [p]).length + s.writer.offered.length = s.places.announced + 1 := by
      show _ = s.offers.length + s.writer.offered.length + 1
      rw [List.length_append, List.length_singleton]
      omega
    show Places.Moves s.places { s.places with
      announced := (s.offers ++ [p]).length + s.writer.offered.length
      pending := s.queue.pending + 1 } {}
    rw [hmore]
    exact .announces
  | accepts hn hroom =>
    obtain ⟨hlength, hgoing⟩ := room_of_accepted hroom
    exact .accepts (announced_of_offered hn) hlength hgoing
  | takesBack hn => exact .retracts (announced_of_offered hn) rfl rfl rfl
  | begins hfree | turnsAway hfree =>
    rw [places_of_writer (w := s.writer) rfl, Writer.offered_of_free hfree]
    exact .rests rfl rfl rfl
  | announcesNext hw =>
    rw [places_of_writer hw]
    exact .announces
  | acceptsNext hw hroom =>
    obtain ⟨hlength, hgoing⟩ := room_of_accepted hroom
    rw [places_of_writer hw]
    exact .accepts rfl hlength hgoing
  | refusesNext hw hclosed =>
    rw [places_of_writer hw]
    exact .retracts rfl rfl rfl rfl
  | finishes hw =>
    rw [places_of_writer hw]
    exact .rests rfl rfl rfl
  | signals x => exact .rests rfl rfl rfl
  | joins => exact .rests rfl rfl rfl
  | stays => exact .rests rfl rfl rfl

end Sender

/-! ## §3. What every run keeps. -/

namespace Ledger

/-- Whether an attempt took the worker with it. -/
def isCrash (a : DataPacket × Except Fault Progress) : Bool :=
  match a.2 with
  | .error .crash => true
  | _ => false

/-- How many attempts took the worker with them. -/
def crashes (l : Ledger) : Nat := l.attempted.countP isCrash

end Ledger

namespace Places

/-- How many packets were announced and not handled. -/
def unhandled (v : Places) (l : Ledger) : Nat :=
  v.announced + v.waiting.length + v.held.length + v.settling.toNat + l.discarded.length
    + l.crashes

/-- The places and the ledger tell the same story. -/
structure Consistent (v : Places) (l : Ledger) : Prop where
  fifo : l.accepted = l.attempted.map Prod.fst ++ v.held ++ l.discarded ++ v.waiting
  pending : v.pending = UInt64.ofNat (v.unhandled l)
  bounded : v.waiting.length + l.discarded.length ≤ max v.capacity 1
  closed : v.consumed = !v.ended
  kept : v.ended = false → l.discarded = []
  emptied : v.ended = true → v.waiting = []
  settling : v.settling = true → l.attempted ≠ [] ∧ v.held = []
  single : v.held.length ≤ 1

theorem Moves.capacity {v v' : Places} {g : Ledger} (h : Moves v v' g) :
    v'.capacity = v.capacity := by
  cases h <;> rfl

/-- Writes and their results do not matter. -/
theorem Consistent.of_eq {v : Places} {l l' : Ledger} (hi : v.Consistent l)
    (ha : l'.accepted = l.accepted) (ht : l'.attempted = l.attempted)
    (hd : l'.discarded = l.discarded) : v.Consistent l' := by
  obtain ⟨hfifo, hpending, hbounded, hclosed, hkept, hemptied, hsettling, hsingle⟩ := hi
  have hcount : v.unhandled l' = v.unhandled l := by
    unfold unhandled Ledger.crashes
    rw [ht, hd]
  refine ⟨?_, ?_, ?_, hclosed, ?_, hemptied, ?_, hsingle⟩
  · rw [ha, ht, hd]
    exact hfifo
  · rw [hcount]
    exact hpending
  · rw [hd]
    exact hbounded
  · rw [hd]
    exact hkept
  · rw [ht]
    exact hsettling

theorem of_append_empty {v : Places} {l g : Ledger} (ha : g.accepted = [])
    (ht : g.attempted = []) (hd : g.discarded = []) (hi : v.Consistent l) :
    v.Consistent (l.append g) := by
  refine hi.of_eq ?_ ?_ ?_
  · show l.accepted ++ g.accepted = _
    rw [ha, List.append_nil]
  · show l.attempted ++ g.attempted = _
    rw [ht, List.append_nil]
  · show l.discarded ++ g.discarded = _
    rw [hd, List.append_nil]

theorem crashes_append (l : Ledger) (p : DataPacket) (outcome : Except Fault Progress) :
    (l.append { attempted := [(p, outcome)] }).crashes
      = l.crashes + (Ledger.isCrash (p, outcome)).toNat := by
  show (l.attempted ++ [(p, outcome)]).countP Ledger.isCrash = _
  rw [List.countP_append, List.countP_singleton]
  unfold Ledger.crashes
  cases Ledger.isCrash (p, outcome) <;> rfl

theorem consistent_moves {v v' : Places} {l g : Ledger} (h : Moves v v' g)
    (hi : v.Consistent l) : v'.Consistent (l.append g) := by
  obtain ⟨hfifo, hpending, hbounded, hclosed, hkept, hemptied, hsettling, hsingle⟩ := id hi
  -- In every case the packet leaves one place for the next, so the order and the sum of
  -- the places stay as they are; only announcing, retracting and settling change the sum,
  -- and the count with it.
  cases h with
  | rests ha ht hd => exact of_append_empty ha ht hd hi
  | announces =>
    rw [Ledger.append_empty]
    refine ⟨hfifo, count_up hpending ?_, hbounded, hclosed, hkept, hemptied, hsettling, hsingle⟩
    unfold unhandled
    simp only
    omega
  | retracts hn ha ht hd =>
    refine of_append_empty ha ht hd ⟨hfifo, count_down hpending ?_, hbounded, hclosed, hkept,
      hemptied, hsettling, hsingle⟩
    unfold unhandled
    simp only
    omega
  | @accepts p n hn hroom hgoing =>
    -- Nothing is accepted behind a worker that ended, so nothing was discarded yet.
    have hopen : v.ended = false := by
      rcases hgoing with hconsumed | hended
      · rw [hclosed] at hconsumed
        simpa using hconsumed
      · exact hended
    have hnone := hkept hopen
    have hl : l.append { accepted := [p] } = { l with accepted := l.accepted ++ [p] } := by
      unfold Ledger.append
      simp only [List.append_nil]
    rw [hl]
    refine ⟨?_, hpending.trans (congrArg _ ?_), ?_, hclosed, hkept, ?_, hsettling, hsingle⟩
    · show l.accepted ++ [p] = _
      rw [hfifo, List.append_assoc]
    · unfold unhandled Ledger.crashes
      simp only [List.length_append, List.length_singleton]
      omega
    · show (v.waiting ++ [p]).length + l.discarded.length ≤ max v.capacity 1
      rw [hnone, List.length_append, List.length_singleton, List.length_nil]
      omega
    · intro hended
      exact absurd (hopen.symm.trans hended) Bool.false_ne_true
  | @polls p rest hhead hfree hsettled hgoing =>
    rw [Ledger.append_empty]
    have hnone := hkept hgoing
    refine ⟨?_, hpending.trans (congrArg _ ?_), ?_, hclosed, hkept, ?_, ?_, Nat.le_refl 1⟩
    · show l.accepted = l.attempted.map Prod.fst ++ [p] ++ l.discarded ++ rest
      rw [hfifo, hhead, hfree, hnone]
      simp
    · unfold unhandled
      simp only [hhead, hfree, List.length_cons, List.length_nil]
      omega
    · rw [hhead, List.length_cons] at hbounded
      show rest.length + l.discarded.length ≤ max v.capacity 1
      omega
    · intro hended
      exact absurd (hgoing.symm.trans hended) Bool.false_ne_true
    · intro hs
      exact absurd (hsettled.symm.trans hs) Bool.false_ne_true
  | @attempts p outcome hheld hsettled hgoing halive =>
    have hcrash : Ledger.isCrash (p, outcome) = false := by
      unfold Ledger.isCrash
      split
      · rename_i he
        exact absurd he halive
      · rfl
    have hcrashes := crashes_append l p outcome
    rw [hcrash] at hcrashes
    have hmore : (l.append { attempted := [(p, outcome)] }).discarded = l.discarded :=
      List.append_nil _
    refine ⟨?_, hpending.trans (congrArg _ ?_), ?_, hclosed, ?_, hemptied, ?_, Nat.zero_le 1⟩
    · show l.accepted ++ [] = (l.attempted ++ [(p, outcome)]).map Prod.fst ++ [] ++ _ ++ v.waiting
      rw [hmore, hfifo, hheld, List.map_append]
      simp
    · unfold unhandled
      rw [hcrashes, hmore]
      simp only [hheld, hsettled, List.length_singleton, List.length_nil, Bool.toNat_false,
        Bool.toNat_true]
      omega
    · rw [hmore]
      exact hbounded
    · rw [hmore]
      exact hkept
    · intro _
      refine ⟨?_, rfl⟩
      show l.attempted ++ [(p, outcome)] ≠ []
      simp
  | @crashes p hheld hsettled hgoing =>
    -- The packet is never handled: it stays in the sum as a crash.
    have hcrashes := crashes_append l p (.error .crash)
    have hmore : (l.append { attempted := [(p, .error .crash)] }).discarded = l.discarded :=
      List.append_nil _
    refine ⟨?_, hpending.trans (congrArg _ ?_), ?_, hclosed, ?_, hemptied, ?_, Nat.zero_le 1⟩
    · show l.accepted ++ []
        = (l.attempted ++ [(p, Except.error Fault.crash)]).map Prod.fst ++ [] ++ _ ++ v.waiting
      rw [hmore, hfifo, hheld, List.map_append]
      simp
    · unfold unhandled
      rw [hcrashes, hmore]
      simp only [hheld, List.length_singleton, List.length_nil, Ledger.isCrash, Bool.toNat_true]
      omega
    · rw [hmore]
      exact hbounded
    · rw [hmore]
      exact hkept
    · intro hs
      exact absurd (hsettled.symm.trans hs) Bool.false_ne_true
  | settles hs =>
    rw [Ledger.append_empty]
    refine ⟨hfifo, count_down hpending ?_, hbounded, hclosed, hkept, hemptied, ?_, hsingle⟩
    · unfold unhandled
      simp only [hs, Bool.toNat_false, Bool.toNat_true]
      omega
    · intro h
      exact absurd h Bool.false_ne_true
  | closes hfree hsettled =>
    -- What waited is discarded, and stays pending.
    have hl : l.append { discarded := v.waiting }
        = { l with discarded := l.discarded ++ v.waiting } := by
      unfold Ledger.append
      simp only [List.append_nil]
    rw [hl]
    refine ⟨?_, hpending.trans (congrArg _ ?_), ?_, rfl, ?_, fun _ => rfl, hsettling, hsingle⟩
    · show l.accepted = l.attempted.map Prod.fst ++ v.held ++ (l.discarded ++ v.waiting) ++ []
      rw [hfifo, List.append_nil, List.append_assoc _ l.discarded]
    · unfold unhandled Ledger.crashes
      simp only [List.length_append, List.length_nil]
      omega
    · show [].length + (l.discarded ++ v.waiting).length ≤ max v.capacity 1
      rw [List.length_append, List.length_nil]
      omega
    · intro h
      exact absurd h.symm Bool.false_ne_true

end Places

namespace Sender

variable {σ τ : Type} [Sink σ] [SilenceTimer τ]

/-- The queue has the room it was made with. -/
theorem capacity_replay (config : Config) (sink : σ) (timer : τ) (history : List (Event σ)) :
    ((fresh config sink timer).replay history).queue.capacity = config.queueCapacity :=
  invariant_replay (fun s _ => s.queue.capacity = config.queueCapacity) rfl
    (fun h hi => (moves h).capacity.trans hi) history

/-- **Every run is consistent.** -/
theorem consistent_replay (config : Config) (sink : σ) (timer : τ) (history : List (Event σ)) :
    ((fresh config sink timer).replay history).places.Consistent
      ((fresh config sink timer).ledger history) := by
  refine invariant_replay (fun s l => s.places.Consistent l) ?_
    (fun h hi => Places.consistent_moves (moves h) hi) history
  refine ⟨rfl, rfl, Nat.zero_le _, rfl, fun _ => rfl, fun _ => rfl, fun h => ?_, Nat.zero_le 1⟩
  exact absurd h Bool.false_ne_true

end Sender

end ReliableSender
