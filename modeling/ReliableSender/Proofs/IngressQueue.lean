/-
  ReliableSender.Proofs.IngressQueue
  ──────────────────────────────────
  **WHAT AN INGRESS QUEUE DOES, WHOEVER USES IT.**

  What waits and what is pending are two views of one queue, kept by
  different operations of its two sides.  An offer counts its packet first
  and takes its verdict later.  Whatever happens in between, the views agree
  with what was accepted:

      accepted  =  polled ++ discarded ++ waiting
      pending   =  accepted + under way − handled      (modulo 2⁶⁴)

      Happens    — what one event does, the only place where events are opened
      queue_law  — what all events come to
-/
import ReliableSender.IngressQueue
import ReliableSender.Proofs.Chronicle

namespace ReliableSender

/-! ## §1. One operation. -/

/-- Taking out the last member leaves the others. -/
theorem eraseIdx_concat_length {α : Type} (xs : List α) (x : α) :
    (xs ++ [x]).eraseIdx xs.length = xs := by
  rw [List.eraseIdx_append_of_length_le (Nat.le_refl _), Nat.sub_self]
  exact List.append_nil _

/-- A count modulo 2⁶⁴ goes up with what it counts. -/
theorem count_up {c : UInt64} {m n : Nat} (h : c = UInt64.ofNat m) (hn : n = m + 1) :
    c + 1 = UInt64.ofNat n := by
  rw [h, hn, UInt64.ofNat_add]
  rfl

theorem count_down {c : UInt64} {m n : Nat} (h : c = UInt64.ofNat m) (hm : m = n + 1) :
    c - 1 = UInt64.ofNat n := by
  rw [h, hm, UInt64.ofNat_add]
  exact UInt64.add_sub_cancel _ _

namespace IngressQueue

variable {q : IngressQueue}

/-- Only a queue that nobody takes from refuses for good. -/
theorem admission_eq_closed_iff : q.admission = .closed ↔ q.consumed = false := by
  unfold admission
  cases q.consumed with
  | false => exact iff_of_true rfl rfl
  | true =>
    by_cases hfull : q.capacity ≤ q.waiting.length
    · simp [hfull]
    · simp [hfull]

theorem admission_eq_full_iff :
    q.admission = .full ↔ q.consumed = true ∧ q.capacity ≤ q.waiting.length := by
  unfold admission
  cases q.consumed with
  | false => simp
  | true =>
    by_cases hfull : q.capacity ≤ q.waiting.length
    · simp [hfull]
    · simp [hfull]

/-- A packet is accepted by a queue that somebody takes from, and that has room. -/
theorem room_of_admission (h : q.admission = .accepted) :
    q.consumed = true ∧ q.waiting.length < q.capacity := by
  have hopen : q.consumed = true := by
    rw [← Bool.not_eq_false, ← admission_eq_closed_iff, h]
    simp
  refine ⟨hopen, Nat.lt_of_not_le fun hfull => ?_⟩
  have := admission_eq_full_iff.mpr ⟨hopen, hfull⟩
  exact absurd (h.symm.trans this) (by simp)

theorem retract_announce (q : IngressQueue) : q.announce.retract = q := by
  have hpending : q.pending + 1 - 1 = q.pending := UInt64.add_sub_cancel _ _
  show { q with pending := q.pending + 1 - 1 } = q
  rw [hpending]

/-- A refused offer leaves the queue as it was. -/
theorem offer_of_refused (h : q.admission ≠ .accepted) (p : DataPacket) :
    q.offer p = (q.admission, q) := by
  unfold offer
  cases hverdict : q.admission with
  | accepted => exact absurd hverdict h
  | full | closed => exact congrArg (Prod.mk _) q.retract_announce

theorem poll_eq_closed_iff : q.poll.1 = .closed ↔ q.producers = 0 ∧ q.waiting = [] := by
  unfold poll
  cases q.waiting with
  | cons p rest => simp
  | nil =>
    by_cases hnone : q.producers = 0
    · simp [hnone]
    · simp [hnone]

/-! ## §2. Histories. -/

/-- A queue in use, with the packets of the offers under way: announced, and without a
verdict yet. -/
structure Shared where
  queue : IngressQueue
  offers : List DataPacket := []
  deriving DecidableEq, Repr

namespace Shared

/-- What the holders of the two sides do. -/
inductive Event where
  /-- A producer begins to offer a packet. -/
  | announce (p : DataPacket)
  /-- One of the offers under way takes the verdict that it meets.  An offer that waits for
  room takes it later than one that does not. -/
  | conclude (n : Nat)
  /-- A producer is cloned. -/
  | clone
  /-- A producer is dropped. -/
  | drop
  | poll
  | handled
  | dropConsumer
  deriving DecidableEq, Repr

/-- What an event leaves. -/
def apply (s : Shared) : Event → Shared
  | .announce p => { queue := s.queue.announce, offers := s.offers ++ [p] }
  | .conclude n =>
    match s.offers[n]? with
    | some p =>
      { queue := s.queue.conclude p s.queue.admission, offers := s.offers.eraseIdx n }
    | none => s
  | .clone => { s with queue := s.queue.addProducer }
  | .drop => { s with queue := s.queue.dropProducer }
  | .poll => { s with queue := s.queue.poll.2 }
  | .handled => { s with queue := s.queue.handled }
  | .dropConsumer => { s with queue := s.queue.dropConsumer }

/-- What a history leaves. -/
def replay (s : Shared) (history : List Event) : Shared := history.foldl apply s

theorem replay_concat (s : Shared) (history : List Event) (ev : Event) :
    s.replay (history ++ [ev]) = (s.replay history).apply ev := by
  unfold replay
  rw [List.foldl_append]
  rfl

/-- Who acts holds the side that acts; the last producer is not dropped while an offer is
under way. -/
def Allows (s : Shared) : Event → Prop
  | .announce _ | .clone => 0 < s.queue.producers
  | .conclude n => n < s.offers.length
  | .drop => 0 < s.queue.producers ∧ (s.queue.producers = 1 → s.offers = [])
  | .poll | .handled | .dropConsumer => s.queue.consumed = true

instance (s : Shared) : (ev : Event) → Decidable (s.Allows ev)
  | .announce _ | .clone => inferInstanceAs (Decidable (0 < s.queue.producers))
  | .conclude n => inferInstanceAs (Decidable (n < s.offers.length))
  | .drop => inferInstanceAs
    (Decidable (0 < s.queue.producers ∧ (s.queue.producers = 1 → s.offers = [])))
  | .poll | .handled | .dropConsumer => inferInstanceAs (Decidable (s.queue.consumed = true))

/-- The packet that an event brings into the queue. -/
def accepts (s : Shared) : Event → List DataPacket
  | .conclude n => if s.queue.admission = .accepted then s.offers[n]?.toList else []
  | _ => []

/-- The packet that an event takes out, as its answer tells. -/
def takes (s : Shared) : Event → List DataPacket
  | .poll =>
    match s.queue.poll.1 with
    | .packet p => [p]
    | .nothing | .closed => []
  | _ => []

/-- The packets that an event throws away. -/
def discards (s : Shared) : Event → List DataPacket
  | .dropConsumer => s.queue.waiting
  | _ => []

/-- The packets accepted in a history, in that order. -/
def accepted (s : Shared) (history : List Event) : List DataPacket :=
  gather apply accepts s history

/-- The packets polled in a history, in that order. -/
def polled (s : Shared) (history : List Event) : List DataPacket :=
  gather apply takes s history

/-- The packets thrown away in a history. -/
def discarded (s : Shared) (history : List Event) : List DataPacket :=
  gather apply discards s history

/-- An offer that does not wait is two events in a row. -/
theorem offer_eq_apply (s : Shared) (p : DataPacket) :
    ((s.apply (.announce p)).apply (.conclude s.offers.length))
      = { s with queue := (s.queue.offer p).2 } := by
  have hlast : (s.offers ++ [p])[s.offers.length]? = some p := List.getElem?_concat_length
  unfold apply
  simp only [hlast, eraseIdx_concat_length]
  rfl

/-! ## §3. One event. -/

/-- What an event does, and which packets it brings in, takes out and throws away. -/
inductive Happens (s : Shared) :
    Event → Shared → List DataPacket → List DataPacket → List DataPacket → Prop where
  | announces {p : DataPacket} (held : 0 < s.queue.producers) :
      Happens s (.announce p) { queue := s.queue.announce, offers := s.offers ++ [p] } [] [] []
  | accepts {n : Nat} {p : DataPacket} (offered : n < s.offers.length)
      (room : s.queue.admission = .accepted) :
      Happens s (.conclude n)
        { queue := s.queue.push p, offers := s.offers.eraseIdx n } [p] [] []
  | refuses {n : Nat} (offered : n < s.offers.length)
      (verdict : s.queue.admission ≠ .accepted) :
      Happens s (.conclude n)
        { queue := s.queue.retract, offers := s.offers.eraseIdx n } [] [] []
  | clones (held : 0 < s.queue.producers) :
      Happens s .clone { s with queue := s.queue.addProducer } [] [] []
  | drops (held : 0 < s.queue.producers) :
      Happens s .drop { s with queue := s.queue.dropProducer } [] [] []
  | polls {p : DataPacket} {rest : List DataPacket} (head : s.queue.waiting = p :: rest) :
      Happens s .poll { s with queue := { s.queue with waiting := rest } } [] [p] []
  | pollsNothing (empty : s.queue.waiting = []) : Happens s .poll s [] [] []
  | handles : Happens s .handled { s with queue := s.queue.handled } [] [] []
  | leaves (held : s.queue.consumed = true) :
      Happens s .dropConsumer { s with queue := s.queue.dropConsumer } [] [] s.queue.waiting

theorem happens {s : Shared} {ev : Event} (h : s.Allows ev) :
    Happens s ev (s.apply ev) (s.accepts ev) (s.takes ev) (s.discards ev) := by
  cases ev with
  | announce p => exact .announces h
  | clone => exact .clones h
  | drop => exact .drops h.1
  | handled => exact .handles
  | dropConsumer => exact .leaves h
  | conclude n =>
    have hoffered : s.offers[n]? = some s.offers[n] := List.getElem?_eq_getElem h
    unfold apply accepts
    simp only [hoffered]
    by_cases hroom : s.queue.admission = .accepted
    · rw [if_pos hroom, hroom]
      exact .accepts h hroom
    · rw [if_neg hroom]
      have hback : s.queue.conclude s.offers[n] s.queue.admission = s.queue.retract := by
        cases hverdict : s.queue.admission with
        | accepted => exact absurd hverdict hroom
        | full | closed => rfl
      rw [hback]
      exact .refuses h hroom
  | poll =>
    unfold apply takes IngressQueue.poll
    cases hwaiting : s.queue.waiting with
    | cons p rest => exact .polls hwaiting
    | nil =>
      by_cases hnone : s.queue.producers = 0
      · simp only [hnone, if_true]
        exact .pollsNothing hwaiting
      · simp only [hnone, if_false]
        exact .pollsNothing hwaiting

/-! ## §4. All events. -/

/-- Where the accepted packets are. -/
structure InOrder (s : Shared) (accepted polled discarded : List DataPacket) : Prop where
  fifo : accepted = polled ++ discarded ++ s.queue.waiting
  bounded : s.queue.waiting.length ≤ s.queue.capacity
  kept : s.queue.consumed = true → discarded = []
  emptied : s.queue.consumed = false → s.queue.waiting = []

theorem InOrder.happens {s s' : Shared} {ev : Event}
    {accepted polled discarded new out lost : List DataPacket}
    (hi : s.InOrder accepted polled discarded) (h : Happens s ev s' new out lost) :
    s'.InOrder (accepted ++ new) (polled ++ out) (discarded ++ lost) := by
  cases h with
  | @accepts n p _ hroom =>
    obtain ⟨hopen, hfree⟩ := room_of_admission hroom
    simp only [List.append_nil]
    refine ⟨?_, ?_, hi.kept, fun hclosed => absurd (hopen.symm.trans hclosed) (by simp)⟩
    · show accepted ++ [p] = polled ++ discarded ++ (s.queue.waiting ++ [p])
      rw [hi.fifo, List.append_assoc _ s.queue.waiting]
    · show (s.queue.waiting ++ [p]).length ≤ s.queue.capacity
      rw [List.length_append, List.length_singleton]
      exact hfree
  | @polls p rest hhead =>
    have hopen : s.queue.consumed = true := by
      by_contra hclosed
      have hempty := hi.emptied (Bool.eq_false_iff.mpr hclosed)
      rw [hhead] at hempty
      exact absurd hempty (by simp)
    have hfifo := hi.fifo
    have hbounded := hi.bounded
    rw [hhead] at hfifo hbounded
    -- Nothing was thrown away, so the packet follows those polled before it.
    rw [hi.kept hopen] at hfifo ⊢
    simp only [List.append_nil] at hfifo ⊢
    refine ⟨?_, Nat.le_of_succ_le hbounded, fun _ => rfl, fun hclosed => ?_⟩
    · show accepted = polled ++ [p] ++ [] ++ rest
      rw [hfifo, List.append_nil, List.append_assoc]
      rfl
    · exact absurd (hopen.symm.trans hclosed) (by simp)
  | leaves hheld =>
    simp only [List.append_nil]
    refine ⟨?_, Nat.zero_le _, fun hopen => absurd hopen (by simp [dropConsumer]), fun _ => rfl⟩
    show accepted = polled ++ (discarded ++ s.queue.waiting) ++ []
    rw [hi.fifo, List.append_nil, List.append_assoc]
  | announces | refuses | clones | drops | pollsNothing | handles =>
    simp only [List.append_nil]
    exact ⟨hi.fifo, hi.bounded, hi.kept, hi.emptied⟩

theorem count_concat (history : List Event) (ev x : Event) :
    (history ++ [ev]).count x = history.count x + if ev = x then 1 else 0 := by
  rw [List.count_append, List.count_singleton]
  simp only [beq_iff_eq]

/-- What the counts stand for. -/
structure Counted (s : Shared) (accepted : List DataPacket) (history : List Event) : Prop where
  pending : s.queue.pending + UInt64.ofNat (history.count .handled)
    = UInt64.ofNat (accepted.length + s.offers.length)
  producers : s.queue.producers + history.count .drop = history.count .clone + 1
  consumed : s.queue.consumed = true ↔ .dropConsumer ∉ history

variable {s s' : Shared} {ev : Event} {history : List Event}
variable {accepted new out lost : List DataPacket}

theorem Happens.pending (h : Happens s ev s' new out lost) (hi : s.Counted accepted history) :
    s'.queue.pending + UInt64.ofNat ((history ++ [ev]).count .handled)
      = UInt64.ofNat ((accepted ++ new).length + s'.offers.length) := by
  have hbefore := hi.pending
  rw [count_concat]
  cases h with
  | announces =>
    show s.queue.pending + 1 + UInt64.ofNat (history.count .handled)
      = UInt64.ofNat ((accepted ++ []).length + (s.offers ++ [_]).length)
    have hup := count_up hbefore rfl
    rw [List.append_nil, List.length_append, List.length_singleton, ← Nat.add_assoc, ← hup]
    grind
  | @accepts n p hoffered =>
    show s.queue.pending + UInt64.ofNat (history.count .handled)
      = UInt64.ofNat ((accepted ++ [p]).length + (s.offers.eraseIdx n).length)
    rw [hbefore, List.length_append, List.length_singleton, List.length_eraseIdx_of_lt hoffered]
    congr 1
    omega
  | @refuses n hoffered =>
    show s.queue.pending - 1 + UInt64.ofNat (history.count .handled)
      = UInt64.ofNat ((accepted ++ []).length + (s.offers.eraseIdx n).length)
    have hdown := count_down (n := accepted.length + (s.offers.eraseIdx n).length) hbefore (by
      rw [List.length_eraseIdx_of_lt hoffered]
      omega)
    rw [List.append_nil, ← hdown]
    grind
  | handles =>
    show s.queue.pending - 1 + UInt64.ofNat (history.count .handled + 1)
      = UInt64.ofNat ((accepted ++ []).length + s.offers.length)
    rw [List.append_nil, ← hbefore, UInt64.ofNat_add]
    show s.queue.pending - 1 + (UInt64.ofNat (history.count .handled) + 1) = _
    grind
  | clones | drops | polls | pollsNothing | leaves =>
    rw [List.append_nil]
    exact hbefore

theorem Happens.producers (h : Happens s ev s' new out lost) (hi : s.Counted accepted history) :
    s'.queue.producers + (history ++ [ev]).count .drop = (history ++ [ev]).count .clone + 1 := by
  have hbefore := hi.producers
  rw [count_concat, count_concat]
  cases h with
  | clones =>
    show s.queue.producers + 1 + history.count .drop = history.count .clone + 1 + 1
    omega
  | drops hheld =>
    show s.queue.producers - 1 + (history.count .drop + 1) = history.count .clone + 1
    omega
  | announces | accepts | refuses | polls | pollsNothing | handles | leaves => exact hbefore

theorem Happens.consumed (h : Happens s ev s' new out lost) (hi : s.Counted accepted history) :
    s'.queue.consumed = true ↔ .dropConsumer ∉ history ++ [ev] := by
  have hbefore := hi.consumed
  rw [List.mem_append, List.mem_singleton]
  cases h with
  | leaves => exact iff_of_false (by simp [dropConsumer]) (by simp)
  | announces | accepts | refuses | clones | drops | polls | pollsNothing | handles =>
    simp only [reduceCtorEq, or_false]
    exact hbefore

theorem Counted.happens (hi : s.Counted accepted history) (h : Happens s ev s' new out lost) :
    s'.Counted (accepted ++ new) (history ++ [ev]) :=
  ⟨h.pending hi, h.producers hi, h.consumed hi⟩

theorem Happens.capacity (h : Happens s ev s' new out lost) :
    s'.queue.capacity = s.queue.capacity := by
  cases h <;> rfl

/-- A queue of some capacity, in the hands of one producer and one consumer. -/
def fresh (capacity : Nat) : Shared where
  queue := { capacity }

/-- Every event of the history was possible when it happened. -/
abbrev Possible (capacity : Nat) (history : List Event) : Prop :=
  Always (fun before => ((fresh capacity).replay before).Allows) history

theorem accounted_replay {capacity : Nat} {history : List Event}
    (hpossible : Possible capacity history) :
    let start := fresh capacity
    (start.replay history).queue.capacity = capacity
      ∧ (start.replay history).InOrder (start.accepted history) (start.polled history)
        (start.discarded history)
      ∧ (start.replay history).Counted (start.accepted history) history := by
  intro start
  induction history using List.reverseRecOn with
  | nil =>
    refine ⟨rfl, ⟨rfl, Nat.zero_le _, fun _ => rfl, fun _ => rfl⟩, rfl, rfl, ?_⟩
    exact iff_of_true rfl List.not_mem_nil
  | append_singleton history ev ih =>
    obtain ⟨hbefore, hallowed⟩ := always_concat.mp hpossible
    obtain ⟨hcapacity, horder, hcounts⟩ := ih hbefore
    have h := happens hallowed
    unfold accepted polled discarded
    rw [replay_concat, gather_concat, gather_concat, gather_concat]
    exact ⟨h.capacity.trans hcapacity, horder.happens h, hcounts.happens h⟩

/-- **The law of the ingress queue**, for every capacity and whoever does what in whatever
order.  (A queue of capacity 0 accepts nothing; it takes somebody else to pass a packet from hand
to hand.)  The polled packets are the accepted ones in that order, each once, and the others wait
or were thrown away with the consumer; the queue never holds more than its capacity.  An offer
is refused as full exactly if as many accepted packets as there is room for were not polled, and
as closed exactly if the consumer is gone; then queue and count are as before.  The count is that
of accepted packets and of offers under way, less the packets handled.  A poll reports the end
exactly if every producer was dropped and every accepted packet was polled. -/
theorem queue_law (capacity : Nat) (history : List Event)
    (hpossible : Possible capacity history) :
    let start := fresh capacity
    let s := start.replay history
    let q := s.queue
    start.accepted history = start.polled history ++ start.discarded history ++ q.waiting
      ∧ (.dropConsumer ∉ history → start.discarded history = [])
      ∧ q.waiting.length ≤ capacity
      ∧ (∀ p, (q.offer p).1 = .full ↔ .dropConsumer ∉ history
          ∧ (start.accepted history).length = (start.polled history).length + capacity)
      ∧ (∀ p, (q.offer p).1 = .closed ↔ .dropConsumer ∈ history)
      ∧ (∀ p, (q.offer p).1 ≠ .accepted → (q.offer p).2 = q)
      ∧ q.pending = UInt64.ofNat ((start.accepted history).length + s.offers.length)
          - UInt64.ofNat (history.count .handled)
      ∧ (.dropConsumer ∉ history →
          (q.poll.1 = .closed ↔ history.count .drop = history.count .clone + 1
            ∧ start.polled history = start.accepted history)) := by
  intro start s q
  obtain ⟨hcapacity, horder, hcounts⟩ := accounted_replay hpossible
  replace hcapacity : q.capacity = capacity := hcapacity
  have hopen : .dropConsumer ∉ history → q.consumed = true := hcounts.consumed.mpr
  have hkept : .dropConsumer ∉ history → start.accepted history
      = start.polled history ++ q.waiting := fun hheld => by
    have hfifo := horder.fifo
    rw [horder.kept (hopen hheld), List.append_nil] at hfifo
    exact hfifo
  have hbounded : q.waiting.length ≤ capacity := hcapacity ▸ horder.bounded
  refine ⟨horder.fifo, fun hheld => horder.kept (hopen hheld), hbounded, fun p => ?_, fun p => ?_,
    fun p hp => ?_, UInt64.eq_sub_iff_add_eq.mpr hcounts.pending, fun hheld => ?_⟩
  · show q.admission = .full ↔ _
    rw [admission_eq_full_iff, hcapacity, hcounts.consumed]
    refine and_congr_right fun hheld => ?_
    rw [hkept hheld, List.length_append]
    omega
  · show q.admission = .closed ↔ _
    rw [admission_eq_closed_iff, ← Bool.not_eq_true, hcounts.consumed, not_not]
  · exact congrArg Prod.snd (offer_of_refused hp p)
  · have hproducers : q.producers + history.count .drop = history.count .clone + 1 :=
      hcounts.producers
    rw [poll_eq_closed_iff, hkept hheld, List.self_eq_append_right]
    refine and_congr_left fun _ => ?_
    omega

/-- A queue with room for one packet and two producers.  The second packet is refused, offered
again, and accepted when the first one is polled; then both producers are dropped. -/
theorem end_of_two_producers :
    let p (n : Nat) : DataPacket := { sequence := n }
    let history : List Event :=
      [.announce (p 0), .conclude 0, .clone, .announce (p 1), .conclude 0, .announce (p 1), .poll,
        .conclude 0, .drop, .drop, .handled, .poll]
    let start := fresh 1
    let q := (start.replay history).queue
    Possible 1 history ∧ ((start.replay (history.take 4)).queue.offer (p 1)).1 = .full
      ∧ start.polled history = [p 0, p 1] ∧ q.pending = 1 ∧ q.poll.1 = .closed := by
  intro p history start q
  have hpossible : Possible 1 history := by decide
  have hearlier : Possible 1 (history.take 4) := by decide
  have haccepted : start.accepted history = [p 0, p 1] := by decide
  have hpolled : start.polled history = [p 0, p 1] := by decide
  obtain ⟨-, -, -, -, -, -, hpending, hend⟩ := queue_law 1 history hpossible
  obtain ⟨-, -, -, hfull, -⟩ := queue_law 1 (history.take 4) hearlier
  refine ⟨hpossible, (hfull (p 1)).mpr (by decide), hpolled, hpending.trans (by decide), ?_⟩
  exact (hend (by decide)).mpr ⟨by decide, hpolled.trans haccepted.symm⟩

end Shared

end IngressQueue

end ReliableSender
