/-
  ReliableSender.Proofs.Engine.Reconciliation
  ───────────────────────────────────────────
  **THE COUNTERS AGREE WITH THE WIRE AND WITH THE STATE.**

  An engine counts some things before an action that can fail and others
  after it.  A journal is kept beside the engine: what was sent and removed,
  which losses were new, how the iterations ended.  No line of it reads a
  counter.  Three ledgers balance:

      sent   = removed + in flight
      added  = looked up + waiting
      looked up = resent + skipped + refused + at hand

  and each counter is the length of a column, modulo 2⁶⁴.

      packets_accounted      — the first ledger, packet by packet
      Books                  — what an event counts, as far as the journal tells
      agrees_replay          — the counters and the journal at every moment
      statistics_reconciled  — the counters, the wire and the state
-/
import ReliableSender.Proofs.Engine.LossService
import ReliableSender.Proofs.Engine.WireTrace
import ReliableSender.Transport.Channel

namespace ReliableSender

/-! ## §1. Packets on the wire. -/

/-- The kind of a control packet; data has none. -/
def Packet.kind? : Packet → Option ControlKind
  | data _ => none
  | control p => some p.body.kind

/-- How many packets of a kind are on the wire. -/
def onWire (kind : Option ControlKind) (wire : List Packet) : Nat :=
  wire.countP (·.kind? = kind)

theorem onWire_append (kind : Option ControlKind) (wire more : List Packet) :
    onWire kind (wire ++ more) = onWire kind wire + onWire kind more := List.countP_append

/-! ## §2. The journal. -/

/-- What is known of an engine without its counters. -/
structure Journal where
  /-- The packets sent as new data. -/
  sent : List DataPacket := []
  /-- The packets that acknowledgments removed. -/
  removed : List DataPacket := []
  /-- How the iterations ended. -/
  results : List (Except Fault Progress) := []
  /-- The numbers that were new in the loss list. -/
  added : List Nat := []
  /-- The numbers that were looked up in the buffer. -/
  lookedUp : List Nat := []
  /-- The feedback that came. -/
  heard : List Feedback := []

namespace Journal

/-- The entries of one journal and then those of another. -/
def append (a b : Journal) : Journal where
  sent := a.sent ++ b.sent
  removed := a.removed ++ b.removed
  results := a.results ++ b.results
  added := a.added ++ b.added
  lookedUp := a.lookedUp ++ b.lookedUp
  heard := a.heard ++ b.heard

/-- How many iterations ended like this. -/
def ended (j : Journal) (like : Progress → Bool) : Nat :=
  j.results.countP fun
    | .ok progress => like progress
    | .error _ => false

/-- How many losses were dealt with, in one way or another. -/
def served (j : Journal) : Nat :=
  j.ended (· matches .retransmitted _) + j.ended (· matches .skipped _)
    + j.ended (· matches .retransmitFailed _)

/-- The counters that a journal and a wire call for. -/
def counters (j : Journal) (wire : List Packet) : Statistics where
  sent := UInt64.ofNat j.sent.length
  retransmitted := UInt64.ofNat (j.ended (· matches .retransmitted _))
  skipped := UInt64.ofNat (j.ended (· matches .skipped _))
  naks := UInt64.ofNat (j.heard.countP (· matches .lossReport _ _))
  acks := UInt64.ofNat (j.heard.countP (· matches .acknowledgment _ _))
  ack2s := UInt64.ofNat (onWire (some .ack2) wire)
  keepAlives := UInt64.ofNat (onWire (some .keepAlive) wire)
  expirations := UInt64.ofNat (j.heard.countP (· matches .silence))
  octets := UInt64.ofNat (j.sent.map (·.payload.length)).sum

theorem ended_append (a b : Journal) (like : Progress → Bool) :
    (a.append b).ended like = a.ended like + b.ended like := List.countP_append

theorem served_append (a b : Journal) : (a.append b).served = a.served + b.served := by
  unfold served
  rw [ended_append, ended_append, ended_append]
  omega

end Journal

/-! ## §3. Adding counters. -/

namespace Statistics

/-- What was counted in two places. -/
def plus (s t : Statistics) : Statistics where
  sent := s.sent + t.sent
  retransmitted := s.retransmitted + t.retransmitted
  skipped := s.skipped + t.skipped
  naks := s.naks + t.naks
  acks := s.acks + t.acks
  ack2s := s.ack2s + t.ack2s
  keepAlives := s.keepAlives + t.keepAlives
  expirations := s.expirations + t.expirations
  octets := s.octets + t.octets

theorem plus_zero (s : Statistics) : s.plus {} = s := by
  unfold plus
  simp only [UInt64.add_zero]

theorem countSent_eq (s : Statistics) (payload : Nat) :
    s.countSent payload = s.plus { sent := 1, octets := UInt64.ofNat payload } := by
  unfold countSent plus
  simp only [UInt64.add_zero]

theorem countRetransmitted_eq (s : Statistics) :
    s.countRetransmitted = s.plus { retransmitted := 1 } := by
  unfold countRetransmitted plus
  simp only [UInt64.add_zero]

theorem countSkipped_eq (s : Statistics) : s.countSkipped = s.plus { skipped := 1 } := by
  unfold countSkipped plus
  simp only [UInt64.add_zero]

theorem countAnswered_eq (s : Statistics) :
    s.countAck.countAck2 = s.plus { acks := 1, ack2s := 1 } := by
  unfold countAck countAck2 plus
  simp only [UInt64.add_zero]

theorem countKeepAlive_eq (s : Statistics) : s.countKeepAlive = s.plus { keepAlives := 1 } := by
  unfold countKeepAlive plus
  simp only [UInt64.add_zero]

end Statistics

namespace Journal

/-- What is counted one after the other is counted together. -/
theorem counters_append (a b : Journal) (wire more : List Packet) :
    (a.append b).counters (wire ++ more) = (a.counters wire).plus (b.counters more) := by
  have hsent : (a.append b).sent = a.sent ++ b.sent := rfl
  have hheard : (a.append b).heard = a.heard ++ b.heard := rfl
  unfold counters Statistics.plus
  simp only [hsent, hheard, ended_append, onWire_append, List.length_append, List.countP_append,
    List.map_append, List.sum_append, UInt64.ofNat_add]

/-- The arrival of feedback is counted. -/
theorem count_eq (s : Statistics) (heard : Option Feedback) :
    heard.elim s (Feedback.count s) = s.plus (counters { heard := heard.toList } []) := by
  match heard with
  | none => exact s.plus_zero.symm
  | some (.acknowledgment _ _) =>
    show s.countAck = s.plus { acks := 1 }
    unfold Statistics.countAck Statistics.plus
    simp only [UInt64.add_zero]
  | some (.lossReport _ _) =>
    show s.countNak = s.plus { naks := 1 }
    unfold Statistics.countNak Statistics.plus
    simp only [UInt64.add_zero]
  | some .silence =>
    show s.countExpiration = s.plus { expirations := 1 }
    unfold Statistics.countExpiration Statistics.plus
    simp only [UInt64.add_zero]

end Journal

/-! ## §4. What happens to packets and losses. -/

/-- How an iteration ends, as soon as that is certain. -/
def Stage.result? : Stage → Option (Except Fault Progress)
  | .settling _ outcome | .done outcome => some outcome
  | _ => none

/-- The loss whose packet is at hand and not sent yet. -/
def Stage.atHand : Stage → List Nat
  | .resending p => [p.sequence]
  | _ => []

/-- The loss that was taken out of the list and not dealt with yet. -/
def Stage.serving (s : Stage) : List Nat := s.taken ++ s.atHand

namespace Iteration

variable {σ τ : Type} [Sink σ]

/-- The packet that an event sends as new data. -/
def newlySent (i : Iteration σ τ) : Event σ → List DataPacket
  | .act =>
    match i.attempt? with
    | some (p, .ok (.sent _)) => [p]
    | _ => []
  | .offer _ | .close | .signal _ => []

/-- The result that becomes certain with an event. -/
def decided (i : Iteration σ τ) : Event σ → List (Except Fault Progress)
  | .act => if i.stage.result?.isNone then i.advance.stage.result?.toList else []
  | .offer _ | .close | .signal _ => []

/-- The feedback that an event carries. -/
def Event.feedback? : Event σ → Option Feedback
  | .signal x => x.feedback?
  | .act | .offer _ | .close => none

variable [SilenceTimer τ]

/-- The packets that an event removes because they are acknowledged. -/
def removed (i : Iteration σ τ) (ev : Event σ) : List DataPacket :=
  ev.acknowledgment?.elim [] fun k => i.engine.buffer.entries.filter (i.engine.buffer.covers k)

/-- What an event enters into the journal. -/
def entry (i : Iteration σ τ) (ev : Event σ) : Journal where
  sent := i.newlySent ev
  removed := i.removed ev
  results := i.decided ev
  added := i.added ev
  lookedUp := i.lookedUp ev
  heard := ev.feedback?.toList

/-- The journal of a history. -/
def journal (i : Iteration σ τ) (history : List (Event σ)) : Journal where
  sent := gather apply newlySent i history
  removed := gather apply removed i history
  results := gather apply decided i history
  added := gather apply added i history
  lookedUp := gather apply lookedUp i history
  heard := history.filterMap Event.feedback?

theorem journal_concat (i : Iteration σ τ) (history : List (Event σ)) (ev : Event σ) :
    i.journal (history ++ [ev]) = (i.journal history).append ((i.replay history).entry ev) := by
  have hheard : [ev].filterMap Event.feedback? = ev.feedback?.toList := by
    cases h : ev.feedback? <;> simp [h]
  unfold journal Journal.append entry
  simp only [gather_concat, List.filterMap_append, hheard]
  rfl

/-! ## §5. The ledger of packets. -/

omit [SilenceTimer τ] in
theorem mem_newlySent {i : Iteration σ τ} {ev : Event σ} {p : DataPacket} :
    p ∈ i.newlySent ev ↔ ev = .act ∧ i.Sends p := by
  cases ev with
  | act =>
    unfold newlySent Sends attempt?
    cases hs : i.stage with
    | holding window q =>
      have ht := i.engine.transmits q
      simp only
      generalize i.engine.transmit q = r at ht ⊢
      cases ht with
      | duplicate | failed => simp
      | sent =>
        simp only [List.mem_singleton, true_and, Option.some.injEq, Prod.mk.injEq]
        constructor
        · rintro rfl
          exact ⟨rfl, rfl⟩
        · intro h
          exact h.1.symm
    | _ => simp
  | offer | close | signal => simp [newlySent]

omit [SilenceTimer τ] in
/-- An action sends one packet as new data at most. -/
theorem newlySent_of_sends {i : Iteration σ τ} {p : DataPacket} (h : i.Sends p) :
    i.newlySent .act = [p] := by
  have hattempt : i.attempt? = some (p, .ok (.sent p.sequence)) := h
  unfold newlySent
  rw [hattempt]

/-- **The ledger of packets, for one event.**  What is sent is in flight, and what is in
flight stays so until it is removed. -/
theorem packets_balance (i : Iteration σ τ) (ev : Event σ) :
    (i.newlySent ev ++ i.engine.buffer.entries).Perm
      (i.removed ev ++ (i.apply ev).engine.buffer.entries) := by
  have hnone : (∀ p, ¬ (ev = .act ∧ i.Sends p)) → i.newlySent ev = [] := by
    intro hidle
    exact List.eq_nil_iff_forall_not_mem.mpr fun p hp => hidle p (mem_newlySent.mp hp)
  have hchanges := i.changes ev
  unfold removed
  generalize (i.apply ev).engine.buffer = b at hchanges ⊢
  cases hchanges with
  | @pushes p honly hfree hsilent =>
    obtain ⟨rfl, hsends⟩ := (honly p).mpr rfl
    rw [newlySent_of_sends hsends, hsilent]
    exact (SendBuffer.push_entries_perm hfree).symm
  | @removes k hidle hnumber =>
    rw [hnone hidle, hnumber, SendBuffer.entries_removeUpTo]
    exact (List.filter_append_perm _ _).symm
  | keeps hidle hsilent =>
    rw [hnone hidle, hsilent]
    exact List.Perm.refl _

/-- **The ledger of packets.**  Each packet that was sent as new data is in flight, or an
acknowledgment removed it. -/
theorem packets_accounted (config : Config) (sink : σ) (timer : τ) (history : List (Event σ)) :
    ((fresh config sink timer).journal history).sent.Perm
      (((fresh config sink timer).journal history).removed
        ++ ((fresh config sink timer).replay history).engine.buffer.entries) := by
  show (gather apply newlySent (fresh config sink timer) history).Perm
    (gather apply removed (fresh config sink timer) history ++ _)
  have hempty : (fresh config sink timer).engine.buffer.entries = [] := rfl
  obtain ⟨hperm, _⟩ := balance_foldl (fun _ => True) newlySent removed
    (fun i : Iteration σ τ => i.engine.buffer.entries)
    (fun i _ ev => ⟨i.packets_balance ev, trivial⟩) trivial history
  rw [hempty, List.append_nil] at hperm
  exact hperm

theorem length_sent (config : Config) (sink : σ) (timer : τ) (history : List (Event σ)) :
    ((fresh config sink timer).journal history).sent.length
      = ((fresh config sink timer).journal history).removed.length
        + ((fresh config sink timer).replay history).engine.unacknowledged := by
  have hcounted : ((fresh config sink timer).replay history).engine.unacknowledged
      = ((fresh config sink timer).replay history).engine.buffer.entries.length :=
    (bufferSound_replay config sink timer history).counted
  rw [(packets_accounted config sink timer history).length_eq, List.length_append, hcounted]

theorem length_added (config : Config) (sink : σ) (timer : τ) (history : List (Event σ)) :
    ((fresh config sink timer).journal history).added.length
      = ((fresh config sink timer).journal history).lookedUp.length
        + ((fresh config sink timer).replay history).unserved.length := by
  have hperm := (accounts config sink timer history).1
  rw [← List.length_append]
  exact hperm.length_eq

end Iteration

/-! ## §6. What a signal puts on the wire and counts. -/

namespace Engine

variable {σ τ : Type} [Sink σ]

/-- What a signal puts on the wire and counts, if it carries this feedback. -/
inductive Hears (e e' : Engine (Wiretap σ) τ) : Option Feedback → Prop where
  | answered {now : Moment} {k : Nat}
      (wire : e'.sink.taken = e.sink.taken ++ [.control (e.toPeer now (.ack2 k))])
      (counts : e'.statistics = e.statistics.countAck.countAck2) :
      Hears e e' (some (.acknowledgment now k))
  | unanswered {heard : Option Feedback} (wire : e'.sink.taken = e.sink.taken)
      (counts : e'.statistics = heard.elim e.statistics (Feedback.count e.statistics)) :
      Hears e e' heard
  | keptAlive {now : Moment}
      (wire : e'.sink.taken = e.sink.taken ++ [.control (e.toPeer now .keepAlive)])
      (counts : e'.statistics = e.statistics.countKeepAlive) : Hears e e' none

theorem hears_acknowledge (e : Engine (Wiretap σ) τ) (now : Moment) (k : Nat) :
    Hears e (e.acknowledge now k).2 (some (.acknowledgment now k)) := by
  obtain ⟨ack2s, he, hcount⟩ := e.acknowledge_answered now k
  have htaken := Wiretap.attempt_taken_if (e.control now (.ack2 k)) e.sink
  rw [he]
  by_cases hok : (Sink.attempt (e.control now (.ack2 k)) e.sink).1 = .ok ()
  · rw [if_pos hok] at htaken hcount
    refine .answered htaken ?_
    rw [hcount]
    rfl
  · rw [if_neg hok] at htaken hcount
    refine .unanswered (htaken.trans (List.append_nil _)) ?_
    rw [hcount, UInt64.add_zero]
    rfl

theorem hears_sendKeepAlive (e : Engine (Wiretap σ) τ) (now : Moment) :
    Hears e (e.sendKeepAlive now).2 none := by
  have hsend : e.sendControl now .keepAlive
      = ((Sink.attempt (.control (e.toPeer now .keepAlive)) e.sink).1,
        { e with sink := (Sink.attempt (.control (e.toPeer now .keepAlive)) e.sink).2 }) := rfl
  unfold sendKeepAlive
  rw [hsend]
  rcases hr : Sink.attempt (.control (e.toPeer now .keepAlive)) e.sink with ⟨fault | _, sink⟩
  · exact .unanswered (Wiretap.taken_of_error hr) rfl
  · exact .keptAlive (Wiretap.taken_of_ok hr) rfl

variable [SilenceTimer τ]

theorem hears (e : Engine (Wiretap σ) τ) {x : Signal (Wiretap σ)} (hx : x.KeepsRecord) :
    Hears e (e.handle x) x.feedback? := by
  cases x with
  | acknowledge now k => exact e.hears_acknowledge now k
  | receive now p =>
    rcases p with ⟨timestamp, destination, _ | a | report | number | _⟩
    case ack => exact e.hears_acknowledge now a.number
    -- The other packets are not answered.
    all_goals exact .unanswered rfl rfl
  | keepAlive now => exact e.hears_sendKeepAlive now
  | modifySink f => exact .unanswered (hx e.sink) rfl
  | negativeAcknowledge | expire | setFlowWindow | setDestination | packetize | nextSequence
  | requestStop => exact .unanswered rfl rfl

end Engine

/-! ## §7. What an event puts on the wire, counts and enters. -/

namespace Iteration

variable {σ τ : Type} [Sink σ] [SilenceTimer τ]

/-- An event puts these packets on the wire, and counts them and what it enters into the
journal.  A loss that it looks up is dealt with, or its packet is at hand. -/
structure Books (i i' : Iteration (Wiretap σ) τ) (g : Journal) (out : List Packet) : Prop where
  wire : i'.engine.sink.taken = i.engine.sink.taken ++ out
  counts : i'.engine.statistics = i.engine.statistics.plus (g.counters out)
  data : onWire none out = g.sent.length + g.ended (· matches .retransmitted _)
  answers : g.ended (· matches .sent _) = g.sent.length
  service : g.lookedUp.length + i.stage.atHand.length = g.served + i'.stage.atHand.length

omit [SilenceTimer τ] in
/-- An action of the loop that the sink survives is booked. -/
theorem books_act {i : Iteration (Wiretap σ) τ} (hcrash : .error .crash ∉ i.decided .act) :
    ∃ out, Books i i.act (i.entry .act) out := by
  have hadv := i.advances
  have hsilent : ∀ wire : List Packet, wire = wire ++ [] := fun wire => (List.append_nil _).symm
  have huncounted : ∀ s : Statistics, s = s.plus {} := fun s => s.plus_zero.symm
  unfold entry Event.feedback?
  generalize i.removed .act = removed
  generalize i.added .act = added
  unfold newlySent decided lookedUp attempt? act at *
  generalize i.advance = i' at hadv hcrash ⊢
  obtain ⟨e, q, stage⟩ := i
  cases hadv with
  | skipsLoss hs =>
    cases hs
    exact ⟨[], hsilent _, e.statistics.countSkipped_eq, rfl, rfl, rfl⟩
  | @resends p hs =>
    cases hs
    have hr := e.resends p
    simp only at hcrash ⊢
    generalize e.resend p = r at hr hcrash ⊢
    cases hr with
    | again hout =>
      have hwire := Wiretap.taken_of_ok hout
      exact ⟨[.data p], hwire, e.statistics.countRetransmitted_eq, rfl, rfl, rfl⟩
    | refused herror =>
      have hwire := (Wiretap.taken_of_error herror).trans (hsilent _)
      exact ⟨[], hwire, huncounted _, rfl, rfl, rfl⟩
    | crashes => exact absurd (List.mem_singleton.mpr rfl) hcrash
  | @transmits window p hs =>
    cases hs
    have ht := e.transmits p
    simp only at hcrash ⊢
    generalize e.transmit p = r at ht hcrash ⊢
    cases ht with
    | duplicate => exact ⟨[], hsilent _, huncounted _, rfl, rfl, rfl⟩
    | sent _ hout =>
      have hwire := Wiretap.taken_of_ok hout
      exact ⟨[.data p], hwire, e.statistics.countSent_eq p.payload.length, rfl, rfl, rfl⟩
    | failed _ herror =>
      have hwire := (Wiretap.taken_of_error herror).trans (hsilent _)
      exact ⟨[], hwire, huncounted _, rfl, rfl, rfl⟩
  | crashes hs =>
    cases hs
    exact absurd (List.mem_singleton.mpr rfl) hcrash
  | pollsNothing hs _ hverdict =>
    cases hs
    rw [hverdict]
    by_cases hp : q.producers = 0
    · rw [if_pos hp]
      exact ⟨[], hsilent _, huncounted _, rfl, rfl, rfl⟩
    · rw [if_neg hp]
      exact ⟨[], hsilent _, huncounted _, rfl, rfl, rfl⟩
  -- The other actions look, or move a number or a packet, and count nothing.
  | findsLoss hs | takesLoss hs | seesLoss hs | seesNone hs | countsFlight hs | readsWindow hs
  | windowFull hs | pollsPacket hs | settles hs | rests hs =>
    cases hs
    exact ⟨[], hsilent _, huncounted _, rfl, rfl, rfl⟩

/-- A signal is booked. -/
theorem books_signal (i : Iteration (Wiretap σ) τ) {x : Signal (Wiretap σ)} (hx : x.KeepsRecord) :
    ∃ out, Books i (i.apply (.signal x)) (i.entry (.signal x)) out := by
  have hhears := i.engine.hears hx
  unfold entry
  show ∃ out, Books i { i with engine := i.engine.handle x }
    { sent := [], removed := _, results := [], added := _, lookedUp := [],
      heard := x.feedback?.toList } out
  generalize i.removed (.signal x) = removed
  generalize i.added (.signal x) = added
  generalize x.feedback? = heard at hhears ⊢
  generalize i.engine.handle x = e at hhears ⊢
  cases hhears with
  | @answered now k hwire hcounts =>
    refine ⟨[.control (i.engine.toPeer now (.ack2 k))], hwire, ?_, rfl, rfl, rfl⟩
    exact hcounts.trans (Statistics.countAnswered_eq _)
  | unanswered hwire hcounts =>
    refine ⟨[], hwire.trans (List.append_nil _).symm, ?_, rfl, rfl, rfl⟩
    exact hcounts.trans (Journal.count_eq _ _)
  | @keptAlive now hwire hcounts =>
    refine ⟨[.control (i.engine.toPeer now .keepAlive)], hwire, ?_, rfl, rfl, rfl⟩
    exact hcounts.trans (Statistics.countKeepAlive_eq _)

theorem books {i : Iteration (Wiretap σ) τ} {ev : Event (Wiretap σ)}
    (hkeeps : ∀ x, ev = .signal x → x.KeepsRecord) (hcrash : .error .crash ∉ i.decided ev) :
    ∃ out, Books i (i.apply ev) (i.entry ev) out := by
  cases ev with
  | act => exact books_act hcrash
  | offer | close => exact ⟨[], (List.append_nil _).symm, (Statistics.plus_zero _).symm, rfl, rfl, rfl⟩
  | signal x => exact i.books_signal (hkeeps x rfl)

/-! ## §8. The counters, the wire and the state of a history. -/

/-- The counters and the wire are as the journal says. -/
structure Agrees (i : Iteration (Wiretap σ) τ) (j : Journal) : Prop where
  counts : i.engine.statistics = j.counters i.engine.sink.taken
  data : onWire none i.engine.sink.taken = j.sent.length + j.ended (· matches .retransmitted _)
  answers : j.ended (· matches .sent _) = j.sent.length
  /-- What was looked up was dealt with, or its packet is at hand. -/
  service : j.lookedUp.length = j.served + i.stage.atHand.length

omit [Sink σ] [SilenceTimer τ] in
theorem Agrees.book {i i' : Iteration (Wiretap σ) τ} {j g : Journal} {out : List Packet}
    (h : i.Agrees j) (hbooks : Books i i' g out) : i'.Agrees (j.append g) := by
  obtain ⟨hwire, hcounts, hdata, hanswers, hservice⟩ := hbooks
  have hsent : (j.append g).sent.length = j.sent.length + g.sent.length := List.length_append
  have hlooked : (j.append g).lookedUp.length = j.lookedUp.length + g.lookedUp.length :=
    List.length_append
  obtain ⟨hcounted, hbefore, hanswered, hserved⟩ := h
  refine ⟨?_, ?_, ?_, ?_⟩
  · rw [hcounts, hcounted, hwire, Journal.counters_append]
  · rw [hwire, onWire_append, hsent, Journal.ended_append]
    omega
  · rw [Journal.ended_append, hsent]
    omega
  · rw [hlooked, Journal.served_append]
    omega

variable (config : Config) (sink : σ) (timer : τ)

/-- **The counters and the wire are as the journal says**, at every moment of a history in
which the sink does not crash. -/
theorem agrees_replay {history : List (Event (Wiretap σ))}
    (hkeeps : ∀ x, .signal x ∈ history → x.KeepsRecord)
    (hcrash : .error .crash
      ∉ ((fresh config { sink } timer : Iteration (Wiretap σ) τ).journal history).results) :
    ((fresh config { sink } timer).replay history).Agrees
      ((fresh config { sink } timer : Iteration (Wiretap σ) τ).journal history) := by
  induction history using List.reverseRecOn with
  | nil => exact ⟨rfl, rfl, rfl, rfl⟩
  | append_singleton history ev ih =>
    rw [journal_concat] at hcrash ⊢
    rw [replay_concat]
    have hbefore := ih (fun x hx => hkeeps x (List.mem_append_left _ hx))
      fun hmem => hcrash (List.mem_append_left _ hmem)
    have hkeep : ∀ x, ev = .signal x → x.KeepsRecord := by
      rintro x rfl
      exact hkeeps x List.mem_concat_self
    obtain ⟨out, hbooks⟩ := books hkeep fun hmem => hcrash (List.mem_append_right _ hmem)
    exact hbefore.book hbooks

/-- **The counters agree with the wire and with the state.**  At every moment, if the sink
has not crashed, and modulo 2⁶⁴: the data packets on the wire are those counted as sent and
as sent again; the octets are those of the packets sent as new data; in flight is what was
sent and not removed; the answers on the wire are counted, and so are all acknowledgments,
and the keep-alives; and each number that was new in the loss list was sent again, skipped or
refused, or the loop is dealing with it, or it waits. -/
theorem statistics_reconciled {history : List (Event (Wiretap σ))}
    (hkeeps : ∀ x, .signal x ∈ history → x.KeepsRecord)
    (hcrash : .error .crash
      ∉ ((fresh config { sink } timer : Iteration (Wiretap σ) τ).journal history).results) :
    let start : Iteration (Wiretap σ) τ := fresh config { sink } timer
    let i := start.replay history
    let j := start.journal history
    let s := i.engine.statistics
    let wire := i.engine.sink.taken
    UInt64.ofNat (onWire none wire) = s.sent + s.retransmitted
      ∧ s.sent = UInt64.ofNat (j.ended (· matches .sent _))
      ∧ s.octets = UInt64.ofNat (j.sent.map (·.payload.length)).sum
      ∧ UInt64.ofNat i.engine.unacknowledged = s.sent - UInt64.ofNat j.removed.length
      ∧ UInt64.ofNat (onWire (some .ack2) wire) = s.ack2s
      ∧ s.acks = UInt64.ofNat (j.heard.countP (· matches .acknowledgment _ _))
      ∧ UInt64.ofNat (onWire (some .keepAlive) wire) = s.keepAlives
      ∧ UInt64.ofNat j.added.length
        = s.retransmitted + s.skipped + UInt64.ofNat (j.ended (· matches .retransmitFailed _))
          + UInt64.ofNat i.engine.losses.size + UInt64.ofNat i.stage.serving.length := by
  intro start i j s wire
  obtain ⟨hcounts, hdata, hanswers, hservice⟩ := agrees_replay config sink timer hkeeps hcrash
  have hs : s = j.counters wire := hcounts
  have hwire : onWire none wire = j.sent.length + j.ended (· matches .retransmitted _) := hdata
  have hended : j.ended (· matches .sent _) = j.sent.length := hanswers
  have hsent : j.sent.length = j.removed.length + i.engine.unacknowledged :=
    length_sent config { sink } timer history
  -- What waits, what is about to be looked up and what is at hand make up the rest.
  have hadded : j.added.length = j.ended (· matches .retransmitted _)
      + j.ended (· matches .skipped _) + j.ended (· matches .retransmitFailed _)
      + i.engine.losses.size + i.stage.serving.length := by
    have hlooked : j.lookedUp.length = j.served + i.stage.atHand.length := hservice
    have hlosses : j.added.length = j.lookedUp.length + i.unserved.length :=
      length_added config { sink } timer history
    have hunserved : i.unserved.length = i.stage.taken.length + i.engine.losses.size :=
      List.length_append
    have hserving : i.stage.serving.length = i.stage.taken.length + i.stage.atHand.length :=
      List.length_append
    unfold Journal.served at hlooked
    omega
  rw [hs]
  refine ⟨?_, ?_, rfl, ?_, rfl, rfl, rfl, ?_⟩
  · rw [hwire, UInt64.ofNat_add]
    rfl
  · rw [hended]
    rfl
  · show _ = UInt64.ofNat j.sent.length - UInt64.ofNat j.removed.length
    rw [hsent, UInt64.ofNat_add, UInt64.add_comm, UInt64.add_sub_cancel]
  · rw [hadded, UInt64.ofNat_add, UInt64.ofNat_add, UInt64.ofNat_add, UInt64.ofNat_add]
    rfl

/-- Packet 0 is sent, and 0 and 5 are reported lost: the sink refuses to send 0 again, and
the loop has just taken up 5. -/
theorem reconciled_in_the_middle :
    let start : Iteration (Wiretap FaultySink) NoTimer := fresh {} { sink := {} } {}
    let refusing : Signal (Wiretap FaultySink) :=
      .modifySink fun w => { w with sink := { w.sink with refuseData := true } }
    let history : List (Event (Wiretap FaultySink)) :=
      .offer { sequence := 0, payload := [1, 2] } :: List.replicate 6 .act
        ++ [.signal (.negativeAcknowledge 0 [0, 5]), .signal refusing]
        ++ List.replicate 8 .act
    let i := start.replay history
    let j := start.journal history
    (∀ x, .signal x ∈ history → x.KeepsRecord) ∧ .error .crash ∉ j.results
      ∧ j.added = [0, 5] ∧ i.stage.serving = [5]
      ∧ UInt64.ofNat i.engine.unacknowledged
        = i.engine.statistics.sent - UInt64.ofNat j.removed.length
      ∧ UInt64.ofNat j.added.length
        = i.engine.statistics.retransmitted + i.engine.statistics.skipped
          + UInt64.ofNat (j.ended (· matches .retransmitFailed _))
          + UInt64.ofNat i.engine.losses.size + UInt64.ofNat i.stage.serving.length := by
  intro start refusing history i j
  have hkeeps : ∀ x, .signal x ∈ history → x.KeepsRecord := by
    intro x hx
    simp only [history, List.cons_append, List.mem_append, List.mem_cons, List.mem_replicate,
      reduceCtorEq, Event.signal.injEq, List.not_mem_nil, and_false, or_false, false_or] at hx
    rcases hx with rfl | rfl
    · trivial
    · exact fun w => rfl
  have hresults : j.results = [.ok (.sent 0), .ok (.retransmitFailed 0)] := by cbv
  have hcrash : .error .crash ∉ j.results := by
    rw [hresults]
    simp
  have hadded : j.added = [0, 5] := by cbv
  have hserving : (start.replay history).stage.serving = [5] := by cbv
  clear_value history
  obtain ⟨_, _, _, hflight, _, _, _, hlosses⟩ :=
    statistics_reconciled {} ({} : FaultySink) ({} : NoTimer) hkeeps hcrash
  exact ⟨hkeeps, hcrash, hadded, hserving, hflight, hlosses⟩

end Iteration

end ReliableSender
