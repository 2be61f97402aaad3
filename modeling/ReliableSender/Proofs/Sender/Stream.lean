/-
  ReliableSender.Proofs.Sender.Stream
  ───────────────────────────────────
  **WHAT IS WRITTEN IS WHAT IS SENT, OCTET BY OCTET.**

  If data enters through writes only, packets keep one order from the
  messages to the wire.  Each stage hands on a prefix of what the stage
  before it has:

      packets of the messages  ⊇  accepted  ⊇  attempted  ⊇  on the wire

  The first is numbered 0, 1, 2, …, so no number is attempted twice, no
  packet is dropped as a duplicate, and a number occurs again on the wire
  only when a packet is retransmitted.

      streaming_replay  — the queue accepts the packets of the messages in order
      recorded_replay   — the first transmissions are the transmitted packets
      halting_replay    — nothing is attempted after a failure
      stream_integrity  — all stages together
-/
import ReliableSender.Proofs.Engine.Fragment
import ReliableSender.Proofs.Sender.Outstanding
import ReliableSender.Proofs.Transport.Wiretap

namespace ReliableSender

/-! ## §1. Writing. -/

/-- Data enters through writes only, and nobody else takes sequence numbers. -/
def Sender.Event.IsWriting {σ : Type} : Sender.Event (Wiretap σ) → Prop
  | .announce _ => False
  | .signal x => x.issuesNumber = false ∧ x.KeepsRecord
  | _ => True

namespace Ledger

/-- The packets of all messages. -/
def packets (l : Ledger) : List DataPacket := l.written.flatMap Prod.snd

/-- The octets of all messages. -/
def octets (l : Ledger) : Bytes := l.written.flatMap Prod.fst

theorem packets_append (l g : Ledger) : (l.append g).packets = l.packets ++ g.packets := by
  unfold packets append
  exact List.flatMap_append

end Ledger

/-- The packets of a write that are not in the queue yet. -/
def Writer.unsent : Writer → List DataPacket
  | offering _ rest => rest
  | waiting _ p rest => p :: rest
  | _ => []

theorem range_append_range' (m n : Nat) :
    List.range m ++ List.range' m n = List.range (m + n) := by
  have happend := List.range'_append_1 (s := 0) (m := m) (n := n)
  rw [Nat.zero_add] at happend
  rw [List.range_eq_range', List.range_eq_range']
  exact happend

theorem Writer.unsent_of_free {w : Writer} (h : w.isUnderWay = false) : w.unsent = [] := by
  cases w with
  | offering | waiting => exact absurd h.symm Bool.false_ne_true
  | _ => rfl

namespace Sender

variable {σ τ : Type}

/-- The messages and the queue tell the same story.  A write that was refused on the way
leaves a gap, but behind it nothing is accepted any more. -/
structure Streaming (s : Sender (Wiretap σ) τ) (l : Ledger) : Prop where
  alone : s.offers = []
  order : l.packets = l.accepted ++ s.writer.unsent
    ∨ s.queue.consumed = false ∧ l.accepted <+: l.packets ∧ ∃ e, Except.error e ∈ l.results
  numbers : l.packets.map DataPacket.sequence = List.range s.engine.sequences.issued
  whole : ∀ w ∈ l.written, w.2.flatMap DataPacket.payload = w.1
    ∧ ∃ m, ∀ p ∈ w.2, p.messageNumber = m

/-- Most events neither begin a write nor bring a packet into the queue. -/
theorem Streaming.keep {s s' : Sender (Wiretap σ) τ} {l g : Ledger} (hi : s.Streaming l)
    (ho : s'.offers = s.offers) (hu : s'.writer.unsent = s.writer.unsent)
    (hc : s.queue.consumed = false → s'.queue.consumed = false)
    (hn : s'.engine.sequences = s.engine.sequences)
    (hw : g.written = []) (ha : g.accepted = []) : s'.Streaming (l.append g) := by
  have hwritten : (l.append g).written = l.written := by
    show l.written ++ g.written = l.written
    rw [hw, List.append_nil]
  have hpackets : (l.append g).packets = l.packets := congrArg (List.flatMap Prod.snd) hwritten
  have haccepted : (l.append g).accepted = l.accepted := by
    show l.accepted ++ g.accepted = l.accepted
    rw [ha, List.append_nil]
  refine ⟨ho.trans hi.alone, ?_, ?_, ?_⟩
  · rw [hpackets, haccepted, hu]
    rcases hi.order with horder | ⟨hclosed, hbegins, e, he⟩
    · exact Or.inl horder
    · exact Or.inr ⟨hc hclosed, hbegins, e, List.mem_append_left _ he⟩
  · rw [hpackets, hn]
    exact hi.numbers
  · rw [hwritten]
    exact hi.whole

/-- Only a queue that was given up refuses for good. -/
theorem consumed_of_closed {s : Sender (Wiretap σ) τ} (h : s.admission = .closed) :
    s.queue.consumed = false := by
  unfold admission at h
  split at h
  · exact absurd h (by simp)
  · exact IngressQueue.admission_eq_closed_iff.mp h

theorem accepted_begins {s : Sender (Wiretap σ) τ} {l : Ledger} (hi : s.Streaming l) :
    l.accepted <+: l.packets := by
  rcases hi.order with horder | ⟨_, hbegins, _⟩
  · exact ⟨_, horder.symm⟩
  · exact hbegins

/-- No number is attempted twice. -/
theorem attempted_nodup {s : Sender (Wiretap σ) τ} {l : Ledger} (hs : s.places.Consistent l)
    (hi : s.Streaming l) : (l.attempted.map fun a => a.1.sequence).Nodup := by
  have hbegins := (accepted_begins hi).map DataPacket.sequence
  rw [hi.numbers] at hbegins
  exact attempted_distinct hs (List.Nodup.sublist hbegins.sublist List.nodup_range)

variable [Sink σ] [SilenceTimer τ]

theorem streaming_changes {s s' : Sender (Wiretap σ) τ} {ev : Event (Wiretap σ)} {l g : Ledger}
    (h : Changes s ev s' g) (hev : ev.IsWriting) (hs : s.places.Consistent l)
    (hi : s.Streaming l) : s'.Streaming (l.append g) := by
  cases h with
  | announces => exact absurd hev id
  | accepts hn | takesBack hn =>
    -- Nobody else has announced a packet.
    rw [hi.alone] at hn
    exact absurd hn (by simp)
  | @begins _ now message hfree =>
    have hpackets : (l.append { written := [(message, (s.engine.fragment now message).1)] }).packets
        = l.packets ++ (s.engine.fragment now message).1 := by
      rw [Ledger.packets_append]
      exact congrArg (l.packets ++ ·) (List.append_nil _)
    have haccepted : (l.append
        { written := [(message, (s.engine.fragment now message).1)] }).accepted = l.accepted :=
      List.append_nil _
    refine ⟨hi.alone, ?_, ?_, fun w hw => ?_⟩
    · -- No write is under way, so all packets of earlier messages are accepted.
      rw [hpackets, haccepted]
      rcases hi.order with horder | ⟨hclosed, hbegins, e, he⟩
      · rw [Writer.unsent_of_free hfree, List.append_nil] at horder
        exact Or.inl (by rw [horder]; rfl)
      · exact Or.inr ⟨hclosed, hbegins.trans (List.prefix_append _ _), e,
          List.mem_append_left _ he⟩
    · rw [hpackets, List.map_append, hi.numbers, Engine.fragment_sequence,
        Engine.length_fragment]
      exact range_append_range' _ _
    · rcases List.mem_append.mp hw with hw | hw
      · exact hi.whole w hw
      · obtain rfl := List.mem_singleton.mp hw
        exact ⟨s.engine.fragment_payload now message, _,
          fun p hp => s.engine.fragment_messageNumber now message hp⟩
  | @acceptsNext total p rest hw hroom =>
    have hunsent : s.writer.unsent = p :: rest := by
      rw [hw]
      rfl
    have hpackets : (l.append { accepted := [p] }).packets = l.packets := by
      rw [Ledger.packets_append]
      exact List.append_nil _
    refine ⟨hi.alone, Or.inl ?_, ?_, fun w hw => ?_⟩
    · rw [hpackets]
      rcases hi.order with horder | ⟨hclosed, _⟩
      · show l.packets = l.accepted ++ [p] ++ rest
        rw [horder, hunsent, List.append_assoc]
        rfl
      · -- A queue that was given up has no room.
        have hends : s.queue.consumed = !s.worker.hasEnded := hs.closed
        rcases (room_of_accepted hroom).2 with hopen | hgoing
        · exact absurd (hclosed.symm.trans hopen) Bool.false_ne_true
        · rw [hclosed, hgoing] at hends
          exact absurd hends Bool.false_ne_true
    · rw [hpackets]
      exact hi.numbers
    · exact hi.whole w (by simpa [Ledger.append] using hw)
  | @refusesNext total p rest hw hclosed =>
    have hpackets : (l.append { results := [.error .stopped] }).packets = l.packets := by
      rw [Ledger.packets_append]
      exact List.append_nil _
    have haccepted : (l.append { results := [.error .stopped] }).accepted = l.accepted :=
      List.append_nil _
    -- The packets left over are the gap: from here on nothing is accepted.
    refine ⟨hi.alone, Or.inr ⟨consumed_of_closed hclosed, ?_, .stopped, ?_⟩, ?_, fun w hw => ?_⟩
    · rw [hpackets, haccepted]
      rcases hi.order with horder | ⟨_, hbegins, _⟩
      · exact ⟨s.writer.unsent, horder.symm⟩
      · exact hbegins
    · exact List.mem_append_right _ List.mem_cons_self
    · rw [hpackets]
      exact hi.numbers
    · exact hi.whole w (by simpa [Ledger.append] using hw)
  | turnsAway hfree =>
    exact hi.keep rfl (Writer.unsent_of_free hfree).symm id rfl rfl rfl
  | announcesNext hw | finishes hw =>
    refine hi.keep rfl ?_ id rfl rfl rfl
    rw [hw]
    rfl
  | signals x => exact hi.keep rfl rfl id (s.engine.handle_sequences hev.1) rfl rfl
  | resends hw => exact hi.keep rfl rfl id (s.engine.resend_sequences _) rfl rfl
  | transmits hw | crashes hw => exact hi.keep rfl rfl id (s.engine.transmit_sequences _) rfl rfl
  | closes hw => exact hi.keep rfl rfl (fun _ => rfl) rfl rfl rfl
  | starts | leaves | looks | polls | settles | concludes | flags | joins | stays =>
    exact hi.keep rfl rfl id rfl rfl rfl

/-- A history in which data enters through writes only. -/
abbrev Writing (history : List (Event (Wiretap σ))) : Prop := ∀ ev ∈ history, ev.IsWriting

theorem streaming_replay (config : Config) (sink : Wiretap σ) (timer : τ)
    {history : List (Event (Wiretap σ))} (hw : Writing history) :
    ((fresh config sink timer).replay history).Streaming
      ((fresh config sink timer).ledger history) := by
  induction history using List.reverseRecOn with
  | nil =>
    refine ⟨rfl, Or.inl rfl, rfl, fun w hw => ?_⟩
    exact absurd hw List.not_mem_nil
  | append_singleton history ev ih =>
    rw [replay_concat, ledger_concat]
    have hbefore : Writing history := fun x hx => hw x (List.mem_append_left _ hx)
    exact streaming_changes (changes _ ev) (hw ev (List.mem_append_right _ List.mem_cons_self))
      (consistent_replay config sink timer history) (ih hbefore)

end Sender

/-! ## §2. On the wire. -/

/-- Between two iterations no packet is at hand. -/
theorem Worker.after_ne_working (outcome : Except Fault Progress) (stage : Stage) :
    Worker.after outcome ≠ .working stage := by
  unfold Worker.after
  split <;> simp

namespace Sender

variable {σ τ : Type}

/-- The record of the wire and the ledger tell the same story. -/
structure Recorded (s : Sender (Wiretap σ) τ) (l : Ledger) : Prop where
  firsts : firstTransmissions s.engine.sink.taken = l.sent
  /-- What is about to be sent again was sent before. -/
  again : ∀ p, s.worker = .working (.resending p) → p ∈ l.sent

theorem Recorded.keep {s s' : Sender (Wiretap σ) τ} {l g : Ledger} (hi : s.Recorded l)
    (ha : g.attempted = [])
    (hf : firstTransmissions s'.engine.sink.taken = firstTransmissions s.engine.sink.taken)
    (hagain : ∀ p, s'.worker = .working (.resending p) → p ∈ l.sent) :
    s'.Recorded (l.append g) := by
  have hsent : (l.append g).sent = l.sent := by
    unfold Ledger.sent
    show ((l.attempted ++ g.attempted).filter Ledger.isSent).map Prod.fst = _
    rw [ha, List.append_nil]
  refine ⟨hf.trans (hi.firsts.trans hsent.symm), fun p hp => ?_⟩
  rw [hsent]
  exact hagain p hp

variable [Sink σ]

/-- An attempt at a packet whose number is new. -/
theorem recorded_transmit {s : Sender (Wiretap σ) τ} {l : Ledger} {p : DataPacket}
    (hnew : p.sequence ∉ l.sent.map DataPacket.sequence) (hi : s.Recorded l) :
    firstTransmissions (s.engine.transmit p).2.sink.taken
      = (l.append { attempted := [(p, (s.engine.transmit p).1)] }).sent := by
  rw [Ledger.sent_append]
  have ht := s.engine.transmits p
  generalize s.engine.transmit p = r at ht ⊢
  cases ht with
  | duplicate htaken =>
    show firstTransmissions s.engine.sink.taken = l.sent ++ []
    rw [List.append_nil, hi.firsts]
  | @sent sink hfree hout =>
    have htaken : sink.taken = s.engine.sink.taken ++ [.data p] := by
      have hnoted := Wiretap.attempt_taken (.data p) s.engine.sink
      rw [hout] at hnoted
      exact hnoted
    show firstTransmissions sink.taken = l.sent ++ [p]
    rw [← hi.firsts] at hnew ⊢
    rw [htaken, firstTransmissions_concat_new hnew]
  | @failed fault sink hfree hrefused =>
    have htaken : sink.taken = s.engine.sink.taken := by
      have hnoted := Wiretap.attempt_taken (.data p) s.engine.sink
      rw [hrefused] at hnoted
      exact hnoted
    show firstTransmissions sink.taken = l.sent ++ []
    rw [htaken, List.append_nil, hi.firsts]

variable [SilenceTimer τ]

theorem recorded_changes {s s' : Sender (Wiretap σ) τ} {ev : Event (Wiretap σ)} {l g : Ledger}
    (h : Changes s ev s' g) (hev : ev.IsWriting)
    (hbuffer : ∀ p ∈ s.engine.buffer.entries, p ∈ l.sent)
    (hnew : ∀ a ∈ g.attempted, a.1.sequence ∉ l.sent.map DataPacket.sequence)
    (hi : s.Recorded l) : s'.Recorded (l.append g) := by
  cases h with
  | looks _ _ _ _ hresends =>
    -- What is chosen to be sent again is in the buffer, so it was transmitted.
    refine hi.keep rfl rfl fun p hp => ?_
    exact hbuffer p (hresends p (Worker.working.inj hp))
  | @resends p hw =>
    -- The number is on the record, so sending it again is no first transmission.
    have hagain : p.sequence ∈ (firstTransmissions s.engine.sink.taken).map DataPacket.sequence := by
      rw [hi.firsts]
      exact List.mem_map_of_mem (hi.again p hw)
    refine hi.keep rfl ?_ fun q hq => ?_
    · obtain ⟨outcome, statistics, he⟩ := s.engine.resend_eq p
      show firstTransmissions (s.engine.resend p).2.sink.taken = _
      rw [he]
      show firstTransmissions (Sink.attempt (.data p) s.engine.sink).2.taken = _
      rw [Wiretap.attempt_taken]
      exact firstTransmissions_noted_again hagain _
    · exact absurd (Worker.working.inj hq) (by simp)
  | @transmits window p hw halive =>
    have hp := hnew _ List.mem_cons_self
    refine ⟨recorded_transmit hp hi, fun q hq => ?_⟩
    exact absurd (Worker.working.inj hq) (by simp)
  | @crashes window p hw hcrash =>
    have hp := hnew _ List.mem_cons_self
    rw [← hcrash]
    refine ⟨recorded_transmit hp hi, fun q hq => ?_⟩
    exact absurd (Worker.working.inj hq) (by simp)
  | @concludes outcome hw =>
    exact hi.keep rfl rfl fun p hp => absurd hp (Worker.after_ne_working outcome _)
  | signals x => exact hi.keep rfl (s.engine.handle_firstTransmissions hev.2) hi.again
  | starts | polls | settles =>
    refine hi.keep rfl rfl fun p hp => ?_
    exact absurd (Worker.working.inj hp) (by simp)
  | leaves | flags | closes =>
    refine hi.keep rfl rfl fun p hp => ?_
    exact absurd hp (by simp)
  | announces | accepts | takesBack | begins | turnsAway | announcesNext | acceptsNext
  | refusesNext | finishes | joins | stays => exact hi.keep rfl rfl hi.again

theorem recorded_replay (config : Config) (sink : σ) (timer : τ)
    {history : List (Event (Wiretap σ))} (hw : Writing history) :
    ((fresh config (Wiretap.mk sink []) timer).replay history).Recorded
      ((fresh config (Wiretap.mk sink []) timer).ledger history) := by
  induction history using List.reverseRecOn with
  | nil =>
    refine ⟨rfl, fun p hp => ?_⟩
    exact absurd hp (by simp [fresh, spawn, replay])
  | append_singleton history ev ih =>
    have hbefore : Writing history := fun x hx => hw x (List.mem_append_left _ hx)
    have hev := hw ev (List.mem_append_right _ List.mem_cons_self)
    have hnodup := attempted_nodup
      (consistent_replay config (Wiretap.mk sink []) timer (history ++ [ev]))
      (streaming_replay config (Wiretap.mk sink []) timer hw)
    rw [ledger_concat] at hnodup
    rw [replay_concat, ledger_concat]
    refine recorded_changes (changes _ ev) hev
      (traced_replay config (Wiretap.mk sink []) timer history).sent (fun a ha hold => ?_)
      (ih hbefore)
    -- A number that was sent was attempted, and then it is not attempted again.
    obtain ⟨p, hp, hsame⟩ := List.mem_map.mp hold
    obtain ⟨b, hb, rfl⟩ := Ledger.mem_attempted_of_mem_sent hp
    exact (Ledger.distinct_of_append hnodup).2 b hb a ha hsame

end Sender

/-! ## §3. After a failure. -/

/-- The worker comes to no further attempt. -/
def Worker.isDoomed : Worker → Bool
  | working (.settling _ (.error _)) | working (.done (.error _)) => true
  | leaving _ | closing _ | ended _ => true
  | _ => false

/-- Either all attempts came to an answer of the engine, or the last one failed and there
will be no other. -/
def Ledger.Halting (l : Ledger) (w : Worker) : Prop :=
  (∀ a ∈ l.attempted, ∃ progress, a.2 = .ok progress)
    ∨ ∃ begun p fault, l.attempted = begun ++ [(p, .error fault)]
        ∧ (∀ a ∈ begun, ∃ progress, a.2 = .ok progress) ∧ w.isDoomed = true

namespace Sender

variable {σ τ : Type}

/-- An event without an attempt does not save a worker. -/
theorem Halting.keep {l g : Ledger} {w w' : Worker} (hi : l.Halting w) (ha : g.attempted = [])
    (hw : w.isDoomed = true → w'.isDoomed = true) : (l.append g).Halting w' := by
  have hattempted : (l.append g).attempted = l.attempted := by
    show l.attempted ++ g.attempted = l.attempted
    rw [ha, List.append_nil]
  unfold Ledger.Halting
  rw [hattempted]
  rcases hi with hfine | ⟨begun, p, fault, hlast, hfine, hdoomed⟩
  · exact Or.inl hfine
  · exact Or.inr ⟨begun, p, fault, hlast, hfine, hw hdoomed⟩

/-- A worker that attempts a packet has seen no failure. -/
theorem Halting.attempt {l : Ledger} {w w' : Worker} (hi : l.Halting w)
    (hlive : w.isDoomed = false) (p : DataPacket) (outcome : Except Fault Progress)
    (hw : ∀ fault, outcome = .error fault → w'.isDoomed = true) :
    (l.append { attempted := [(p, outcome)] }).Halting w' := by
  rcases hi with hfine | ⟨_, _, _, _, _, hdoomed⟩
  · cases outcome with
    | ok progress =>
      refine Or.inl fun a ha => ?_
      rcases List.mem_append.mp ha with ha | ha
      · exact hfine a ha
      · obtain rfl := List.mem_singleton.mp ha
        exact ⟨progress, rfl⟩
    | error fault => exact Or.inr ⟨l.attempted, p, fault, rfl, hfine, hw fault rfl⟩
  · exact absurd (hlive.symm.trans hdoomed) Bool.false_ne_true

theorem isDoomed_after {outcome : Except Fault Progress}
    (h : (Worker.working (.done outcome)).isDoomed = true) :
    (Worker.after outcome).isDoomed = true := by
  rcases outcome with (cause | _) | progress
  · rfl
  · rfl
  · exact absurd h Bool.false_ne_true

variable [Sink σ] [SilenceTimer τ]

theorem halting_changes {s s' : Sender σ τ} {ev : Event σ} {l g : Ledger}
    (h : Changes s ev s' g) (hi : l.Halting s.worker) : (l.append g).Halting s'.worker := by
  cases h with
  | starts hw | leaves hw | resends hw | polls hw =>
    refine Halting.keep hi rfl fun hdoomed => ?_
    rw [hw] at hdoomed
    exact absurd hdoomed Bool.false_ne_true
  | @looks stage stage' _ _ hw hbefore hgoing _ _ =>
    refine Halting.keep hi rfl fun hdoomed => ?_
    rw [hw] at hdoomed
    cases stage with
    | done outcome => exact absurd rfl (hgoing outcome)
    | settling => exact absurd hbefore Bool.false_ne_true
    | _ => exact absurd hdoomed Bool.false_ne_true
  | @transmits window p hw halive =>
    refine Halting.attempt hi (by rw [hw]; rfl) p _ fun fault hfault => ?_
    show (Worker.working (.settling window (s.engine.transmit p).1)).isDoomed = true
    rw [hfault]
    rfl
  | @crashes window p hw hcrash =>
    exact Halting.attempt hi (by rw [hw]; rfl) p _ fun _ _ => rfl
  | @settles window outcome hw =>
    refine Halting.keep hi rfl fun hdoomed => ?_
    rw [hw] at hdoomed
    cases outcome with
    | error => rfl
    | ok => exact absurd hdoomed Bool.false_ne_true
  | concludes hw =>
    refine Halting.keep hi rfl fun hdoomed => isDoomed_after ?_
    rw [← hw]
    exact hdoomed
  | flags | closes => exact Halting.keep hi rfl fun _ => rfl
  | announces | accepts | takesBack | begins | turnsAway | announcesNext | acceptsNext
  | refusesNext | finishes | signals | joins | stays => exact Halting.keep hi rfl id

theorem halting_replay (config : Config) (sink : σ) (timer : τ) (history : List (Event σ)) :
    ((fresh config sink timer).ledger history).Halting
      ((fresh config sink timer).replay history).worker := by
  induction history using List.reverseRecOn with
  | nil => exact Or.inl fun a ha => absurd ha List.not_mem_nil
  | append_singleton history ev ih =>
    rw [replay_concat, ledger_concat]
    exact halting_changes (changes _ ev) ih

end Sender

/-! ## §4. The whole way. -/

namespace Ledger

theorem sent_eq_attempted {l : Ledger} (h : ∀ a ∈ l.attempted, isSent a = true) :
    l.sent = l.attempted.map Prod.fst := by
  unfold sent
  rw [List.filter_eq_self.mpr h]

/-- If every attempt is a transmission or a failure, and a failure is the last one, then the
transmissions are a beginning of the attempts. -/
theorem sent_begins {l : Ledger} {w : Worker} (hi : l.Halting w)
    (hdecided : ∀ a ∈ l.attempted, isSent a = true ∨ ∃ fault, a.2 = .error fault) :
    l.sent <+: l.attempted.map Prod.fst := by
  rcases hi with hfine | ⟨begun, p, fault, hlast, hfine, _⟩
  · refine ⟨[], ?_⟩
    rw [List.append_nil, sent_eq_attempted fun a ha => isSent_of_ok (hdecided a ha) (hfine a ha)]
  · have hbegun : begun.filter isSent = begun := by
      refine List.filter_eq_self.mpr fun a ha => isSent_of_ok (hdecided a ?_) (hfine a ha)
      rw [hlast]
      exact List.mem_append_left _ ha
    unfold sent
    -- The failed attempt at the end is the only one that is not a transmission.
    rw [hlast, List.filter_append, hbegun]
    show (begun ++ []).map Prod.fst <+: _
    rw [List.append_nil, List.map_append]
    exact List.prefix_append _ _

end Ledger

/-- A beginning of 0, 1, 2, … is 0, 1, 2, … -/
theorem eq_range_of_prefix {xs : List Nat} {n : Nat} (h : xs <+: List.range n) :
    xs = List.range xs.length := by
  have htake := List.prefix_iff_eq_take.mp h
  have hle : xs.length ≤ n := by
    have hlength := h.length_le
    rw [List.length_range] at hlength
    exact hlength
  rw [List.take_range, Nat.min_eq_left hle] at htake
  exact htake

namespace Sender

variable {σ τ : Type}

/-- The payloads of the packets make the messages. -/
theorem payload_packets {s : Sender (Wiretap σ) τ} {l : Ledger} (hi : s.Streaming l) :
    l.packets.flatMap DataPacket.payload = l.octets := by
  have hwhole := hi.whole
  unfold Ledger.packets Ledger.octets
  rw [List.flatMap_assoc, List.flatMap_def, List.flatMap_def,
    List.map_congr_left fun w hw => (hwhole w hw).1]

/-- If nothing is on its way through the queue then all accepted packets were attempted. -/
theorem accepted_eq_attempted {s : Sender (Wiretap σ) τ} {l : Ledger}
    (hs : s.places.Consistent l) (hempty : s.counted l = []) :
    l.accepted = l.attempted.map Prod.fst := by
  have hlength := congrArg List.length hempty
  have hinHand := length_inHand hs
  unfold counted at hlength
  simp only [List.length_append, List.length_nil] at hlength
  have hheld : s.worker.held = [] := List.eq_nil_of_length_eq_zero (by omega)
  have hdiscarded : l.discarded = [] := List.eq_nil_of_length_eq_zero (by omega)
  have hwaiting : s.queue.waiting = [] := List.eq_nil_of_length_eq_zero (by omega)
  have hfifo : l.accepted
      = l.attempted.map Prod.fst ++ s.worker.held ++ l.discarded ++ s.queue.waiting := hs.fifo
  rw [hfifo, hheld, hdiscarded, hwaiting]
  simp only [List.append_nil]

/-- If every write has returned without an error then all packets were accepted. -/
theorem packets_eq_accepted {s : Sender (Wiretap σ) τ} {l : Ledger} (hi : s.Streaming l)
    (hresults : ∀ r ∈ l.results, ∃ n, r = .ok n) (hfree : s.writer.isUnderWay = false) :
    l.packets = l.accepted := by
  rcases hi.order with horder | ⟨_, _, e, he⟩
  · rw [horder, Writer.unsent_of_free hfree, List.append_nil]
  · obtain ⟨n, hn⟩ := hresults _ he
    exact absurd hn (by simp)

variable [Sink σ] [SilenceTimer τ]

/-- **Stream integrity.**  If data enters through writes only, then the first transmissions
on the wire are numbered 0, 1, 2, … and are a beginning of the packets of the messages, write
by write and without a gap; the packets of one message carry one message number, and their
payloads make the message.  The octets on the wire are therefore a beginning of the octets
of the messages that were let in, in the order in which they were.  They are all of them if
every write has returned without an error, no transmission of new data failed, and nothing
is pending, where the packets that there can be at once are fewer than the count can hold. -/
theorem stream_integrity (config : Config) (sink : σ) (timer : τ)
    (history : List (Event (Wiretap σ))) (hw : Writing history) :
    let start : Sender (Wiretap σ) τ := fresh config { sink } timer
    let s := start.replay history
    let l := start.ledger history
    let firsts := firstTransmissions s.engine.sink.taken
    firsts.map DataPacket.sequence = List.range firsts.length
      ∧ firsts <+: l.written.flatMap Prod.snd
      ∧ (∀ w ∈ l.written, w.2.flatMap DataPacket.payload = w.1
          ∧ ∃ m, ∀ p ∈ w.2, p.messageNumber = m)
      ∧ firsts.flatMap DataPacket.payload <+: l.written.flatMap Prod.fst
      ∧ ((∀ r ∈ l.results, ∃ n, r = .ok n) → s.writer.isUnderWay = false →
          (∀ a ∈ l.attempted, ∃ progress, a.2 = .ok progress) → s.pending = 0 →
          config.queueCapacity + 3 < UInt64.size →
          firsts.flatMap DataPacket.payload = l.written.flatMap Prod.fst) := by
  intro start s l firsts
  have hs : s.places.Consistent l := consistent_replay config { sink } timer history
  have hi : s.Streaming l := streaming_replay config { sink } timer hw
  have htraced : start.Traced history := traced_replay config { sink } timer history
  have hdecided := htraced.decided (attempted_nodup hs hi)
  have hfirsts : firsts = l.sent := (recorded_replay config sink timer hw).firsts
  -- On the wire ⊑ attempted ⊑ accepted ⊑ packets of the messages.
  have hbegins : firsts <+: l.packets := by
    rw [hfirsts]
    exact (Ledger.sent_begins (halting_replay config { sink } timer history) hdecided).trans
      ((attempted_begins hs).trans (accepted_begins hi))
  have hpayload := payload_packets hi
  refine ⟨?_, hbegins, hi.whole, ?_, fun hresults hfree hfine hzero hcapacity => ?_⟩
  · have hnumbers := hbegins.map DataPacket.sequence
    rw [hi.numbers] at hnumbers
    have hrange := eq_range_of_prefix hnumbers
    rw [List.length_map] at hrange
    exact hrange
  · obtain ⟨rest, hrest⟩ := hbegins
    refine ⟨rest.flatMap DataPacket.payload, ?_⟩
    rw [← List.flatMap_append, hrest]
    exact hpayload
  · -- Nothing is left in the queue and no write was cut short, so the stages are equal.
    rw [hfirsts, Ledger.sent_eq_attempted fun a ha =>
      Ledger.isSent_of_ok (hdecided a ha) (hfine a ha), ← accepted_eq_attempted hs ?_,
      ← packets_eq_accepted hi hresults hfree]
    · exact hpayload
    · have hroom : s.queue.capacity = config.queueCapacity :=
        capacity_replay config { sink } timer history
      refine counted_eq_nil hs (Ledger.crashes_eq_zero hfine) ?_ hzero
      rw [hroom, hi.alone]
      exact hcapacity

/-- A message of three octets in packets of two, written and sent while an acknowledgment
comes in. -/
theorem stream_of_one_message :
    let config : Config := { maxPayload := 2 }
    let start : Sender (Wiretap ChannelSink) NoTimer := fresh config { sink := {} } {}
    let history : List (Event (Wiretap ChannelSink)) :=
      .write 0 [7, 8, 9] :: List.replicate 5 .writeOn ++ List.replicate 9 .work
        ++ .signal (.acknowledge 0 1) :: List.replicate 8 .work
    let s := start.replay history
    Writing history
      ∧ (firstTransmissions s.engine.sink.taken).map DataPacket.sequence = [0, 1]
      ∧ (firstTransmissions s.engine.sink.taken).flatMap DataPacket.payload = [7, 8, 9] := by
  intro config start history s
  have hwriting : Writing history := by
    intro ev hev
    simp only [history, List.mem_append, List.mem_cons, List.mem_replicate] at hev
    rcases hev with (((rfl | ⟨-, rfl⟩) | ⟨-, rfl⟩) | rfl | ⟨-, rfl⟩) <;> trivial
  have hresults : (start.ledger history).results = [.ok 2] := by decide
  have hfine : ∀ a ∈ (start.ledger history).attempted, ∃ progress, a.2 = .ok progress :=
    Ledger.ok_of_outcomes [.sent 0, .sent 1] (by decide)
  have hfree : s.writer.isUnderWay = false := by decide
  have hzero : s.pending = 0 := by decide
  have hlength : (firstTransmissions s.engine.sink.taken).length = 2 := by decide
  obtain ⟨hnumbers, -, -, -, hwhole⟩ :=
    stream_integrity config {} ({} : NoTimer) history hwriting
  refine ⟨hwriting, ?_, ?_⟩
  · rw [hlength] at hnumbers
    exact hnumbers
  · refine (hwhole (fun r hr => ?_) hfree hfine hzero (by decide)).trans (by decide)
    rw [hresults] at hr
    exact ⟨2, List.mem_singleton.mp hr⟩

end Sender

end ReliableSender
