/-
  ReliableSender.Proofs.Engine.WireTrace
  ──────────────────────────────────────
  **WHAT IS ON THE WIRE, AND WHICH CALL PUT IT THERE.**

  Data leaves an engine in its steps only, and what a step answers tells
  which packet it was.  The other packets answer acknowledgments or keep the
  connection alive.  So the answers of the calls, in order, tell all that is
  on the wire.

      entries_iff_since — a packet is buffered if it was sent, and since then
                          neither its number sent again nor acknowledged
      Traces            — the three ends that a step has for the wire
      wire_trace        — the wire is what the answers of the calls tell, and
                          a packet goes out again as it went out first

  What is sent again was looked up before, and acknowledgments may come in
  between.  `resent_as_sent` says what is left of the second law then: all
  of it, up to the look at the buffer.
-/
import ReliableSender.Proofs.Chronicle
import ReliableSender.Proofs.Engine.Overtaken
import ReliableSender.Proofs.Engine.Steps
import ReliableSender.Proofs.Transport.Wiretap
import ReliableSender.Transport.Channel
import Mathlib

namespace ReliableSender

/-! ## §1. Where buffered packets come from. -/

namespace SendBuffer

/-- What an event makes of a buffer, if it sends these packets as new data and acknowledges
up to this number. -/
inductive Changes (b : SendBuffer) (sends : DataPacket → Prop) (acknowledged : Option Nat) :
    SendBuffer → Prop where
  | pushes {p : DataPacket} (only : ∀ q, sends q ↔ q = p)
      (free : b.contains p.sequence = false) (silent : acknowledged = none) :
      Changes b sends acknowledged (b.push p)
  | removes {k : Nat} (idle : ∀ q, ¬ sends q) (number : acknowledged = some k) :
      Changes b sends acknowledged (b.removeUpTo k).2
  | keeps (idle : ∀ q, ¬ sends q) (silent : acknowledged = none) :
      Changes b sends acknowledged b

/-- A packet is sent under the number, or the number is acknowledged for the first time. -/
def Renews (b : SendBuffer) (sends : DataPacket → Prop) (acknowledged : Option Nat) (n : Nat) :
    Prop :=
  (∃ q, sends q ∧ q.sequence = n) ∨ ∃ k, acknowledged = some k ∧ b.lastAck ≤ n ∧ n < k

theorem Changes.mem_entries {b b' : SendBuffer} {sends : DataPacket → Prop}
    {acknowledged : Option Nat} (h : b.Changes sends acknowledged b') (p : DataPacket) :
    p ∈ b'.entries ↔ sends p ∨ p ∈ b.entries ∧ ¬ b.Renews sends acknowledged p.sequence := by
  unfold Renews
  cases h with
  | @pushes new honly hfree hsilent =>
    rw [mem_push hfree, honly, hsilent]
    constructor
    · rintro (rfl | hp)
      · exact Or.inl rfl
      · refine Or.inr ⟨hp, ?_⟩
        rintro (⟨q, hq, hs⟩ | ⟨k, hk, _⟩)
        · -- The new packet came under a number that was free.
          obtain rfl := (honly q).mp hq
          exact contains_eq_false_iff.mp hfree (mem_keys.mpr ⟨p, hp, hs.symm⟩)
        · exact absurd hk (by simp)
    · rintro (rfl | ⟨hp, _⟩)
      · exact Or.inl rfl
      · exact Or.inr hp
  | @removes k hidle hnumber =>
    rw [mem_removeUpTo, hnumber]
    constructor
    · rintro ⟨hp, hout⟩
      refine Or.inr ⟨hp, ?_⟩
      rintro (⟨q, hq, _⟩ | ⟨k', hk', hlow, hhigh⟩)
      · exact hidle q hq
      · obtain rfl := Option.some.inj hk'
        exact hout ⟨hlow, hhigh⟩
    · rintro (hp | ⟨hp, hout⟩)
      · exact absurd hp (hidle p)
      · exact ⟨hp, fun hc => hout (Or.inr ⟨k, rfl, hc⟩)⟩
  | keeps hidle hsilent =>
    rw [hsilent]
    constructor
    · intro hp
      refine Or.inr ⟨hp, ?_⟩
      rintro (⟨q, hq, _⟩ | ⟨k, hk, _⟩)
      · exact hidle q hq
      · exact absurd hk (by simp)
    · rintro (hp | ⟨hp, _⟩)
      · exact absurd hp (hidle p)
      · exact hp

/-- **Where a buffered packet comes from.**  A packet is buffered exactly if it was sent, and
since then neither was a packet sent under its number nor its number acknowledged. -/
theorem entries_iff_since {α ε : Type} (buffer : α → SendBuffer) {apply : α → ε → α}
    {sends : α → ε → DataPacket → Prop} {acknowledged : ε → Option Nat}
    (hchanges : ∀ a ev,
      (buffer a).Changes (sends a ev) (acknowledged ev) (buffer (apply a ev)))
    {start : α} (hempty : (buffer start).entries = []) (h : List ε) (p : DataPacket) :
    p ∈ (buffer (h.foldl apply start)).entries
      ↔ Since (fun before ev => sends (before.foldl apply start) ev p)
          (fun before ev => (buffer (before.foldl apply start)).Renews
            (sends (before.foldl apply start) ev) (acknowledged ev) p.sequence) h := by
  induction h using List.reverseRecOn with
  | nil =>
    show p ∈ (buffer start).entries ↔ _
    rw [hempty]
    exact iff_of_false List.not_mem_nil not_since_nil
  | append_singleton h ev ih =>
    rw [since_concat, ← ih, List.foldl_append]
    exact (hchanges (h.foldl apply start) ev).mem_entries p

end SendBuffer

/-! ## §2. Calls, and what they answer. -/

/-- The number that a step answers with, if it has put a packet on the wire. -/
def sentNumber? : Except Fault Progress → Option Nat
  | .ok (.sent n) | .ok (.retransmitted n) => some n
  | _ => none

namespace Engine

/-- A call of an engine.  A step works on whatever queue it is given. -/
inductive Call (σ : Type) where
  | step (q : IngressQueue)
  | signal (x : Signal σ)

/-- The number up to which a call acknowledges. -/
def Call.acknowledgment? {σ : Type} : Call σ → Option Nat
  | .step _ => none
  | .signal x => x.acknowledgment?

variable {σ τ : Type} [Sink σ]

/-- The packet that a step puts on the wire, as its answer tells: the head of the queue, or
the packet that is buffered. -/
def carried? (e : Engine σ τ) (q : IngressQueue) : Except Fault Progress → Option DataPacket
  | .ok (.sent _) => q.waiting.head?
  | .ok (.retransmitted n) => e.buffer.get? n
  | _ => none

/-- A control packet to the peer, as the session knows it. -/
def toPeer (e : Engine σ τ) (now : Moment) (body : ControlBody) : ControlPacket :=
  { timestamp := now.timestamp, destination := e.session.destination, body }

variable [SilenceTimer τ]

/-- The packet that a signal puts on the wire, as its answer tells. -/
def replied? (e : Engine σ τ) : Signal σ → Option ControlPacket
  | .acknowledge now k =>
    if (e.acknowledge now k).1 = .ok () then some (e.toPeer now (.ack2 k)) else none
  | .receive now p =>
    match p.body with
    | .ack a =>
      if (e.receive now p).1 = .ok () then some (e.toPeer now (.ack2 a.number)) else none
    | _ => none
  | .keepAlive now =>
    if (e.sendKeepAlive now).1 = .ok () then some (e.toPeer now .keepAlive) else none
  | _ => none

/-- What a call leaves of an engine. -/
def perform (e : Engine σ τ) : Call σ → Engine σ τ
  | .step q => (e.step q).2.1
  | .signal x => e.handle x

/-- What calls leave of an engine. -/
def after (e : Engine σ τ) (calls : List (Call σ)) : Engine σ τ := calls.foldl perform e

/-- The packets that a call puts on the wire. -/
def puts (e : Engine σ τ) : Call σ → List Packet
  | .step q => (e.carried? q (e.step q).1).toList.map .data
  | .signal x => (e.replied? x).toList.map .control

/-- The number that a call answers with, if it is a step that has put a packet on the wire. -/
def numbers (e : Engine σ τ) : Call σ → List Nat
  | .step q => (sentNumber? (e.step q).1).toList
  | .signal _ => []

/-- The control packets that a call puts on the wire. -/
def replies (e : Engine σ τ) : Call σ → List ControlPacket
  | .step _ => []
  | .signal x => (e.replied? x).toList

/-- The call is a step that puts a packet on the wire as new data. -/
def Sends (e : Engine σ τ) (c : Call σ) (p : DataPacket) : Prop :=
  ∃ q, c = .step q ∧ (e.step q).1 = .ok (.sent p.sequence) ∧ e.puts c = [.data p]

end Engine

/-- The data packet, if it is one. -/
def Packet.data? : Packet → Option DataPacket
  | data p => some p
  | control _ => none

/-- The control packet, if it is one. -/
def Packet.control? : Packet → Option ControlPacket
  | data _ => none
  | control p => some p

/-! ## §3. One call. -/

namespace Engine

variable {σ τ : Type} [Sink σ]

/-- What a step answers, and what that means for the wire and the buffer. -/
inductive Traces (e : Engine (Wiretap σ) τ) (q : IngressQueue)
    (r : Except Fault Progress × Engine (Wiretap σ) τ × IngressQueue) : Prop where
  | sends {p : DataPacket} (head : q.waiting.head? = some p)
      (free : e.buffer.contains p.sequence = false) (answer : r.1 = .ok (.sent p.sequence))
      (wire : r.2.1.sink.taken = e.sink.taken ++ [.data p])
      (buffer : r.2.1.buffer = e.buffer.push p)
  | again {p : DataPacket} (kept : e.buffer.get? p.sequence = some p)
      (answer : r.1 = .ok (.retransmitted p.sequence))
      (wire : r.2.1.sink.taken = e.sink.taken ++ [.data p]) (buffer : r.2.1.buffer = e.buffer)
  | nothing (answer : sentNumber? r.1 = none) (idle : e.carried? q r.1 = none)
      (wire : r.2.1.sink.taken = e.sink.taken) (buffer : r.2.1.buffer = e.buffer)

theorem traces (e : Engine (Wiretap σ) τ) (q : IngressQueue) : Traces e q (e.step q) := by
  have hsteps := e.steps q
  generalize e.step q = r at hsteps ⊢
  cases hsteps with
  | skips | windowFull => exact .nothing rfl rfl rfl rfl
  | pollsNothing _ _ _ hverdict =>
    rw [hverdict]
    by_cases hp : q.producers = 0
    · rw [if_pos hp]
      exact .nothing rfl rfl rfl rfl
    · rw [if_neg hp]
      exact .nothing rfl rfl rfl rfl
  | @resends s p r _ hkept hr =>
    -- Taking the loss out of the list leaves the buffer and the sink as they are.
    obtain ⟨_, rfl⟩ := SendBuffer.mem_of_get? hkept
    cases hr with
    | again hout => exact .again hkept rfl (Wiretap.taken_of_ok hout) rfl
    | refused herror | crashes herror =>
      exact .nothing rfl rfl (Wiretap.taken_of_error herror) rfl
  | @transmits p rest r _ _ hhead hr | @crashes p rest r _ _ hhead hr =>
    have hwaiting : q.waiting.head? = some p := by rw [hhead]; rfl
    cases hr with
    | duplicate => exact .nothing rfl rfl rfl rfl
    | sent hfree hout => exact .sends hwaiting hfree rfl (Wiretap.taken_of_ok hout) rfl
    | failed _ herror => exact .nothing rfl rfl (Wiretap.taken_of_error herror) rfl

/-- A step puts the packet on the wire that its answer tells, and the answer has the number
of that packet. -/
theorem step_taken (e : Engine (Wiretap σ) τ) (q : IngressQueue) :
    (e.step q).2.1.sink.taken = e.sink.taken ++ (e.carried? q (e.step q).1).toList.map .data
      ∧ (e.carried? q (e.step q).1).map (·.sequence) = sentNumber? (e.step q).1 := by
  have ht := e.traces q
  generalize e.step q = r at ht ⊢
  cases ht with
  | @sends p hhead _ hanswer hwire =>
    have hcarried : e.carried? q (.ok (.sent p.sequence)) = some p := hhead
    rw [hanswer, hwire, hcarried]
    exact ⟨rfl, rfl⟩
  | @again p hkept hanswer hwire =>
    have hcarried : e.carried? q (.ok (.retransmitted p.sequence)) = some p := hkept
    rw [hanswer, hwire, hcarried]
    exact ⟨rfl, rfl⟩
  | nothing hanswer hidle hwire =>
    rw [hanswer, hidle, hwire]
    exact ⟨(List.append_nil _).symm, rfl⟩

/-! ## §4. One signal. -/

theorem acknowledge_sink (e : Engine σ τ) (now : Moment) (k : Nat) :
    (e.acknowledge now k).1 = (Sink.attempt (.control (e.toPeer now (.ack2 k))) e.sink).1
      ∧ (e.acknowledge now k).2.sink
        = (Sink.attempt (.control (e.toPeer now (.ack2 k))) e.sink).2 := by
  -- Dropping what is acknowledged changes neither the sink nor the address.
  have hsend : (e.dropAcknowledged k).sendControl now (.ack2 k)
      = ((Sink.attempt (.control (e.toPeer now (.ack2 k))) e.sink).1,
        { e.dropAcknowledged k with
          sink := (Sink.attempt (.control (e.toPeer now (.ack2 k))) e.sink).2 }) := rfl
  unfold acknowledge
  rw [hsend]
  rcases Sink.attempt (.control (e.toPeer now (.ack2 k))) e.sink with ⟨fault | _, sink⟩
  · exact ⟨rfl, rfl⟩
  · exact ⟨rfl, rfl⟩

theorem sendKeepAlive_sink (e : Engine σ τ) (now : Moment) :
    (e.sendKeepAlive now).1 = (Sink.attempt (.control (e.toPeer now .keepAlive)) e.sink).1
      ∧ (e.sendKeepAlive now).2.sink
        = (Sink.attempt (.control (e.toPeer now .keepAlive)) e.sink).2 := by
  have hsend : e.sendControl now .keepAlive
      = ((Sink.attempt (.control (e.toPeer now .keepAlive)) e.sink).1,
        { e with sink := (Sink.attempt (.control (e.toPeer now .keepAlive)) e.sink).2 }) := rfl
  unfold sendKeepAlive
  rw [hsend]
  rcases Sink.attempt (.control (e.toPeer now .keepAlive)) e.sink with ⟨fault | _, sink⟩
  · exact ⟨rfl, rfl⟩
  · exact ⟨rfl, rfl⟩

/-- A call that hands a control packet to the sink puts it on the wire if it answers so. -/
theorem control_taken {e : Engine (Wiretap σ) τ} {p : ControlPacket}
    {r : Except Fault Unit × Engine (Wiretap σ) τ}
    (h : r.1 = (Sink.attempt (.control p) e.sink).1
      ∧ r.2.sink = (Sink.attempt (.control p) e.sink).2) :
    r.2.sink.taken
      = e.sink.taken ++ (if r.1 = .ok () then some p else none).toList.map Packet.control := by
  obtain ⟨hanswer, hsink⟩ := h
  rw [hsink, hanswer, Wiretap.attempt_taken_if]
  by_cases hok : (Sink.attempt (.control p) e.sink).1 = .ok ()
  · rw [if_pos hok, if_pos hok]
    rfl
  · rw [if_neg hok, if_neg hok]
    rfl

variable [SilenceTimer τ]

/-- A signal puts on the wire what its answer tells. -/
theorem handle_taken (e : Engine (Wiretap σ) τ) {x : Signal (Wiretap σ)} (hx : x.KeepsRecord) :
    (e.handle x).sink.taken = e.sink.taken ++ e.puts (.signal x) := by
  cases x with
  | acknowledge now k => exact control_taken (e.acknowledge_sink now k)
  | receive now p =>
    rcases p with ⟨timestamp, destination, _ | a | report | number | _⟩
    case ack => exact control_taken (e.acknowledge_sink now a.number)
    -- The other packets are not answered.
    all_goals exact (List.append_nil _).symm
  | keepAlive now => exact control_taken (e.sendKeepAlive_sink now)
  | modifySink f => exact (hx e.sink).trans (List.append_nil _).symm
  | negativeAcknowledge | expire | setFlowWindow | setDestination | packetize | nextSequence
  | requestStop => exact (List.append_nil _).symm

/-! ## §5. All calls. -/

/-- A step sends a packet as new data if that is its answer, and the packet was the head of
the queue. -/
theorem sends_step_iff {e : Engine σ τ} {q : IngressQueue} {p : DataPacket} :
    e.Sends (.step q) p
      ↔ (e.step q).1 = .ok (.sent p.sequence) ∧ q.waiting.head? = some p := by
  have hputs : ∀ head : Option DataPacket,
      head.toList.map Packet.data = [.data p] ↔ head = some p := by
    intro head
    cases head <;> simp
  have hstep : e.puts (.step q) = (e.carried? q (e.step q).1).toList.map .data := rfl
  unfold Sends
  constructor
  · rintro ⟨q', hq, hanswer, hwire⟩
    obtain rfl := Call.step.inj hq
    rw [hstep, hanswer] at hwire
    exact ⟨hanswer, (hputs _).mp hwire⟩
  · rintro ⟨hanswer, hhead⟩
    refine ⟨q, rfl, hanswer, ?_⟩
    rw [hstep, hanswer]
    exact (hputs _).mpr hhead

/-- What a call makes of the send buffer. -/
theorem changes (e : Engine (Wiretap σ) τ) (c : Call (Wiretap σ)) :
    e.buffer.Changes (e.Sends c) c.acknowledgment? (e.perform c).buffer := by
  cases c with
  | step q =>
    show e.buffer.Changes (e.Sends (.step q)) none (e.step q).2.1.buffer
    have hsends : ∀ p, e.Sends (.step q) p
        ↔ (e.step q).1 = .ok (.sent p.sequence) ∧ q.waiting.head? = some p :=
      fun p => sends_step_iff
    have ht := e.traces q
    generalize e.step q = r at ht hsends ⊢
    cases ht with
    | @sends p hhead hfree hanswer _ hbuffer =>
      rw [hbuffer]
      refine .pushes (fun p' => (hsends p').trans ⟨fun h => ?_, ?_⟩) hfree rfl
      · exact Option.some.inj (h.2.symm.trans hhead)
      · rintro rfl
        exact ⟨hanswer, hhead⟩
    | @again p _ hanswer _ hbuffer =>
      rw [hbuffer]
      refine .keeps (fun p' h => ?_) rfl
      rw [hanswer] at hsends
      exact absurd ((hsends p').mp h).1 (by simp)
    | nothing hanswer _ _ hbuffer =>
      rw [hbuffer]
      refine .keeps (fun p' h => ?_) rfl
      rw [((hsends p').mp h).1] at hanswer
      exact absurd hanswer (by simp [sentNumber?])
  | signal x =>
    have hidle : ∀ p, ¬ e.Sends (.signal x) p := by
      rintro p ⟨q, hq, _⟩
      exact absurd hq (by simp)
    show e.buffer.Changes _ x.acknowledgment? (e.handle x).buffer
    rw [e.handle_buffer x]
    cases hx : x.acknowledgment? with
    | none => exact .keeps hidle rfl
    | some k => exact .removes hidle rfl

/-- Every call puts on the wire what its answer tells. -/
theorem perform_taken (e : Engine (Wiretap σ) τ) {c : Call (Wiretap σ)}
    (hkeeps : ∀ x, c = .signal x → x.KeepsRecord) :
    (e.perform c).sink.taken = e.sink.taken ++ e.puts c := by
  cases c with
  | step q => exact (e.step_taken q).1
  | signal x => exact e.handle_taken (hkeeps x rfl)

/-- The data packets that a call puts on the wire have the numbers that it answers with. -/
theorem puts_data (e : Engine (Wiretap σ) τ) (c : Call (Wiretap σ)) :
    (e.puts c).filterMap (fun p => p.data?.map DataPacket.sequence) = e.numbers c := by
  cases c with
  | step q =>
    show ((e.carried? q (e.step q).1).toList.map Packet.data).filterMap _
      = (sentNumber? (e.step q).1).toList
    rw [← (e.step_taken q).2]
    cases e.carried? q (e.step q).1 <;> rfl
  | signal x =>
    show ((e.replied? x).toList.map Packet.control).filterMap _ = []
    cases e.replied? x <;> rfl

theorem puts_control (e : Engine (Wiretap σ) τ) (c : Call (Wiretap σ)) :
    (e.puts c).filterMap Packet.control? = e.replies c := by
  cases c with
  | step q =>
    show ((e.carried? q (e.step q).1).toList.map Packet.data).filterMap _ = []
    cases e.carried? q (e.step q).1 <;> rfl
  | signal x =>
    show ((e.replied? x).toList.map Packet.control).filterMap _ = (e.replied? x).toList
    cases e.replied? x <;> rfl

/-- **The wire is what the answers of the calls tell.**  Packet by packet and in the order of
the calls: the data packets are those of the steps that answer that they sent a number, new
or again, one for each; the others are one answer for each acknowledgment, stale ones too, and
one keep-alive for each request, where the sink took them.  And what is sent again is the
packet that was sent last under its number, which was not acknowledged since. -/
theorem wire_trace (config : Config) (sink : σ) (timer : τ) (calls : List (Call (Wiretap σ)))
    (hkeeps : ∀ x, .signal x ∈ calls → x.KeepsRecord) :
    let start : Engine (Wiretap σ) τ := .ofConfig config { sink } timer
    let wire := (start.after calls).sink.taken
    wire = gather perform puts start calls
      ∧ (wire.filterMap Packet.data?).map DataPacket.sequence = gather perform numbers start calls
      ∧ wire.filterMap Packet.control? = gather perform replies start calls
      ∧ ∀ before q later n, calls = before ++ .step q :: later →
          ((start.after before).step q).1 = .ok (.retransmitted n) →
          ∃ p, p.sequence = n ∧ (start.after before).puts (.step q) = [.data p]
            ∧ Since (fun earlier c => (start.after earlier).Sends c p)
                (fun earlier c => (∃ p', (start.after earlier).Sends c p' ∧ p'.sequence = n)
                  ∨ ∃ k, c.acknowledgment? = some k
                    ∧ (start.after earlier).lastAck ≤ n ∧ n < k) before := by
  intro start wire
  have hwire : wire = gather perform puts start calls := by
    refine (record_foldl (fun e : Engine (Wiretap σ) τ => e.sink.taken) (fun c hc e => ?_)
      start).trans (List.nil_append _)
    exact e.perform_taken fun x hx => hkeeps x (hx ▸ hc)
  refine ⟨hwire, ?_, ?_, fun before q later n _ hagain => ?_⟩
  · rw [List.map_filterMap, hwire, filterMap_gather]
    exact congrArg (gather perform · start calls) (funext₂ puts_data)
  · rw [hwire, filterMap_gather]
    exact congrArg (gather perform · start calls) (funext₂ puts_control)
  · -- The packet was looked up in the buffer, and it got there when it was sent.
    have ht := (start.after before).traces q
    have hstep : (start.after before).puts (.step q)
        = ((start.after before).carried? q ((start.after before).step q).1).toList.map .data := rfl
    rw [hagain] at hstep
    cases ht with
    | sends _ _ hanswer => exact absurd (hagain.symm.trans hanswer) (by simp)
    | nothing hanswer =>
      rw [hagain] at hanswer
      exact absurd hanswer (by simp [sentNumber?])
    | @again p hkept hanswer =>
      obtain rfl : n = p.sequence := by simpa using hagain.symm.trans hanswer
      refine ⟨p, rfl, ?_, ?_⟩
      · rw [hstep]
        show ((start.after before).buffer.get? p.sequence).toList.map Packet.data = [.data p]
        rw [hkept]
        rfl
      · have hempty : start.buffer.entries = [] := rfl
        exact (SendBuffer.entries_iff_since Engine.buffer changes hempty before p).mp
          (SendBuffer.mem_of_get? hkept).1

/-- Packet 0 is on the wire and is offered again with another payload, the session gets
another address, and a stale acknowledgment comes: packet 0 is sent again as it was. -/
theorem packet_sent_again_unchanged :
    let start : Engine (Wiretap ChannelSink) NoTimer := .ofConfig {} { sink := {} } {}
    let offered (payload : Bytes) : IngressQueue :=
      { capacity := 1, waiting := [{ sequence := 0, payload }] }
    let before : List (Call (Wiretap ChannelSink)) :=
      [.step (offered [1]), .signal (.setDestination 7), .step (offered [9]),
        .signal (.negativeAcknowledge 0 [0]), .signal (.acknowledge 0 0)]
    let calls := before ++ [.step (offered [])]
    (∀ x, .signal x ∈ calls → x.KeepsRecord)
      ∧ ((start.after before).step (offered [])).1 = .ok (.retransmitted 0)
      ∧ (start.after calls).sink.taken
        = [.data { sequence := 0, payload := [1] }, .control { destination := 7, body := .ack2 0 },
            .data { sequence := 0, payload := [1] }]
      ∧ ∃ p, p.sequence = 0 ∧ (start.after before).puts (.step (offered [])) = [.data p]
        ∧ Since (fun earlier c => (start.after earlier).Sends c p)
            (fun earlier c => (∃ p', (start.after earlier).Sends c p' ∧ p'.sequence = 0)
              ∨ ∃ k, c.acknowledgment? = some k
                ∧ (start.after earlier).lastAck ≤ 0 ∧ 0 < k) before := by
  intro start offered before calls
  have hkeeps : ∀ x, .signal x ∈ calls → x.KeepsRecord := by
    intro x hx
    simp only [calls, before, List.cons_append, List.nil_append, List.mem_cons, reduceCtorEq,
      Call.signal.injEq, List.not_mem_nil, false_or, or_false] at hx
    rcases hx with rfl | rfl | rfl <;> trivial
  have hanswer : ((start.after before).step (offered [])).1 = .ok (.retransmitted 0) := by cbv
  obtain ⟨hwire, _, _, hagain⟩ := wire_trace {} ({} : ChannelSink) ({} : NoTimer) calls hkeeps
  exact ⟨hkeeps, hanswer, hwire.trans (by cbv), hagain before (offered []) [] 0 rfl hanswer⟩

end Engine

/-! ## §6. Calls that come between the look and the sending. -/

namespace Iteration

variable {σ τ : Type} [Sink σ] [SilenceTimer τ]

/-- The number up to which an event acknowledges. -/
def Event.acknowledgment? : Event σ → Option Nat
  | .signal x => x.acknowledgment?
  | .act | .offer _ | .close => none

/-- What an event makes of the send buffer. -/
theorem changes (i : Iteration σ τ) (ev : Event σ) :
    i.engine.buffer.Changes (fun p => ev = .act ∧ i.Sends p) ev.acknowledgment?
      (i.apply ev).engine.buffer := by
  cases ev with
  | act =>
    show i.engine.buffer.Changes _ none i.act.engine.buffer
    rw [i.act_engine]
    rcases i.advance_buffer with ⟨p, hp, hfree, hbuffer, _⟩ | ⟨hidle, hbuffer, _⟩
    · rw [hbuffer]
      refine .pushes (fun q => ⟨fun hq => ?_, ?_⟩) hfree rfl
      · -- An action sends one packet at most.
        have hboth := hq.2.symm.trans hp
        exact congrArg Prod.fst (Option.some.inj hboth)
      · rintro rfl
        exact ⟨rfl, hp⟩
    · rw [hbuffer]
      exact .keeps (fun q hq => hidle q hq.2) rfl
  | offer | close => exact .keeps (by simp) rfl
  | signal x =>
    show i.engine.buffer.Changes _ x.acknowledgment? (i.engine.handle x).buffer
    rw [i.engine.handle_buffer x]
    cases hx : x.acknowledgment? with
    | none => exact .keeps (by simp) rfl
    | some k => exact .removes (by simp) rfl

/-- The packet that is to be sent again was looked up by the last action, whatever has come
since. -/
theorem lookedUp_of_resending (start : Iteration σ τ) {history : List (Event σ)}
    {p : DataPacket} (hstart : start.stage ≠ .resending p)
    (hstage : (start.replay history).stage = .resending p) :
    ∃ before since, history = before ++ .act :: since ∧ (∀ ev ∈ since, ev ≠ .act)
      ∧ (start.replay before).stage = .lossTaken p.sequence
      ∧ p ∈ (start.replay before).engine.buffer.entries := by
  induction history using List.reverseRecOn with
  | nil => exact absurd hstage hstart
  | append_singleton history ev ih =>
    rw [replay_concat] at hstage
    by_cases hact : ev = .act
    · subst hact
      refine ⟨history, [], rfl, fun ev hev => absurd hev List.not_mem_nil, ?_⟩
      generalize start.replay history = i at hstage ⊢
      have hnext : i.act.stage = .resending p := hstage
      unfold act at hnext
      split at hnext
      · exact absurd hnext (by simp)
      · have hadv := i.advances
        generalize i.advance = i' at hadv hnext
        cases hadv with
        | findsLoss hs hkept =>
          obtain rfl := Stage.resending.inj hnext
          obtain ⟨hmem, hsequence⟩ := SendBuffer.mem_of_get? hkept
          exact ⟨hs.trans (by rw [hsequence]), hmem⟩
        | rests hs => exact absurd (hs.symm.trans hnext) (by simp)
        | _ => exact absurd hnext (by simp)
    · -- Only actions change the stage.
      have hsame : ((start.replay history).apply ev).stage = (start.replay history).stage := by
        cases ev with
        | act => exact absurd rfl hact
        | offer | close | signal => rfl
      obtain ⟨before, since, rfl, hidle, hlooked⟩ := ih (hsame.symm.trans hstage)
      refine ⟨before, since ++ [ev], by simp, fun x hx => ?_, hlooked⟩
      rcases List.mem_append.mp hx with hx | hx
      · exact hidle x hx
      · obtain rfl := List.mem_singleton.mp hx
        exact hact

/-- **A packet is sent again as it was sent.**  Whatever comes between the actions of the loop:
the packet that it is about to send again is the one that was sent last under this number
before the loop looked, and the number had not been acknowledged between the two.  What came
after the look makes no difference. -/
theorem resent_as_sent (config : Config) (sink : σ) (timer : τ) {history : List (Event σ)}
    {p : DataPacket}
    (hstage : ((fresh config sink timer).replay history).stage = .resending p) :
    ∃ before since, history = before ++ .act :: since ∧ (∀ ev ∈ since, ev ≠ .act)
      ∧ ((fresh config sink timer).replay before).stage = .lossTaken p.sequence
      ∧ Since (fun earlier ev =>
            ev = .act ∧ ((fresh config sink timer).replay earlier).Sends p)
          (fun earlier ev =>
            (∃ p', (ev = .act ∧ ((fresh config sink timer).replay earlier).Sends p')
              ∧ p'.sequence = p.sequence)
            ∨ ∃ k, ev.acknowledgment? = some k
              ∧ ((fresh config sink timer).replay earlier).engine.lastAck ≤ p.sequence
              ∧ p.sequence < k) before := by
  have hstart : (fresh config sink timer).stage ≠ .resending p := by simp [fresh]
  obtain ⟨before, since, hsplit, hidle, htaken, hkept⟩ := lookedUp_of_resending _ hstart hstage
  refine ⟨before, since, hsplit, hidle, htaken, ?_⟩
  have hempty : (fresh config sink timer).engine.buffer.entries = [] := rfl
  exact (SendBuffer.entries_iff_since (fun i : Iteration σ τ => i.engine.buffer) changes hempty
    before p).mp hkept

end Iteration

end ReliableSender
