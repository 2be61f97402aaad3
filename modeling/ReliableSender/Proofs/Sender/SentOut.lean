/-
  ReliableSender.Proofs.Sender.SentOut
  ────────────────────────────────────
  **WHAT IS SAID OF A NUMBER THAT WAS SENT OUT.**

  Whether a number has been sent out is answered from one bound, the largest
  number transmitted.  So the answer is not about that number alone:

      isSentOut n   ↔   a data packet of number n or above is out

  Below the bound it is right as long as the transmitted numbers have no
  gap.  They have none if the queue accepts the packets 0, 1, 2, … in this
  order; a number that was stamped and then refused by a full queue leaves
  one.

      foretold_replay — the bound is the largest number on the wire
      sent_out_told   — what the answer means, and when it is right
-/
import ReliableSender.Proofs.Engine.InOrder
import ReliableSender.Proofs.Engine.WireTrace
import ReliableSender.Proofs.Sender.Written

namespace ReliableSender

/-! ## §1. The numbers on the wire. -/

namespace Engine

variable {σ τ : Type}

/-- The numbers of the data packets that the sink has taken. -/
def handedOver (e : Engine (Wiretap σ) τ) : List Nat :=
  e.sink.taken.filterMap fun p => p.data?.map DataPacket.sequence

theorem handedOver_data {e e' : Engine (Wiretap σ) τ} {p : DataPacket}
    (h : e'.sink.taken = e.sink.taken ++ [.data p]) :
    e'.handedOver = e.handedOver ++ [p.sequence] := by
  unfold handedOver
  rw [h, List.filterMap_append]
  rfl

theorem handedOver_control {e e' : Engine (Wiretap σ) τ} {ps : List ControlPacket}
    (h : e'.sink.taken = e.sink.taken ++ ps.map .control) : e'.handedOver = e.handedOver := by
  have hnone : (ps.map Packet.control).filterMap (fun p => p.data?.map DataPacket.sequence) = [] :=
    List.filterMap_eq_nil_iff.mpr fun p hp => by
      obtain ⟨c, -, rfl⟩ := List.mem_map.mp hp
      rfl
  unfold handedOver
  rw [h, List.filterMap_append, hnone, List.append_nil]

variable [Sink σ] [SilenceTimer τ]

/-- A signal hands over no data. -/
theorem handle_handedOver (e : Engine (Wiretap σ) τ) {x : Signal (Wiretap σ)}
    (hx : x.KeepsRecord) : (e.handle x).handedOver = e.handedOver :=
  handedOver_control (e.handle_taken hx)

end Engine

/-- The event leaves the record of what was delivered alone. -/
def Sender.Event.KeepsRecord {σ : Type} : Sender.Event (Wiretap σ) → Prop
  | .signal x => x.KeepsRecord
  | _ => True

/-! ## §2. The bound. -/

namespace Sender

variable {σ τ : Type}

/-- The bound and the wire tell the same story as the ledger. -/
structure Foretold (s : Sender (Wiretap σ) τ) (l : Ledger) : Prop where
  bound : s.engine.sentBound = largest (l.sent.map fun p => p.sequence + 1)
  wire : ∀ n, n ∈ s.engine.handedOver ↔ n ∈ l.sent.map DataPacket.sequence
  /-- What is about to be sent again was sent before. -/
  again : ∀ p, s.worker = .working (.resending p) → p ∈ l.sent

/-- Most events transmit nothing. -/
theorem Foretold.keep {s s' : Sender (Wiretap σ) τ} {l g : Ledger} (hi : s.Foretold l)
    (hg : g.sent = []) (hb : s'.engine.sentBound = s.engine.sentBound)
    (hw : ∀ n, n ∈ s'.engine.handedOver ↔ n ∈ s.engine.handedOver)
    (hagain : ∀ p, s'.worker = .working (.resending p) → p ∈ l.sent) :
    s'.Foretold (l.append g) := by
  have hsent : (l.append g).sent = l.sent := by
    rw [Ledger.sent_append, hg, List.append_nil]
  refine ⟨?_, fun n => ?_, fun p hp => ?_⟩
  · rw [hsent, hb]
    exact hi.bound
  · rw [hsent, hw]
    exact hi.wire n
  · rw [hsent]
    exact hagain p hp

variable [Sink σ]

/-- A packet sent again brings no new number. -/
theorem Foretold.resend {s : Sender (Wiretap σ) τ} {l : Ledger} (hi : s.Foretold l)
    {p : DataPacket} (hp : p ∈ l.sent) (n : Nat) :
    n ∈ (s.engine.resend p).2.handedOver ↔ n ∈ s.engine.handedOver := by
  have hr := s.engine.resends p
  generalize s.engine.resend p = r at hr ⊢
  cases hr with
  | @again sink hout =>
    rw [Engine.handedOver_data (e := s.engine) (Wiretap.taken_of_ok hout), List.mem_append,
      List.mem_singleton]
    refine ⟨fun h => h.elim id fun hn => ?_, Or.inl⟩
    rw [hn]
    exact (hi.wire _).mpr (List.mem_map_of_mem hp)
  | refused herror | crashes herror =>
    unfold Engine.handedOver
    rw [Wiretap.taken_of_error herror]

/-- A new packet raises the bound to its number, if the sink takes it. -/
theorem Foretold.transmit {s : Sender (Wiretap σ) τ} {l : Ledger} (hi : s.Foretold l)
    (p : DataPacket) {w : Worker} (hw : ∀ q, w ≠ .working (.resending q)) :
    Foretold { s with engine := (s.engine.transmit p).2, worker := w }
      (l.append { attempted := [(p, (s.engine.transmit p).1)] }) := by
  have ht := s.engine.transmits p
  generalize s.engine.transmit p = r at ht ⊢
  cases ht with
  | duplicate => exact hi.keep rfl rfl (fun n => Iff.rfl) fun q hq => absurd hq (hw q)
  | failed _ herror =>
    refine hi.keep rfl rfl (fun n => ?_) fun q hq => absurd hq (hw q)
    unfold Engine.handedOver
    rw [Wiretap.taken_of_error herror]
  | @sent sink _ hout =>
    have hsent : (l.append { attempted := [(p, .ok (.sent p.sequence))] }).sent
        = l.sent ++ [p] := Ledger.sent_append _ _
    refine ⟨?_, fun n => ?_, fun q hq => absurd hq (hw q)⟩
    · show max s.engine.sentBound (p.sequence + 1) = _
      rw [hsent, List.map_append, largest_append, ← hi.bound]
      exact congrArg (max _) (largest_singleton _).symm
    · rw [hsent, List.map_append, List.mem_append, ← hi.wire,
        Engine.handedOver_data (e := s.engine) (Wiretap.taken_of_ok hout), List.mem_append]
      exact Iff.rfl

variable [SilenceTimer τ]

theorem foretold_changes {s s' : Sender (Wiretap σ) τ} {ev : Event (Wiretap σ)} {l g : Ledger}
    (h : Changes s ev s' g) (hev : ev.KeepsRecord)
    (hbuffer : ∀ p ∈ s.engine.buffer.entries, p ∈ l.sent) (hi : s.Foretold l) :
    s'.Foretold (l.append g) := by
  have hsame : ∀ n, n ∈ s.engine.handedOver ↔ n ∈ s.engine.handedOver := fun n => Iff.rfl
  cases h with
  | looks _ _ _ _ hresends =>
    -- What is chosen to be sent again is in the buffer, so it was transmitted.
    refine hi.keep rfl rfl hsame fun p hp => ?_
    exact hbuffer p (hresends p (Worker.working.inj hp))
  | @resends p hw =>
    refine hi.keep rfl (s.engine.resend_sentBound p) (hi.resend (hi.again p hw)) fun q hq => ?_
    exact absurd (Worker.working.inj hq) (by simp)
  | @transmits window p => exact hi.transmit p (by simp)
  | @crashes window p hw hcrash =>
    rw [← hcrash]
    exact hi.transmit p (by simp)
  | @concludes outcome =>
    exact hi.keep rfl rfl hsame fun p hp => absurd hp (Worker.after_ne_working outcome _)
  | signals x =>
    refine hi.keep rfl (s.engine.handle_sentBound x) (fun n => ?_) hi.again
    show n ∈ (s.engine.handle x).handedOver ↔ _
    rw [s.engine.handle_handedOver hev]
  | starts | polls | settles =>
    exact hi.keep rfl rfl hsame fun p hp => absurd (Worker.working.inj hp) (by simp)
  | leaves | flags | closes =>
    exact hi.keep rfl rfl hsame fun p hp => absurd hp (by simp)
  | announces | accepts | takesBack | begins | turnsAway | announcesNext | acceptsNext
  | refusesNext | finishes | joins | stays => exact hi.keep rfl rfl hsame hi.again

/-- **The bound is the largest number on the wire.** -/
theorem foretold_replay (config : Config) (sink : σ) (timer : τ)
    {history : List (Event (Wiretap σ))} (hrecord : ∀ ev ∈ history, ev.KeepsRecord) :
    ((fresh config (Wiretap.mk sink []) timer).replay history).Foretold
      ((fresh config (Wiretap.mk sink []) timer).ledger history) := by
  induction history using List.reverseRecOn with
  | nil =>
    refine ⟨rfl, fun n => Iff.rfl, fun p hp => ?_⟩
    exact absurd hp (by simp [fresh, spawn, replay])
  | append_singleton history ev ih =>
    rw [replay_concat, ledger_concat]
    exact foretold_changes (changes _ ev)
      (hrecord ev (List.mem_append_right _ List.mem_cons_self))
      (traced_replay config (Wiretap.mk sink []) timer history).sent
      (ih fun x hx => hrecord x (List.mem_append_left _ hx))

/-! ## §3. Numbers that the sender issued. -/

/-- The packet that an event stamps for the application. -/
def stamps (s : Sender σ τ) : Event σ → List DataPacket
  | .signal (.packetize now payload) => [(s.engine.packetize now payload).1]
  | _ => []

/-- The packets stamped for the application in a history. -/
def stamped (start : Sender σ τ) (history : List (Event σ)) : List DataPacket :=
  gather apply stamps start history

theorem stamped_concat (start : Sender σ τ) (history : List (Event σ)) (ev : Event σ) :
    start.stamped (history ++ [ev])
      = start.stamped history ++ (start.replay history).stamps ev :=
  gather_concat apply stamps start history ev

/-- A packet that is offered was stamped by this sender before. -/
def OffersOwn (start : Sender σ τ) (before : List (Event σ)) : Event σ → Prop
  | .announce p => p ∈ start.stamped before
  | _ => True

instance (start : Sender σ τ) (before : List (Event σ)) :
    (ev : Event σ) → Decidable (start.OffersOwn before ev)
  | .announce p => inferInstanceAs (Decidable (p ∈ start.stamped before))
  | .work | .writeOn | .write _ _ | .enter _ _ | .attempt _ | .abandon _ | .signal _ | .join =>
    .isTrue trivial

/-- What one event stamps or cuts carries numbers that are issued then. -/
theorem lt_issued_changes {s s' : Sender σ τ} {ev : Event σ} {g : Ledger}
    (h : Changes s ev s' g) {p : DataPacket} (hp : p ∈ g.packets) :
    p.sequence < s'.engine.sequences.issued := by
  -- Packets are made where a write begins, and nowhere else.
  cases h with
  | @begins _ now message =>
    have hpackets : Ledger.packets { written := [(message, (s.engine.fragment now message).1)] }
        = (s.engine.fragment now message).1 := List.append_nil _
    rw [hpackets] at hp
    exact Engine.lt_issued_of_fragment hp
  | _ => exact absurd hp List.not_mem_nil

theorem lt_issued_stamps {s : Sender σ τ} {ev : Event σ} {p : DataPacket}
    (hp : p ∈ s.stamps ev) : p.sequence < (s.apply ev).engine.sequences.issued := by
  unfold stamps at hp
  split at hp
  · obtain rfl := List.mem_singleton.mp hp
    exact Nat.lt_succ_self s.engine.sequences.issued
  · exact absurd hp List.not_mem_nil

/-- Stamped packets and the packets of messages carry issued numbers. -/
theorem lt_issued (start : Sender σ τ) (history : List (Event σ)) {p : DataPacket}
    (hp : p ∈ start.stamped history ∨ p ∈ (start.ledger history).packets) :
    p.sequence < (start.replay history).engine.sequences.issued := by
  induction history using List.reverseRecOn with
  | nil => exact absurd (or_self_iff.mp hp) List.not_mem_nil
  | append_singleton history ev ih =>
    have hchange := changes (start.replay history) ev
    have hmore := (continues_changes hchange).issued
    rw [stamped_concat, ledger_concat, Ledger.packets_append, List.mem_append,
      List.mem_append] at hp
    rw [replay_concat]
    rcases hp with (hold | hnew) | (hold | hnew)
    · exact Nat.lt_of_lt_of_le (ih (Or.inl hold)) hmore
    · exact lt_issued_stamps hnew
    · exact Nat.lt_of_lt_of_le (ih (Or.inr hold)) hmore
    · exact lt_issued_changes hchange hnew

theorem mem_stamped_of_announce {start : Sender σ τ} {history : List (Event σ)}
    (hown : Always start.OffersOwn history) {p : DataPacket} (hp : .announce p ∈ history) :
    p ∈ start.stamped history := by
  induction history using List.reverseRecOn with
  | nil => exact absurd hp List.not_mem_nil
  | append_singleton history ev ih =>
    obtain ⟨hbefore, hlast⟩ := always_concat.mp hown
    rw [stamped_concat, List.mem_append]
    rcases List.mem_append.mp hp with hp | hp
    · exact Or.inl (ih hbefore hp)
    · obtain rfl := List.mem_singleton.mp hp
      exact Or.inl hlast

/-- If only own packets are offered then accepted packets carry issued numbers. -/
theorem accepted_lt_issued (config : Config) (sink : σ) (timer : τ) {history : List (Event σ)}
    (hown : Always (fresh config sink timer).OffersOwn history) {p : DataPacket}
    (hp : p ∈ ((fresh config sink timer).ledger history).accepted) :
    p.sequence < ((fresh config sink timer).replay history).engine.sequences.issued := by
  refine lt_issued _ history ?_
  rcases (sourced_replay config sink timer history).accepted p hp with hpackets | hannounced
  · exact Or.inr hpackets
  · exact Or.inl (mem_stamped_of_announce hown hannounced)

end Sender

/-! ## §4. The answer. -/

namespace Sender

variable {σ τ : Type}

/-- A number is said to be sent out if it, or one above it, is on the wire. -/
theorem Foretold.isSentOut_iff {s : Sender (Wiretap σ) τ} {l : Ledger} (hi : s.Foretold l)
    (n : Nat) : s.engine.isSentOut n = true ↔ ∃ m ∈ s.engine.handedOver, n ≤ m := by
  rw [Engine.isSentOut_iff, hi.bound, lt_largest_iff]
  constructor
  · intro h
    obtain ⟨k, hk, hlt⟩ := h
    obtain ⟨p, hp, rfl⟩ := List.mem_map.mp hk
    exact ⟨p.sequence, (hi.wire _).mpr (List.mem_map_of_mem hp), Nat.le_of_lt_succ hlt⟩
  · intro h
    obtain ⟨m, hm, hle⟩ := h
    obtain ⟨p, hp, rfl⟩ := List.mem_map.mp ((hi.wire m).mp hm)
    exact ⟨p.sequence + 1, List.mem_map_of_mem hp, Nat.lt_succ_of_le hle⟩

/-- The transmitted packets of a numbered queue are numbered. -/
theorem numbered_sent [Sink σ] [SilenceTimer τ] (config : Config) (sink : σ) (timer : τ)
    (history : List (Event σ))
    (hnumbered : Numbered ((fresh config sink timer).ledger history).accepted) :
    Numbered ((fresh config sink timer).ledger history).sent := by
  have hs := consistent_replay config sink timer history
  have hdistinct : (((fresh config sink timer).ledger history).accepted.map
      DataPacket.sequence).Nodup := by
    rw [hnumbered]
    exact List.nodup_range
  have hdecided := (traced_replay config sink timer history).decided
    (attempted_distinct hs hdistinct)
  -- On the wire ⊑ attempted ⊑ accepted.
  obtain ⟨rest, hrest⟩ := (Ledger.sent_begins (halting_replay config sink timer history)
    hdecided).trans (attempted_begins hs)
  rw [← hrest] at hnumbered
  exact hnumbered.left

/-- If data enters through writes only then the queue accepts numbered packets. -/
theorem numbered_accepted {s : Sender (Wiretap σ) τ} {l : Ledger} (hi : s.Streaming l) :
    Numbered l.accepted := by
  have hbegins := (accepted_begins hi).map DataPacket.sequence
  rw [hi.numbers] at hbegins
  have hrange := eq_range_of_prefix hbegins
  rw [List.length_map] at hrange
  exact hrange

/-- Without a gap below the bound the answer is right. -/
theorem Foretold.isSentOut_of_numbered {s : Sender (Wiretap σ) τ} {l : Ledger}
    (hi : s.Foretold l) (hnumbered : Numbered l.sent) (n : Nat) :
    s.engine.isSentOut n = true ↔ n ∈ s.engine.handedOver := by
  rw [hi.isSentOut_iff]
  constructor
  · intro h
    obtain ⟨m, hm, hle⟩ := h
    obtain ⟨p, hp, rfl⟩ := List.mem_map.mp ((hi.wire m).mp hm)
    have hlt := hnumbered.lt_length hp
    obtain ⟨q, hq, rfl⟩ := hnumbered.exists_mem (Nat.lt_of_le_of_lt hle hlt)
    exact (hi.wire _).mpr (List.mem_map_of_mem hq)
  · exact fun h => ⟨n, h, Nat.le_refl n⟩

variable [Sink σ] [SilenceTimer τ]

/-- **What it means that a number has been sent out.**  The answer is yes exactly if a data
packet of this number or of a larger one has been handed to the sink.  About a number itself it
is right exactly if that number was handed over or no larger one was.  If only packets of this
sender are offered then it is yes for issued numbers only.  It is right about all numbers if the
queue accepts the packets 0, 1, 2, … in this order, as it does if data enters through writes
only. -/
theorem sent_out_told (config : Config) (sink : σ) (timer : τ)
    (history : List (Event (Wiretap σ))) (hrecord : ∀ ev ∈ history, ev.KeepsRecord) :
    let start : Sender (Wiretap σ) τ := fresh config { sink } timer
    let e := (start.replay history).engine
    (∀ n, e.isSentOut n = true ↔ ∃ m ∈ e.handedOver, n ≤ m)
      ∧ (∀ n, (e.isSentOut n = true ↔ n ∈ e.handedOver)
          ↔ n ∈ e.handedOver ∨ ∀ m ∈ e.handedOver, m < n)
      ∧ (Always start.OffersOwn history →
          ∀ n, e.isSentOut n = true → n < e.sequences.issued)
      ∧ (Numbered (start.ledger history).accepted →
          ∀ n, e.isSentOut n = true ↔ n ∈ e.handedOver)
      ∧ (Writing history → ∀ n, e.isSentOut n = true ↔ n ∈ e.handedOver) := by
  intro start e
  have hi : (start.replay history).Foretold (start.ledger history) :=
    foretold_replay config sink timer hrecord
  have hexact : Numbered (start.ledger history).accepted →
      ∀ n, e.isSentOut n = true ↔ n ∈ e.handedOver := fun hnumbered =>
    hi.isSentOut_of_numbered (numbered_sent config { sink } timer history hnumbered)
  refine ⟨hi.isSentOut_iff, fun n => ?_, fun hown n hn => ?_, hexact, fun hw => ?_⟩
  · rw [hi.isSentOut_iff]
    constructor
    · intro hright
      by_cases hn : n ∈ e.handedOver
      · exact Or.inl hn
      · refine Or.inr fun m hm => Nat.lt_of_not_le fun hle => ?_
        exact hn (hright.mp ⟨m, hm, hle⟩)
    · intro hcases
      refine ⟨fun h => ?_, fun h => ⟨n, h, Nat.le_refl n⟩⟩
      obtain ⟨m, hm, hle⟩ := h
      rcases hcases with hn | hnone
      · exact hn
      · exact absurd hle (Nat.not_le.mpr (hnone m hm))
  · obtain ⟨m, hm, hle⟩ := (hi.isSentOut_iff n).mp hn
    obtain ⟨p, hp, rfl⟩ := List.mem_map.mp ((hi.wire m).mp hm)
    obtain ⟨a, ha, rfl⟩ := Ledger.mem_attempted_of_mem_sent hp
    -- What is on the wire was accepted.
    have haccepted : a.1 ∈ (start.ledger history).accepted :=
      (attempted_begins (consistent_replay config { sink } timer history)).subset
        (List.mem_map_of_mem ha)
    exact Nat.lt_of_le_of_lt hle
      (accepted_lt_issued config (Wiretap.mk sink []) timer hown haccepted)
  · exact hexact (numbered_accepted (streaming_replay config { sink } timer hw))

/-- Two packets are stamped and offered in turn, and one of them is on the wire. -/
theorem sent_out_told_in_order :
    let p (n : Nat) : DataPacket := { sequence := n, messageNumber := UInt32.ofNat n }
    let start : Sender (Wiretap ChannelSink) NoTimer := fresh {} { sink := {} } {}
    let history : List (Event (Wiretap ChannelSink)) :=
      [.signal (.packetize 0 []), .signal (.packetize 0 []), .announce (p 0), .announce (p 1),
        .attempt 0, .attempt 0] ++ List.replicate 8 .work
    let e := (start.replay history).engine
    (∀ ev ∈ history, ev.KeepsRecord) ∧ Always start.OffersOwn history
      ∧ Numbered (start.ledger history).accepted
      ∧ ∀ n, e.isSentOut n = true ↔ n = 0 := by
  intro p start history e
  have hrecord : ∀ ev ∈ history, ev.KeepsRecord := by
    intro ev hev
    simp only [history, List.mem_append, List.mem_cons, List.mem_replicate, List.not_mem_nil,
      or_false] at hev
    rcases hev with (rfl | rfl | rfl | rfl | rfl | rfl) | ⟨-, rfl⟩ <;> trivial
  have hown : Always start.OffersOwn history := by decide
  have hnumbered : Numbered (start.ledger history).accepted := by decide
  have hwire : e.handedOver = [0] := by decide
  obtain ⟨-, -, -, hexact, -⟩ := sent_out_told {} {} ({} : NoTimer) history hrecord
  refine ⟨hrecord, hown, hnumbered, fun n => ?_⟩
  have hright : e.isSentOut n = true ↔ n ∈ e.handedOver := hexact hnumbered n
  rw [hwire, List.mem_singleton] at hright
  exact hright

/-- **The answer can be wrong about a number of this sender.**  The queue has room for one
packet: 0 is accepted, 1 is stamped and refused, and when 0 is on the wire 2 is accepted.  Then
1 is said to be sent out, and only 0 and 2 were handed to the sink. -/
theorem refused_number_told_sent :
    let p (n : Nat) : DataPacket := { sequence := n, messageNumber := UInt32.ofNat n }
    let stamp : Event (Wiretap ChannelSink) := .signal (.packetize 0 [])
    let start : Sender (Wiretap ChannelSink) NoTimer :=
      fresh { queueCapacity := 1 } { sink := {} } {}
    let filled : List (Event (Wiretap ChannelSink)) :=
      [stamp, .announce (p 0), .attempt 0, stamp]
    let history := filled ++ [.announce (p 1), .abandon 0] ++ List.replicate 8 .work
      ++ [stamp, .announce (p 2), .attempt 0] ++ List.replicate 8 .work
    let e := (start.replay history).engine
    Always start.OffersOwn history ∧ ((start.replay filled).offer (p 1)).1 = .full
      ∧ e.handedOver = [0, 2] ∧ e.isSentOut 1 = true := by
  decide

end Sender

end ReliableSender
