/-
  ReliableSender.Proofs.Engine.Answering
  ──────────────────────────────────────
  **WHICH FEEDBACK IS ANSWERED, AND WHICH IS AN ERROR.**

  Feedback comes from the network as it likes.  An engine takes every number
  in it as it is, and has an error to report in one case only: the answer to
  an acknowledgment repeats its number, and an answer has octets only if the
  number fits the header.

      attempt_open    — an open channel takes what has octets
      receive_ok_iff  — received feedback is an error exactly if its answer has none
-/
import ReliableSender.Engine.History
import ReliableSender.Proofs.Packet.WriteBack
import ReliableSender.Transport.Channel

namespace ReliableSender

/-- An open channel takes every packet that has octets, and no other. -/
theorem ChannelSink.attempt_open {c : ChannelSink} (hopen : c.isOpen = true) (p : Packet) :
    Sink.attempt p c = match p.fault? with
      | some e => (.error (.transport (.unencodable e)), c)
      | none => (.ok (), { c with outbox := p :: c.outbox }) := by
  have hsend : Sink.send p c = c.send p := rfl
  unfold Sink.attempt
  rw [hsend]
  unfold send
  rw [Packet.encode_eq]
  cases hfault : p.fault? with
  | some e => simp only [Option.elim_some]
  | none => simp only [Option.elim_none, hopen, if_true]

namespace Engine

variable {τ : Type}

/-- An acknowledgment is answered if its number fits; otherwise it is an error, and what it
covers is dropped all the same. -/
theorem acknowledge_open {e : Engine ChannelSink τ} (hopen : e.sink.isOpen = true)
    (now : Moment) (k : Nat) :
    (k ≤ sequenceMax → (e.acknowledge now k).1 = .ok ())
      ∧ (sequenceMax < k → e.acknowledge now k
          = (.error (.transport (.unencodable (.sequenceOverflow k))), e.dropAcknowledged k)) := by
  -- Dropping what is acknowledged leaves the sink as it is.
  have hsink : (e.dropAcknowledged k).sink.isOpen = true := hopen
  have hattempt := ChannelSink.attempt_open hsink ((e.dropAcknowledged k).control now (.ack2 k))
  have hnumber : ControlBody.acknowledged? (.ack2 k) = some k := rfl
  unfold acknowledge sendControl
  constructor
  · intro hfits
    have hfault : ((e.dropAcknowledged k).control now (.ack2 k)).fault? = none :=
      ControlPacket.fault?_of_le fun k' hk' => Option.some.inj (hnumber.symm.trans hk') ▸ hfits
    rw [hfault] at hattempt
    simp only [hattempt]
  · intro hover
    have hfault : ((e.dropAcknowledged k).control now (.ack2 k)).fault?
        = some (.sequenceOverflow k) := ControlPacket.fault?_of_lt hnumber hover
    rw [hfault] at hattempt
    simp only [hattempt]

variable [SilenceTimer τ]

/-- **Which received feedback is an error.**  Over an open channel, whatever the state, a
control packet from the network is handled without an error unless it acknowledges a number
of 32 bits.  Such an acknowledgment drops what it covers and is then reported as an error,
because its answer cannot be written. -/
theorem receive_ok_iff {b rest : Bytes} {p : ControlPacket}
    (hdecode : Packet.decode b = .ok (.control p, rest)) {e : Engine ChannelSink τ}
    (hopen : e.sink.isOpen = true) (now : Moment) :
    ((e.receive now p).1 = .ok () ↔ ∀ a, p.body = .ack a → a.number ≤ sequenceMax)
      ∧ ∀ a, p.body = .ack a → sequenceMax < a.number →
          a.number < UInt32.size
          ∧ e.receive now p
            = (.error (.transport (.unencodable (.sequenceOverflow a.number))),
              e.dropAcknowledged a.number) := by
  have hreceive : ∀ a, p.body = .ack a → e.receive now p = e.acknowledge now a.number := by
    intro a ha
    unfold receive
    rw [ha]
  refine ⟨?_, fun a ha hover => ⟨?_, ?_⟩⟩
  · cases hbody : p.body with
    | ack a =>
      rw [hreceive a hbody]
      refine ⟨fun hok a' ha' => ?_, fun hfits => ?_⟩
      · obtain rfl := ControlBody.ack.inj ha'
        by_contra hover
        rw [(acknowledge_open hopen now a.number).2 (Nat.lt_of_not_le hover)] at hok
        exact absurd hok (by simp)
      · exact (acknowledge_open hopen now a.number).1 (hfits a rfl)
    | keepAlive | shutdown | ack2 | nak =>
      unfold receive
      rw [hbody]
      simp
  · refine Packet.acknowledged?_lt hdecode ?_
    show p.body.acknowledged? = some a.number
    rw [ha]
    rfl
  · rw [hreceive a ha]
    exact (acknowledge_open hopen now a.number).2 hover

/-- A light acknowledgment of the largest number that fits. -/
theorem largest_number_answered :
    let b := Bytes.ofWords [0x80020000, 0, 0, 0, 0x7FFFFFFF]
    let p : ControlPacket := { body := .ack { number := sequenceMax } }
    let e : Engine ChannelSink NoTimer := .ofConfig {} {} {}
    Packet.decode b = .ok (.control p, []) ∧ e.sink.isOpen = true
      ∧ (e.receive 0 p).1 = .ok () := by
  intro b p e
  have hdecode : Packet.decode b = .ok (.control p, []) := by decide
  have hopen : e.sink.isOpen = true := rfl
  refine ⟨hdecode, hopen, (receive_ok_iff hdecode hopen 0).1.mpr fun a ha => ?_⟩
  obtain rfl := ControlBody.ack.inj ha
  exact Nat.le_refl _

/-- **Received feedback can be an error.**  A light acknowledgment of 2³¹ comes while packet 0
is in flight: the packet is dropped, and the engine reports an error. -/
theorem acknowledgment_beyond_header_is_error :
    let b := Bytes.ofWords [0x80020000, 0, 0, 0, 0x80000000]
    let p : ControlPacket := { body := .ack { number := 0x80000000 } }
    let start : Iteration ChannelSink NoTimer := .fresh {} {} {}
    let history : List (Iteration.Event ChannelSink) :=
      [.offer { sequence := 0 }, .act, .act, .act, .act, .act, .act, .act]
    let e := (start.replay history).engine
    Packet.decode b = .ok (.control p, []) ∧ e.sink.isOpen = true ∧ e.unacknowledged = 1
      ∧ (e.receive 0 p).1 = .error (.transport (.unencodable (.sequenceOverflow 0x80000000)))
      ∧ (e.receive 0 p).2.unacknowledged = 0 := by
  decide

end Engine

end ReliableSender
