/-
  ReliableSender.Proofs.Engine.OverWire
  ─────────────────────────────────────
  **FEEDBACK OVER THE WIRE IS FEEDBACK.**

  A peer does not call the engine.  It writes a control packet, the octets
  travel, and the packet that is read from them is received.  On the way a
  list of losses is sorted, joined into ranges, cut into words, read under
  limits and spelled out again; the engine that it reaches is left as if it
  had been given the list itself:

      receiveOctets_encode  — a packet without a fault reaches the engine as it is
      feedback_over_wire    — what each kind of feedback leaves, sent over the wire
-/
import ReliableSender.Listening
import ReliableSender.Proofs.Packet.Expansion
import ReliableSender.Proofs.Packet.WriteBack
import ReliableSender.Transport.Channel

namespace ReliableSender

namespace Engine

variable {σ τ : Type} [Sink σ] [SilenceTimer τ]

/-! ## §1. Octets that reach an engine. -/

/-- Read octets and receive the control packet that they hold, if they hold one. -/
def receiveOctets (e : Engine σ τ) (now : Moment) (b : Bytes) :
    Option (Except Fault Unit × Engine σ τ) :=
  (Arrival.datagram b).control?.map (e.receive now)

/-- A packet without a fault is written, and its octets reach the engine as that packet. -/
theorem receiveOctets_encode (e : Engine σ τ) (now : Moment) {p : ControlPacket}
    (hfits : ∀ k, p.body.acknowledged? = some k → k ≤ sequenceMax)
    (hreport : ∀ report, p.body = .nak report → LossReport.ofWords report.words = .ok report) :
    ∃ bytes, (Packet.control p).encode = .ok bytes
      ∧ e.receiveOctets now bytes = some (e.receive now p) := by
  have hfault : (Packet.control p).fault? = none := ControlPacket.fault?_of_le hfits
  have hread : Packet.decode (Packet.control p).toBytes
      = .ok (.control p, (Packet.control p).padding) := by
    refine Packet.decode_toBytes hfault fun report h => hreport report ?_
    obtain ⟨timestamp, destination, body⟩ := p
    cases body with
    | nak => exact congrArg ControlBody.nak (Option.some.inj h)
    | keepAlive | shutdown | ack | ack2 => exact absurd h (by simp [Packet.lossReport?])
  have hheard : (Arrival.datagram (Packet.control p).toBytes).control? = some p := by
    simp only [Arrival.control?, hread]
  refine ⟨(Packet.control p).toBytes, ?_, ?_⟩
  · rw [Packet.encode_eq, hfault]
    rfl
  · unfold receiveOctets
    rw [hheard, Option.map_some]

/-! ## §2. Feedback in octets. -/

/-- **Feedback over the wire is feedback.**  Whatever the state of the engine: a list of at
most `maxLossEntries` different losses is written as a report, and the octets of the report
leave the engine as the list itself does; an acknowledgment whose number fits does what a
call with its number does; packets of the other kinds, received or not, do nothing. -/
theorem feedback_over_wire (e : Engine σ τ) (now : Moment) (timestamp destination : UInt32) :
    (∀ lost : List Nat, (∀ n ∈ lost, n ≤ sequenceMax) →
        lost.dedup.length ≤ maxLossEntries →
        ∃ report bytes, LossReport.ofSequences lost = .ok report
          ∧ (Packet.control { timestamp, destination, body := .nak report }).encode = .ok bytes
          ∧ e.receiveOctets now bytes = some (.ok (), (e.negativeAcknowledge now lost).2))
      ∧ (∀ a : Acknowledgment, a.number ≤ sequenceMax →
          ∃ bytes, (Packet.control { timestamp, destination, body := .ack a }).encode = .ok bytes
            ∧ e.receiveOctets now bytes = some (e.acknowledge now a.number))
      ∧ ∀ body : ControlBody, body = .keepAlive ∨ body = .shutdown ∨ (∃ n, body = .ack2 n) →
          e.receive now { timestamp, destination, body } = (.ok (), e)
          ∧ ((∀ n, body = .ack2 n → n ≤ sequenceMax) →
            ∃ bytes, (Packet.control { timestamp, destination, body }).encode = .ok bytes
              ∧ e.receiveOctets now bytes = some (.ok (), e)) := by
  refine ⟨fun lost hlost hsize => ?_, fun a ha => ?_, fun body hbody => ?_⟩
  · obtain ⟨report, hwritten⟩ := LossReport.ofSequences_ok hlost
    obtain ⟨bytes, hbytes, hreceived⟩ := e.receiveOctets_encode now
      (p := { timestamp, destination, body := .nak report })
      (fun k hk => absurd hk (by simp [ControlBody.acknowledged?]))
      (fun r hr => ControlBody.nak.inj hr ▸ (LossReport.ofWords_ofSequences hwritten).1 hsize)
    -- The report names each loss once, and a loss list sees no more of the list either.
    have hsame : e.negativeAcknowledge now report.sequences = e.negativeAcknowledge now lost := by
      unfold negativeAcknowledge
      rw [LossReport.sequences_ofSequences hwritten, LossList.insertAll_distinct]
    refine ⟨report, bytes, hwritten, hbytes, hreceived.trans ?_⟩
    show some (Except.ok (), (e.negativeAcknowledge now report.sequences).2) = _
    rw [hsame]
  · exact e.receiveOctets_encode now (p := { timestamp, destination, body := .ack a })
      (fun k hk => Option.some.inj hk ▸ ha) (fun r hr => absurd hr (by simp))
  · have hignored : e.receive now { timestamp, destination, body } = (.ok (), e) := by
      rcases hbody with rfl | rfl | ⟨n, rfl⟩ <;> rfl
    refine ⟨hignored, fun hfits => ?_⟩
    rw [← hignored]
    refine e.receiveOctets_encode now (p := { timestamp, destination, body }) (fun k hk => ?_)
      fun r hr => ?_
    · rcases hbody with rfl | rfl | ⟨n, rfl⟩
      · exact absurd hk (by simp [ControlBody.acknowledged?])
      · exact absurd hk (by simp [ControlBody.acknowledged?])
      · exact Option.some.inj hk ▸ hfits n rfl
    · rcases hbody with rfl | rfl | ⟨n, rfl⟩ <;> exact absurd hr (by simp)

/-- Losses out of order and repeated, an acknowledgment, and one of an acknowledgment. -/
theorem three_kinds_over_wire :
    let e : Engine ChannelSink NoTimer := .ofConfig {} {} {}
    let lost := [5, 3, 4, 3]
    let a : Acknowledgment := { id := 1, number := 4 }
    (∃ report bytes, LossReport.ofSequences lost = .ok report
        ∧ (Packet.control { timestamp := 9, destination := 7, body := .nak report }).encode
          = .ok bytes
        ∧ e.receiveOctets 0 bytes = some (.ok (), (e.negativeAcknowledge 0 lost).2))
      ∧ (∃ bytes, (Packet.control { timestamp := 9, destination := 7, body := .ack a }).encode
          = .ok bytes ∧ e.receiveOctets 0 bytes = some (e.acknowledge 0 4))
      ∧ ∃ bytes, (Packet.control { timestamp := 9, destination := 7, body := .ack2 4 }).encode
          = .ok bytes ∧ e.receiveOctets 0 bytes = some (.ok (), e) := by
  intro e lost a
  obtain ⟨hreport, hack, hignored⟩ := feedback_over_wire e 0 9 7
  refine ⟨hreport lost (by decide) (by decide), hack a (by decide), ?_⟩
  exact (hignored (.ack2 4) (Or.inr (Or.inr ⟨4, rfl⟩))).2
    fun n hn => ControlBody.ack2.inj hn ▸ by decide

end Engine

end ReliableSender
