/-
  ReliableSender.Proofs.Transport.Encoding
  ────────────────────────────────────────
  **SINKS AND THE CODEC.**

  A sink may refuse a packet for reasons of its own.  Two things tie it to
  the codec: it calls a packet unencodable only if the codec does, and it
  delivers a packet only if the codec finds octets for it.

      AsksCodec — the first
      Encodes   — both
-/
import ReliableSender.Transport.Channel
import ReliableSender.Transport.Datagram

namespace ReliableSender

/-! ## §1. Sinks that ask the codec. -/

/-- A sink that calls a packet unencodable only if the codec does. -/
class Sink.AsksCodec (σ : Type) [Sink σ] : Prop where
  encode_eq {p : Packet} {sink : σ} {cause : CodecError}
    (h : (Sink.send p sink).1 = .failed (.unencodable cause)) : p.encode = .error cause

instance : Sink.AsksCodec ChannelSink where
  encode_eq {p c cause} h := by
    replace h : (ChannelSink.send p c).1 = .failed (.unencodable cause) := h
    unfold ChannelSink.send at h
    cases hp : p.encode with
    | error e =>
      rw [hp] at h
      cases h
      rfl
    | ok octets =>
      rw [hp] at h
      dsimp only at h
      split at h <;> cases h

instance : Sink.AsksCodec FaultySink where
  encode_eq {p f cause} h := by
    replace h : (FaultySink.send p f).1 = .failed (.unencodable cause) := h
    unfold FaultySink.send at h
    by_cases hcrash : (p.isData && f.crashOnData) = true
    · rw [if_pos hcrash] at h
      cases h
    · rw [if_neg hcrash] at h
      by_cases hrefuse : (if p.isData then f.refuseData else f.refuseControl) = true
      · rw [if_pos hrefuse] at h
        cases h
      · rw [if_neg hrefuse] at h
        exact Sink.AsksCodec.encode_eq (show (Sink.send p f.channel).1 = _ from h)

instance : Sink.AsksCodec DatagramSink where
  encode_eq {p d cause} h := by
    replace h : (DatagramSink.send p d).1 = .failed (.unencodable cause) := h
    unfold DatagramSink.send at h
    cases hp : p.encode with
    | error e =>
      rw [hp] at h
      cases h
      rfl
    | ok octets =>
      rw [hp] at h
      cases hf : d.fault with
      | some report =>
        rw [hf] at h
        cases h
      | none =>
        rw [hf] at h
        cases h

/-- A refusal is the sink's own. -/
theorem Sink.send_of_attempt {σ : Type} [Sink σ] {p : Packet} {sink sink' : σ}
    {cause : TransportError} (h : Sink.attempt p sink = (.error (.transport cause), sink')) :
    (Sink.send p sink).1 = .failed cause := by
  unfold Sink.attempt at h
  rcases hsend : Sink.send p sink with ⟨octets | c | _, left⟩
  all_goals rw [hsend] at h; cases h
  rfl

/-! ## §2. Sinks that encode what they deliver. -/

/-- A sink that delivers a packet only if it has octets. -/
class Sink.Encodes (σ : Type) [Sink σ] : Prop extends Sink.AsksCodec σ where
  encode_of_delivered {p : Packet} {sink : σ} {octets : Nat}
    (h : (Sink.send p sink).1 = .delivered octets) : ∃ bytes, p.encode = .ok bytes

instance : Sink.Encodes ChannelSink where
  encode_of_delivered {p c octets} h := by
    replace h : (ChannelSink.send p c).1 = .delivered octets := h
    unfold ChannelSink.send at h
    cases hp : p.encode with
    | ok bytes => exact ⟨bytes, rfl⟩
    | error e =>
      rw [hp] at h
      cases h

instance : Sink.Encodes FaultySink where
  encode_of_delivered {p f octets} h := by
    replace h : (FaultySink.send p f).1 = .delivered octets := h
    unfold FaultySink.send at h
    by_cases hcrash : (p.isData && f.crashOnData) = true
    · rw [if_pos hcrash] at h
      cases h
    rw [if_neg hcrash] at h
    by_cases hrefuse : (if p.isData then f.refuseData else f.refuseControl) = true
    · rw [if_pos hrefuse] at h
      cases h
    rw [if_neg hrefuse] at h
    exact Sink.Encodes.encode_of_delivered (show (Sink.send p f.channel).1 = _ from h)

instance : Sink.Encodes DatagramSink where
  encode_of_delivered {p d octets} h := by
    replace h : (DatagramSink.send p d).1 = .delivered octets := h
    unfold DatagramSink.send at h
    cases hp : p.encode with
    | ok bytes => exact ⟨bytes, rfl⟩
    | error e =>
      rw [hp] at h
      cases h

namespace Sink

variable {σ : Type} [Sink σ]

/-- What a sink that encodes has taken has octets. -/
theorem encode_of_attempt [Sink.Encodes σ] {p : Packet} {sink sink' : σ}
    (h : Sink.attempt p sink = (.ok (), sink')) : ∃ bytes, p.encode = .ok bytes := by
  unfold Sink.attempt at h
  rcases hsend : Sink.send p sink with ⟨octets | cause | _, left⟩
  all_goals rw [hsend] at h; cases h
  have hdelivered : (Sink.send p sink).1 = .delivered octets := by rw [hsend]
  exact Sink.Encodes.encode_of_delivered hdelivered

/-- A packet that has octets is not refused for want of them. -/
theorem attempt_ne_unencodable [Sink.AsksCodec σ] {p : Packet} {bytes : Bytes}
    (h : p.encode = .ok bytes) (sink : σ) (cause : CodecError) :
    (Sink.attempt p sink).1 ≠ .error (.transport (.unencodable cause)) := by
  intro hrefused
  have hsend := Sink.send_of_attempt (Prod.ext hrefused rfl)
  rw [Sink.AsksCodec.encode_eq hsend] at h
  cases h

end Sink

end ReliableSender
