/-
  ReliableSender.Proofs.Engine.Encodable
  ──────────────────────────────────────
  **EVERYTHING IN THE SEND BUFFER CAN BE WRITTEN.**

  The engine looks at no number and no length of what it is offered.  A
  packet comes into the buffer only behind its delivery, though, and a sink
  that encodes what it delivers has found octets for it.  So the limits of
  the header hold of the whole buffer, and with them everything that is
  computed from a transmitted number:

      encodable_replay   — the invariant of every history
      transmit?_eq       — the successor of a transmitted number is a word
      buffered_encodable — what is in flight, and what is sent again
-/
import ReliableSender.Proofs.Engine.Overtaken
import ReliableSender.Proofs.Engine.Partition
import ReliableSender.Proofs.Packet.WriteBack
import ReliableSender.Proofs.Transport.Encoding

namespace ReliableSender

/-! ## §1. Packets that have octets. -/

namespace DataPacket

/-- A packet whose fields the header and a datagram have room for. -/
structure Encodable (p : DataPacket) : Prop where
  sequence : p.sequence ≤ sequenceMax
  messageNumber : p.messageNumber.toNat ≤ messageNumberMax
  payload : p.payload.length ≤ maxPayloadLength

theorem encodable_iff {p : DataPacket} :
    p.Encodable ↔ ∃ bytes, (Packet.data p).encode = .ok bytes := by
  have hencode := Packet.encode_eq (.data p)
  have hfault : (Packet.data p).fault? = p.fault? := rfl
  rw [hencode, hfault]
  unfold fault?
  constructor
  · intro h
    rw [if_neg (Nat.not_lt.mpr h.sequence), if_neg (Nat.not_lt.mpr h.messageNumber),
      if_neg (Nat.not_lt.mpr h.payload)]
    exact ⟨_, rfl⟩
  · intro h
    obtain ⟨bytes, h⟩ := h
    -- The fields are checked in this order, and each check was passed.
    by_cases hsequence : sequenceMax < p.sequence
    · rw [if_pos hsequence] at h
      cases h
    rw [if_neg hsequence] at h
    by_cases hnumber : messageNumberMax < p.messageNumber.toNat
    · rw [if_pos hnumber] at h
      cases h
    rw [if_neg hnumber] at h
    by_cases hpayload : maxPayloadLength < p.payload.length
    · rw [if_pos hpayload] at h
      cases h
    exact ⟨Nat.le_of_not_lt hsequence, Nat.le_of_not_lt hnumber, Nat.le_of_not_lt hpayload⟩

end DataPacket

/-! ## §2. One transmission. -/

namespace Engine

variable {σ τ : Type} [Sink σ]

/-- What is transmitted has octets. -/
theorem encodable_of_sent [Sink.Encodes σ] {e : Engine σ τ} {p : DataPacket} {s : Nat}
    (h : (e.transmit p).1 = .ok (.sent s)) : p.Encodable := by
  have ht := e.transmits p
  generalize e.transmit p = r at ht h
  cases ht with
  | duplicate | failed => cases h
  | sent _ hout => exact DataPacket.encodable_iff.mpr (Sink.encode_of_attempt hout)

/-- Send a new packet and buffer it, with the successor of its number computed in a word of
64 bits; nothing if that overflows. -/
def transmit? (e : Engine σ τ) (p : DataPacket) : Option (Except Fault Progress × Engine σ τ) :=
  match e.buffer.insertWith p (fun p sink => Sink.attempt (.data p) sink) e.sink with
  | (.ok true, buffer, sink) => do
    let successor ← Word.add? (UInt64.ofNat p.sequence) 1
    some (.ok (.sent p.sequence),
      { e with
        buffer
        sink
        statistics := e.statistics.countSent p.payload.length
        sentBound := max e.sentBound successor.toNat })
  | (.ok false, buffer, sink) => some (.ok .idle, { e with buffer, sink })
  | (.error fault, buffer, sink) => some (.error fault, { e with buffer, sink })

/-- The successor of a number that fits the header is a word. -/
theorem successor_eq {n : Nat} (h : n ≤ sequenceMax) :
    ∃ successor, Word.add? (UInt64.ofNat n) 1 = some successor ∧ successor.toNat = n + 1 := by
  have hword : n + 1 < UInt64.size := Nat.lt_of_le_of_lt (Nat.succ_le_succ h) (by decide)
  exact ⟨UInt64.ofNat (n + 1), Word.add?_ofNat (b := 1) hword, UInt64.toNat_ofNat_of_lt' hword⟩

/-- **The successor of a transmitted number never overflows**, since it is computed behind the
delivery. -/
theorem transmit?_eq [Sink.Encodes σ] (e : Engine σ τ) (p : DataPacket) :
    e.transmit? p = some (e.transmit p) := by
  have hsent := encodable_of_sent (e := e) (p := p) (s := p.sequence)
  unfold transmit at hsent ⊢
  unfold transmit?
  rcases hinsert : e.buffer.insertWith p (fun p sink => Sink.attempt (.data p) sink) e.sink with
    ⟨fault | (_ | _), buffer, sink⟩
  · rfl
  · rfl
  · rw [hinsert] at hsent
    obtain ⟨successor, hadd, hnat⟩ := successor_eq (hsent rfl).sequence
    simp only [hadd, Option.bind_eq_bind, Option.bind_some, hnat]
    rfl

end Engine

/-! ## §3. Along a history. -/

namespace Iteration

variable {σ τ : Type} [Sink σ] [SilenceTimer τ]

/-- What is chosen to be sent again was chosen before, or is in the buffer. -/
theorem resending_apply {i : Iteration σ τ} {ev : Event σ} {p : DataPacket}
    (h : (i.apply ev).stage = .resending p) :
    i.stage = .resending p ∨ p ∈ i.engine.buffer.entries := by
  cases ev with
  | offer | close | signal => exact Or.inl h
  | act =>
    replace h : i.act.stage = .resending p := h
    unfold act at h
    split at h
    · cases h
    · have hadv := i.advances
      generalize i.advance = i' at hadv h
      cases hadv with
      | findsLoss hs hkept =>
        obtain rfl := Stage.resending.inj h
        exact Or.inr (SendBuffer.mem_of_get? hkept).1
      | rests => exact Or.inl h
      | _ => cases h

/-- What is buffered or about to be sent again has octets, and the bound is that of a number
with octets. -/
structure Encodable (i : Iteration σ τ) : Prop where
  buffered : ∀ p ∈ i.engine.buffer.entries, p.Encodable
  bound : i.engine.sentBound ≤ sequenceMax + 1
  resending : ∀ p, i.stage = .resending p → p.Encodable

theorem encodable_apply [Sink.Encodes σ] {i : Iteration σ τ} (ev : Event σ)
    (hi : i.Encodable) : (i.apply ev).Encodable := by
  have hresending : ∀ p, (i.apply ev).stage = .resending p → p.Encodable := fun p hp =>
    (resending_apply hp).elim (hi.resending p) (hi.buffered p)
  suffices h : (∀ p ∈ (i.apply ev).engine.buffer.entries, p.Encodable)
      ∧ (i.apply ev).engine.sentBound ≤ sequenceMax + 1 from ⟨h.1, h.2, hresending⟩
  have hchange := i.bufferChange ev
  generalize (i.apply ev).engine.buffer = b at hchange ⊢
  generalize (i.apply ev).engine.sentBound = bound at hchange ⊢
  cases hchange with
  | keeps => exact ⟨hi.buffered, hi.bound⟩
  | acknowledges => exact ⟨fun p hp => hi.buffered p (SendBuffer.mem_removeUpTo.mp hp).1, hi.bound⟩
  | @sends p hsends hfree =>
    -- The packet was delivered, so the sink found octets for it.
    have hp : p.Encodable := by
      unfold Sends attempt? at hsends
      split at hsends
      · obtain ⟨rfl, houtcome⟩ := Prod.mk.inj (Option.some.inj hsends)
        exact Engine.encodable_of_sent houtcome
      · cases hsends
    refine ⟨fun q hq => ?_, Nat.max_le.mpr ⟨hi.bound, Nat.succ_le_succ hp.sequence⟩⟩
    rcases (SendBuffer.mem_push hfree).mp hq with rfl | hq
    · exact hp
    · exact hi.buffered q hq

theorem encodable_replay [Sink.Encodes σ] (config : Config) (sink : σ) (timer : τ)
    (history : List (Event σ)) : ((fresh config sink timer).replay history).Encodable := by
  induction history using List.reverseRecOn with
  | nil =>
    refine ⟨fun p hp => absurd hp List.not_mem_nil, Nat.zero_le _, fun p hp => ?_⟩
    cases hp
  | append_singleton history ev ih =>
    rw [replay_concat]
    exact encodable_apply ev ih

/-- **Everything buffered is encodable.**  Whatever is offered, over a sink that encodes what it
delivers: every packet in the send buffer keeps the limits of the header and of a datagram.  The
largest number sent is one of the header's, the successor of a number is computed without
overflow in whatever is transmitted next, and no packet that is buffered or about to be sent
again is refused for want of octets, in whatever state the sink is. -/
theorem buffered_encodable [Sink.Encodes σ] (config : Config) (sink : σ) (timer : τ)
    (history : List (Event σ)) :
    let i : Iteration σ τ := (fresh config sink timer).replay history
    (∀ p ∈ i.engine.buffer.entries,
        p.sequence ≤ sequenceMax ∧ p.messageNumber.toNat ≤ messageNumberMax
          ∧ p.payload.length ≤ maxPayloadLength)
      ∧ (∀ n, i.engine.largestSent? = some n → n ≤ sequenceMax)
      ∧ (∀ p, i.engine.transmit? p = some (i.engine.transmit p))
      ∧ ∀ p, p ∈ i.engine.buffer.entries ∨ i.stage = .resending p →
          ∀ (later : σ) (cause : CodecError),
            (Sink.attempt (.data p) later).1 ≠ .error (.transport (.unencodable cause)) := by
  intro i
  have hi : i.Encodable := encodable_replay config sink timer history
  refine ⟨fun p hp => ?_, fun n hn => ?_, i.engine.transmit?_eq, fun p hp later cause => ?_⟩
  · obtain ⟨hsequence, hnumber, hpayload⟩ := hi.buffered p hp
    exact ⟨hsequence, hnumber, hpayload⟩
  · have hbound := hi.bound
    unfold Engine.largestSent? at hn
    split at hn
    · cases hn
    · obtain rfl := Option.some.inj hn
      omega
  · have hencodable : p.Encodable := hp.elim (hi.buffered p) (hi.resending p)
    obtain ⟨bytes, hbytes⟩ := DataPacket.encodable_iff.mp hencodable
    exact Sink.attempt_ne_unencodable hbytes later cause

/-- The largest number of the header is sent; the largest word is refused behind it, and neither
buffered nor counted. -/
theorem largest_word_refused :
    let start : Iteration ChannelSink NoTimer := fresh {} {} {}
    let history : List (Event ChannelSink) :=
      [.offer { sequence := sequenceMax }, .offer { sequence := 2 ^ 64 - 1 }]
        ++ List.replicate 14 .act
    let i := start.replay history
    i.engine.buffer.entries = [{ sequence := sequenceMax }]
      ∧ i.engine.largestSent? = some sequenceMax
      ∧ i.engine.transmit? { sequence := 2 ^ 64 - 1 }
          = some (i.engine.transmit { sequence := 2 ^ 64 - 1 })
      ∧ ∀ (later : ChannelSink) (cause : CodecError),
          (Sink.attempt (.data { sequence := sequenceMax }) later).1
            ≠ .error (.transport (.unencodable cause)) := by
  intro start history i
  have hentries : i.engine.buffer.entries = [{ sequence := sequenceMax }] := by decide +kernel
  have hlargest : i.engine.largestSent? = some sequenceMax := by decide +kernel
  clear_value history
  obtain ⟨-, -, hwords, hagain⟩ := buffered_encodable {} ({} : ChannelSink) ({} : NoTimer) history
  refine ⟨hentries, hlargest, hwords _, hagain _ (Or.inl ?_)⟩
  show _ ∈ i.engine.buffer.entries
  rw [hentries]
  exact List.mem_singleton.mpr rfl

end Iteration

end ReliableSender
