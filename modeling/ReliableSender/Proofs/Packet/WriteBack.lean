/-
  ReliableSender.Proofs.Packet.WriteBack
  ──────────────────────────────────────
  **WHICH RECEIVED PACKETS CAN BE WRITTEN AGAIN.**

  Reading keeps the limits of writing for every field but one.  Sequence and
  message numbers are cut out of words that hold other bits too, so they fit
  again; a payload is as long as its datagram allows.  An acknowledged
  number fills a whole word when it is read and has 31 bits when it is
  written.

      appendTo_eq       — a packet is written behind the buffer, or refused for its fault
      fault?_of_decode  — the one fault that a received packet can have
      encode_of_decode  — a received packet is written and read back, unless it
                          carries an acknowledged number of 32 bits
-/
import ReliableSender.Proofs.Packet.RoundTrip

namespace ReliableSender

/-! ## §1. Faults and octets. -/

/-- The acknowledged number in a body. -/
def ControlBody.acknowledged? : ControlBody → Option Nat
  | .ack { number, .. } | .ack2 number => some number
  | .keepAlive | .nak _ | .shutdown => none

namespace ControlPacket

/-- The number that does not fit, if there is one. -/
def fault? (p : ControlPacket) : Option CodecError :=
  (p.body.acknowledged?.filter (sequenceMax < ·)).map .sequenceOverflow

/-- The octets of a packet without a fault. -/
def toBytes (p : ControlPacket) : Bytes :=
  match p.body with
  | .keepAlive | .shutdown => p.header 0 ++ Bytes.ofWord 0
  | .ack a => p.header a.id ++ Bytes.ofWords
      [UInt32.ofNat a.number, a.roundTrip, a.roundTripVariation, a.availableBuffer]
  | .nak report => p.header 0 ++ Bytes.ofWords report.words
  | .ack2 number => p.header (UInt32.ofNat number)

theorem fault?_of_lt {p : ControlPacket} {k : Nat} (hk : p.body.acknowledged? = some k)
    (hover : sequenceMax < k) : p.fault? = some (.sequenceOverflow k) := by
  unfold fault?
  rw [hk, Option.filter_some, if_pos (decide_eq_true hover), Option.map_some]

theorem fault?_of_le {p : ControlPacket}
    (hfits : ∀ k, p.body.acknowledged? = some k → k ≤ sequenceMax) : p.fault? = none := by
  unfold fault?
  rw [Option.map_eq_none_iff, Option.filter_eq_none_iff]
  intro k hk
  simpa using hfits k hk

/-- A packet without a fault carries no number that does not fit. -/
theorem fits_of_fault? {p : ControlPacket} (hfault : p.fault? = none) {k : Nat}
    (hk : p.body.acknowledged? = some k) : k ≤ sequenceMax := by
  by_contra hover
  rw [fault?_of_lt hk (Nat.lt_of_not_le hover)] at hfault
  exact absurd hfault (by simp)

/-- What is behind the buffer when writing is refused: the number of an acknowledgment is
looked at when its header is out. -/
def begun (p : ControlPacket) : Bytes :=
  match p.body with
  | .ack a => p.header a.id
  | .keepAlive | .nak _ | .shutdown | .ack2 _ => []

/-- The octets stand behind the buffer, or writing is refused for the fault. -/
theorem appendTo_eq (p : ControlPacket) (buffer : Bytes) :
    p.appendTo buffer = p.fault?.elim (.ok (), buffer ++ p.toBytes)
      fun e => (.error e, buffer ++ p.begun) := by
  cases hbody : p.body with
  | keepAlive | shutdown | nak report =>
    have hfault : p.fault? = none := fault?_of_le fun k hk => by
      rw [hbody] at hk
      exact absurd hk (by simp [ControlBody.acknowledged?])
    rw [hfault, Option.elim_none]
    unfold appendTo toBytes
    rw [hbody]
    simp only [List.append_assoc]
  | ack a =>
    have hk : p.body.acknowledged? = some a.number := by rw [hbody]; rfl
    by_cases hover : sequenceMax < a.number
    · rw [fault?_of_lt hk hover, Option.elim_some]
      unfold appendTo begun
      rw [hbody]
      exact if_pos hover
    · have hfault : p.fault? = none := fault?_of_le fun k hk' => by
        obtain rfl := Option.some.inj (hk.symm.trans hk')
        exact Nat.not_lt.mp hover
      rw [hfault, Option.elim_none]
      unfold appendTo toBytes
      rw [hbody]
      simp only [if_neg hover, List.append_assoc]
  | ack2 number =>
    have hk : p.body.acknowledged? = some number := by rw [hbody]; rfl
    by_cases hover : sequenceMax < number
    · rw [fault?_of_lt hk hover, Option.elim_some]
      unfold appendTo begun
      rw [hbody]
      simp only [if_pos hover, List.append_nil]
    · have hfault : p.fault? = none := fault?_of_le fun k hk' => by
        obtain rfl := Option.some.inj (hk.symm.trans hk')
        exact Nat.not_lt.mp hover
      rw [hfault, Option.elim_none]
      unfold appendTo toBytes
      rw [hbody]
      exact if_neg hover

end ControlPacket

namespace Packet

/-- Why a packet has no octets. -/
def fault? : Packet → Option CodecError
  | data p => p.fault?
  | control p => p.fault?

/-- The octets of a packet without a fault. -/
def toBytes : Packet → Bytes
  | data p => p.toBytes
  | control p => p.toBytes

/-- The acknowledged number that a packet carries. -/
def acknowledged? : Packet → Option Nat
  | control p => p.body.acknowledged?
  | data _ => none

/-- What is behind the buffer when writing is refused. -/
def begun : Packet → Bytes
  | data _ => []
  | control p => p.begun

/-- The octets stand behind the buffer, or writing is refused for the fault. -/
theorem appendTo_eq (p : Packet) (buffer : Bytes) :
    p.appendTo buffer = p.fault?.elim (.ok (), buffer ++ p.toBytes)
      fun e => (.error e, buffer ++ p.begun) := by
  cases p with
  | control p => exact p.appendTo_eq buffer
  | data p =>
    show p.appendTo buffer = p.fault?.elim (.ok (), buffer ++ p.toBytes)
      fun e => (.error e, buffer ++ [])
    unfold DataPacket.appendTo
    cases p.fault? with
    | none => rfl
    | some e => rw [List.append_nil]; rfl

/-- A packet is refused for its fault, or its octets are written. -/
theorem encode_eq (p : Packet) :
    p.encode = p.fault?.elim (Except.ok p.toBytes) Except.error := by
  unfold encode
  rw [appendTo_eq]
  cases p.fault? with
  | none => rfl
  | some e => rfl

/-- A packet that is refused has the fault that is reported. -/
theorem fault?_of_encode {p : Packet} {e : CodecError} (h : p.encode = .error e) :
    p.fault? = some e := by
  rw [encode_eq] at h
  cases hfault : p.fault? with
  | none =>
    rw [hfault] at h
    cases h
  | some fault =>
    rw [hfault] at h
    rw [Except.error.inj h]

end Packet

/-! ## §2. What is read. -/

/-- The four words of a header are the first 16 octets. -/
theorem Header.eq_of_read {b rest : Bytes} {h : Header} (hread : read b = .ok (h, rest)) :
    b = Bytes.ofWords [h.leading, h.additional, h.timestamp, h.destination] ++ rest := by
  -- The words are read one after the other; if one is missing, there is no header.
  unfold read at hread
  cases h₁ : Bytes.word? b with
  | none => simp [h₁] at hread
  | some r₁ =>
    obtain ⟨leading, b₁⟩ := r₁
    cases h₂ : Bytes.word? b₁ with
    | none => simp [h₁, h₂] at hread
    | some r₂ =>
      obtain ⟨additional, b₂⟩ := r₂
      cases h₃ : Bytes.word? b₂ with
      | none => simp [h₁, h₂, h₃] at hread
      | some r₃ =>
        obtain ⟨timestamp, b₃⟩ := r₃
        cases h₄ : Bytes.word? b₃ with
        | none => simp [h₁, h₂, h₃, h₄] at hread
        | some r₄ =>
          obtain ⟨destination, b₄⟩ := r₄
          simp only [h₁, h₂, h₃, h₄, Option.bind_eq_bind, Option.bind_some, Except.ok.injEq,
            Prod.mk.injEq] at hread
          obtain ⟨rfl, rfl⟩ := hread
          rw [Bytes.eq_ofWord_append_of_word? h₁, Bytes.eq_ofWord_append_of_word? h₂,
            Bytes.eq_ofWord_append_of_word? h₃, Bytes.eq_ofWord_append_of_word? h₄]
          simp [Bytes.ofWords]

/-- The number of an acknowledgment is one word. -/
theorem Acknowledgment.number_lt_of_read {id : UInt32} {b rest : Bytes} {a : Acknowledgment}
    (h : read id b = .ok (a, rest)) : a.number < UInt32.size := by
  unfold read at h
  cases hnumber : Bytes.word? b with
  | none =>
    rw [hnumber] at h
    exact absurd h (by simp)
  | some r =>
    obtain ⟨number, b'⟩ := r
    simp only [hnumber, Except.ok.injEq] at h
    -- Full or light, the number is the first word.
    have hfirst : a.number = number.toNat := by
      have hfst := congrArg (fun r => r.1.number) h
      simp only at hfst
      rw [← hfst]
      cases h₁ : Bytes.word? b' with
      | none => simp
      | some r₁ =>
        cases h₂ : Bytes.word? r₁.2 with
        | none => simp [h₂]
        | some r₂ =>
          cases h₃ : Bytes.word? r₂.2 with
          | none => simp [h₂, h₃]
          | some r₃ => simp [h₂, h₃]
    rw [hfirst]
    exact number.toNat_lt_size

/-- What the body behind a header is, and what is left unread. -/
inductive ControlBody.Reads (header : Header) (b : Bytes) : ControlBody → Bytes → Prop where
  | keepAlive (kind : ControlKind.ofCode? header.kindCode = some .keepAlive) :
      Reads header b .keepAlive b
  | shutdown (kind : ControlKind.ofCode? header.kindCode = some .shutdown) :
      Reads header b .shutdown b
  | ack2 (kind : ControlKind.ofCode? header.kindCode = some .ack2) :
      Reads header b (.ack2 header.additional.toNat) b
  | ack {a : Acknowledgment} {rest : Bytes}
      (kind : ControlKind.ofCode? header.kindCode = some .ack)
      (body : Acknowledgment.read header.additional b = .ok (a, rest)) :
      Reads header b (.ack a) rest
  | nak {report : LossReport} {rest : Bytes}
      (kind : ControlKind.ofCode? header.kindCode = some .nak)
      (body : LossReport.read b = .ok (report, rest)) : Reads header b (.nak report) rest

theorem ControlBody.reads {header : Header} {b rest : Bytes} {body : ControlBody}
    (h : read header b = .ok (body, rest)) : Reads header b body rest := by
  unfold read at h
  cases hk : ControlKind.ofCode? header.kindCode with
  | none => simp [hk] at h
  | some kind =>
    cases kind with
    | handshake | messageDropRequest => simp [hk] at h
    | keepAlive =>
      simp only [hk, Except.ok.injEq, Prod.mk.injEq] at h
      obtain ⟨rfl, rfl⟩ := h
      exact .keepAlive hk
    | shutdown =>
      simp only [hk, Except.ok.injEq, Prod.mk.injEq] at h
      obtain ⟨rfl, rfl⟩ := h
      exact .shutdown hk
    | ack2 =>
      simp only [hk, Except.ok.injEq, Prod.mk.injEq] at h
      obtain ⟨rfl, rfl⟩ := h
      exact .ack2 hk
    | ack =>
      cases ha : Acknowledgment.read header.additional b with
      | error e => simp [hk, ha] at h
      | ok r =>
        simp only [hk, ha, Except.ok.injEq, Prod.mk.injEq] at h
        obtain ⟨rfl, rfl⟩ := h
        exact .ack hk ha
    | nak =>
      cases hr : LossReport.read b with
      | error e => simp [hk, hr] at h
      | ok r =>
        simp only [hk, hr, Except.ok.injEq, Prod.mk.injEq] at h
        obtain ⟨rfl, rfl⟩ := h
        exact .nak hk hr

namespace Packet

/-- What a datagram is read as, and what is left unread of it. -/
inductive Decodes (b : Bytes) : Packet → Bytes → Prop where
  | data {h : Header} {payload : Bytes} (header : Header.read b = .ok (h, payload))
      (flag : h.isControl = false) : Decodes b (.data (.ofHeader h payload)) []
  | control {h : Header} {behind rest : Bytes} {body : ControlBody}
      (header : Header.read b = .ok (h, behind)) (flag : h.isControl = true)
      (reads : ControlBody.Reads h behind body rest) :
      Decodes b (.control { timestamp := h.timestamp, destination := h.destination, body }) rest

theorem decodes {b rest : Bytes} {p : Packet} (hdecode : decode b = .ok (p, rest)) :
    Decodes b p rest := by
  unfold decode at hdecode
  cases hread : Header.read b with
  | error e => simp [hread] at hdecode
  | ok r =>
    obtain ⟨h, behind⟩ := r
    simp only [hread] at hdecode
    cases hflag : h.isControl with
    | false =>
      simp only [hflag, Bool.false_eq_true, if_false, Except.ok.injEq, Prod.mk.injEq] at hdecode
      obtain ⟨rfl, rfl⟩ := hdecode
      exact .data hread hflag
    | true =>
      simp only [hflag, if_true] at hdecode
      cases hbody : ControlBody.read h behind with
      | error e => simp [hbody] at hdecode
      | ok r =>
        simp only [hbody, Except.ok.injEq, Prod.mk.injEq] at hdecode
        obtain ⟨rfl, rfl⟩ := hdecode
        exact .control hread hflag (ControlBody.reads hbody)

end Packet

/-! ## §3. What reading keeps within limits. -/

/-- The fields of a data packet that was read fit its header again; its payload can be too
long. -/
theorem DataPacket.fault?_ofHeader_eq {h : Header} {payload : Bytes}
    (hdata : h.isControl = false) :
    (ofHeader h payload).fault? = if maxPayloadLength < payload.length then
      some (.payloadTooLarge payload.length) else none := by
  have hsequence : ¬ sequenceMax < (ofHeader h payload).sequence := by
    have hlow : ¬ ControlPacket.controlFlag ≤ h.leading.toNat := of_decide_eq_false hdata
    show ¬ sequenceMax < h.leading.toNat
    unfold ControlPacket.controlFlag at hlow
    unfold sequenceMax
    omega
  have hnumber : ¬ messageNumberMax < (ofHeader h payload).messageNumber.toNat := by
    show ¬ messageNumberMax < (UInt32.ofNat (h.additional.toNat % 0x20000000)).toNat
    unfold messageNumberMax
    rw [UInt32.toNat_ofNat']
    omega
  unfold fault?
  rw [if_neg hsequence, if_neg hnumber]
  rfl

theorem DataPacket.fault?_ofHeader {h : Header} {payload : Bytes} (hdata : h.isControl = false)
    (hsize : payload.length ≤ maxPayloadLength) : (ofHeader h payload).fault? = none := by
  rw [fault?_ofHeader_eq hdata, if_neg (Nat.not_lt.mpr hsize)]

namespace Packet

/-- An acknowledged number is read from one word. -/
theorem acknowledged?_lt {b rest : Bytes} {p : Packet} {k : Nat}
    (hdecode : decode b = .ok (p, rest)) (hk : p.acknowledged? = some k) : k < UInt32.size := by
  have h := decodes hdecode
  cases h with
  | data => exact absurd hk (by simp [acknowledged?])
  | @control h behind rest body header flag hbody =>
    cases hbody with
    | keepAlive | shutdown | nak =>
      exact absurd hk (by simp [acknowledged?, ControlBody.acknowledged?])
    | ack2 =>
      obtain rfl := Option.some.inj hk
      exact h.additional.toNat_lt_size
    | ack _ hread =>
      obtain rfl := Option.some.inj hk
      exact Acknowledgment.number_lt_of_read hread

/-- A loss report that was read is read again as it is. -/
theorem ofWords_of_decode {b rest : Bytes} {p : Packet} {report : LossReport}
    (hdecode : decode b = .ok (p, rest)) (hreport : p.lossReport? = some report) :
    LossReport.ofWords report.words = .ok report := by
  have h := decodes hdecode
  cases h with
  | data => exact absurd hreport (by simp [lossReport?])
  | control header flag hbody =>
    cases hbody with
    | keepAlive | shutdown | ack | ack2 => exact absurd hreport (by simp [lossReport?])
    | nak _ hread =>
      obtain rfl := Option.some.inj hreport
      exact LossReport.ofWords_idempotent (LossReport.ofWords_of_read hread)

/-- **What reading keeps within limits.**  The only fault of a packet that was read from a
datagram is an acknowledged number of 32 bits. -/
theorem fault?_of_decode {b rest : Bytes} {p : Packet} (hdecode : decode b = .ok (p, rest))
    (hsize : b.length ≤ 65507) :
    p.fault? = (p.acknowledged?.filter (sequenceMax < ·)).map .sequenceOverflow := by
  have h := decodes hdecode
  cases h with
  | @data h payload hread hdata =>
    refine DataPacket.fault?_ofHeader hdata ?_
    -- The payload is what the header leaves of the datagram.
    have hlength := congrArg List.length (Header.eq_of_read hread)
    rw [List.length_append] at hlength
    have hheader : (Bytes.ofWords [h.leading, h.additional, h.timestamp, h.destination]).length
        = 16 := rfl
    unfold maxPayloadLength headerSize
    omega
  | control => rfl

/-! ## §4. Writing what was read. -/

/-- The octets of a packet without a fault are read back. -/
theorem decode_toBytes {p : Packet} (hfault : p.fault? = none)
    (hreport : ∀ report, p.lossReport? = some report →
      LossReport.ofWords report.words = .ok report) :
    decode p.toBytes = .ok (p, p.padding) := by
  match p with
  | data p =>
    obtain ⟨hsequence, hnumber⟩ := DataPacket.fault?_eq_none hfault
    exact DataPacket.decode_toBytes hsequence hnumber
  | control ⟨timestamp, destination, .keepAlive⟩ => exact ControlPacket.decode_padded (Or.inl rfl)
  | control ⟨timestamp, destination, .shutdown⟩ => exact ControlPacket.decode_padded (Or.inr rfl)
  | control ⟨timestamp, destination, .ack a⟩ =>
    exact ControlPacket.decode_ack rfl (ControlPacket.fits_of_fault? hfault rfl)
  | control ⟨timestamp, destination, .ack2 number⟩ =>
    exact ControlPacket.decode_ack2 rfl (ControlPacket.fits_of_fault? hfault rfl)
  | control ⟨timestamp, destination, .nak report⟩ =>
    refine (ControlPacket.decode_nak _ rfl).trans ?_
    rw [hreport report rfl]
    rfl

/-- **What was received can be written again**, and is then read as the same packet, unless
it carries an acknowledged number of 32 bits: reading takes it, and writing refuses it. -/
theorem encode_of_decode {b rest : Bytes} {p : Packet} (hdecode : decode b = .ok (p, rest))
    (hsize : b.length ≤ 65507) :
    ((∃ bytes, p.encode = .ok bytes ∧ decode bytes = .ok (p, p.padding))
        ↔ ∀ k, p.acknowledged? = some k → k ≤ sequenceMax)
      ∧ ∀ k, p.acknowledged? = some k → sequenceMax < k →
          k < UInt32.size ∧ p.encode = .error (.sequenceOverflow k) := by
  have hfault := fault?_of_decode hdecode hsize
  have hrefused : ∀ k, p.acknowledged? = some k → sequenceMax < k →
      p.encode = .error (.sequenceOverflow k) := by
    intro k hk hover
    rw [hk, Option.filter_some, if_pos (decide_eq_true hover)] at hfault
    rw [encode_eq, hfault]
    rfl
  refine ⟨⟨?_, fun hfits => ?_⟩, fun k hk hover => ?_⟩
  · rintro ⟨bytes, hbytes, _⟩ k hk
    by_contra hover
    have herror := hrefused k hk (Nat.lt_of_not_le hover)
    exact absurd (hbytes.symm.trans herror) (by simp)
  · -- The one fault that reading leaves is ruled out.
    have hnone : p.acknowledged?.filter (sequenceMax < ·) = none := by
      refine Option.filter_eq_none_iff.mpr fun k hk => ?_
      simpa using hfits k hk
    rw [hnone] at hfault
    refine ⟨p.toBytes, ?_, decode_toBytes hfault fun report => ofWords_of_decode hdecode⟩
    rw [encode_eq, hfault]
    rfl
  · exact ⟨acknowledged?_lt hdecode hk, hrefused k hk hover⟩

/-- A light acknowledgment of 7 is written as a full one. -/
theorem light_acknowledgment_written_in_full :
    let b := Bytes.ofWords [0x80020000, 5, 9, 3, 7]
    let p : Packet := .control
      { timestamp := 9, destination := 3, body := .ack { id := 5, number := 7 } }
    decode b = .ok (p, []) ∧ b.length ≤ 65507
      ∧ ∃ bytes, p.encode = .ok bytes ∧ decode bytes = .ok (p, p.padding) := by
  intro b p
  have hdecode : decode b = .ok (p, []) := by decide
  have hsize : b.length ≤ 65507 := by decide
  refine ⟨hdecode, hsize, (encode_of_decode hdecode hsize).1.mpr fun k hk => ?_⟩
  obtain rfl := Option.some.inj hk
  decide

/-- **Not all that can be read can be written.**  The acknowledgment of an acknowledgment of
2³¹ is read, and refused when it is written. -/
theorem received_ack2_unwritable :
    let b := Bytes.ofWords [0x80060000, 0x80000000, 0, 0]
    let p : Packet := .control { body := .ack2 0x80000000 }
    b.length ≤ 65507 ∧ decode b = .ok (p, [])
      ∧ p.encode = .error (.sequenceOverflow 0x80000000) := by
  decide

end Packet

end ReliableSender
