/-
  ReliableSender.Proofs.Packet.DataDatagram
  ─────────────────────────────────────────
  **DATA PACKETS ARE DATAGRAMS, BIT FOR BIT.**

  The second word of a data packet is cut into position, order flag and
  message number when it is read, and put together from them when it is
  written.  Cutting loses no bit, so the header that is written is the header
  that was read, and the payload is all the rest:

      ofHeader_bits, messageWord_bits
                            — the fields of the second word, as shifts and masks
      messageWord_ofHeader  — the second word is put together again
      toBytes_ofHeader      — the octets of what was read are the ones read
      data_datagrams        — reading is a bijection onto what can be written
-/
import Mathlib.Data.Set.Function
import ReliableSender.Proofs.Packet.Grammar

namespace ReliableSender

namespace DataPacket

/-! ## §1. The fields as bits. -/

/-- The fields are cut out of the header by shifts and masks. -/
theorem ofHeader_bits (h : Header) (payload : Bytes) :
    (ofHeader h payload).position = .ofCode (h.additional >>> 30).toNat
      ∧ (ofHeader h payload).inOrder = (h.additional >>> 29 &&& 1 == 1)
      ∧ (ofHeader h payload).messageNumber = h.additional &&& 0x1FFFFFFF := by
  refine ⟨?_, ?_, ?_⟩
  · show Position.ofCode (h.additional.toNat / 0x40000000) = _
    rw [UInt32.toNat_shiftRight, Nat.shiftRight_eq_div_pow]
    rfl
  · have hbit : (h.additional >>> 29 &&& 1).toNat = h.additional.toNat / 0x20000000 % 2 := by
      rw [UInt32.toNat_and, UInt32.toNat_shiftRight, Nat.shiftRight_eq_div_pow]
      exact Nat.and_one_is_mod _
    show (h.additional.toNat / 0x20000000 % 2 == 1) = _
    rw [← hbit, Bool.eq_iff_iff, beq_iff_eq, beq_iff_eq, ← UInt32.toNat_inj]
    rfl
  · show UInt32.ofNat (h.additional.toNat % 0x20000000) = _
    apply UInt32.toNat_inj.mp
    rw [toNat_and_messageNumberMax, UInt32.toNat_ofNat']
    omega

/-- The second word is put together by shifts and disjunctions. -/
theorem messageWord_bits {p : DataPacket} (hnumber : p.messageNumber.toNat ≤ messageNumberMax) :
    p.messageWord = UInt32.ofNat p.position.code <<< 30 ||| UInt32.ofNat p.inOrder.toNat <<< 29
      ||| p.messageNumber := by
  have hcode := p.position.code_lt
  have horder := p.inOrder.toNat_le
  unfold messageNumberMax at hnumber
  have hhigh : (UInt32.ofNat p.position.code <<< 30).toNat = p.position.code * 2 ^ 30 := by
    rw [UInt32.toNat_shiftLeft, UInt32.toNat_ofNat', Nat.shiftLeft_eq]
    show p.position.code % 2 ^ 32 * 2 ^ 30 % 2 ^ 32 = _
    omega
  have hmiddle : (UInt32.ofNat p.inOrder.toNat <<< 29).toNat = p.inOrder.toNat * 2 ^ 29 := by
    rw [UInt32.toNat_shiftLeft, UInt32.toNat_ofNat', Nat.shiftLeft_eq]
    show p.inOrder.toNat % 2 ^ 32 * 2 ^ 29 % 2 ^ 32 = _
    omega
  -- What is put behind a field is less than the field's unit, so it is added.
  have hbehind : p.inOrder.toNat * 2 ^ 29 ||| p.messageNumber.toNat
      = p.inOrder.toNat * 2 ^ 29 + p.messageNumber.toNat := by
    rw [← Nat.shiftLeft_eq]
    exact (Nat.shiftLeft_add_eq_or_of_lt (by omega) _).symm
  have hword : p.position.code * 2 ^ 30 ||| (p.inOrder.toNat * 2 ^ 29 + p.messageNumber.toNat)
      = p.position.code * 2 ^ 30 + (p.inOrder.toNat * 2 ^ 29 + p.messageNumber.toNat) := by
    rw [← Nat.shiftLeft_eq]
    exact (Nat.shiftLeft_add_eq_or_of_lt (by omega) _).symm
  apply UInt32.toNat_inj.mp
  rw [toNat_messageWord hnumber, UInt32.toNat_or, UInt32.toNat_or, hhigh, hmiddle, Nat.or_assoc,
    hbehind, hword]
  omega

/-! ## §2. Writing what was read. -/

/-- No bit of the second word is lost. -/
theorem messageWord_ofHeader (h : Header) (payload : Bytes) :
    (ofHeader h payload).messageWord = h.additional := by
  have hlt := h.additional.toNat_lt
  have hcode : h.additional.toNat / 0x40000000 < 4 := by omega
  have hnumber : (ofHeader h payload).messageNumber.toNat = h.additional.toNat % 0x20000000 := by
    show (UInt32.ofNat (h.additional.toNat % 0x20000000)).toNat = _
    rw [UInt32.toNat_ofNat']
    omega
  -- Each field is a digit of the word, in the unit of the field.
  have hposition : (ofHeader h payload).position.code = h.additional.toNat / 0x40000000 :=
    Position.code_ofCode hcode
  have horder : (ofHeader h payload).inOrder.toNat = h.additional.toNat / 0x20000000 % 2 := by
    show (h.additional.toNat / 0x20000000 % 2 == 1).toNat = _
    obtain hbit | hbit := Nat.mod_two_eq_zero_or_one (h.additional.toNat / 0x20000000) <;>
      rw [hbit] <;> rfl
  have hfits : (ofHeader h payload).messageNumber.toNat ≤ messageNumberMax := by
    unfold messageNumberMax
    omega
  apply UInt32.toNat_inj.mp
  rw [toNat_messageWord hfits, hposition, horder, hnumber]
  omega

theorem toHeader_ofHeader (h : Header) (payload : Bytes) : (ofHeader h payload).toHeader = h := by
  have hleading : UInt32.ofNat h.leading.toNat = h.leading := UInt32.ofNat_toNat
  unfold toHeader
  rw [messageWord_ofHeader]
  show (⟨UInt32.ofNat h.leading.toNat, h.additional, h.timestamp, h.destination⟩ : Header) = h
  rw [hleading]

/-- The octets of a packet that was read are the octets that were read. -/
theorem toBytes_ofHeader {b payload : Bytes} {h : Header}
    (hread : Header.read b = .ok (h, payload)) : (ofHeader h payload).toBytes = b := by
  have hbytes : (ofHeader h payload).toBytes = Bytes.ofWords [(ofHeader h payload).toHeader.leading,
      (ofHeader h payload).toHeader.additional, (ofHeader h payload).toHeader.timestamp,
      (ofHeader h payload).toHeader.destination] ++ payload := rfl
  rw [hbytes, toHeader_ofHeader, ← Header.eq_of_read hread]

end DataPacket

namespace Packet

/-! ## §3. Datagrams of data. -/

/-- The datagrams that can be sent and are no control packets. -/
def dataDatagrams : Set Bytes :=
  {b | 16 ≤ b.length ∧ b.length ≤ 65507 ∧ b.startsControl = false}

/-- The data packets that can be written. -/
def writableData : Set DataPacket := {p | ∃ bytes, (data p).encode = .ok bytes}

/-- Octets with a header and a clear highest bit are read as data to the last octet, and
written as they were if a datagram holds them. -/
theorem decode_data {b : Bytes} (hwhole : 16 ≤ b.length) (hdata : b.startsControl = false) :
    ∃ p, decode b = .ok (data p, []) ∧ (data p).encode =
      if b.length ≤ 65507 then .ok b else .error (.payloadTooLarge (b.length - 16)) := by
  have hread : Header.read b = .ok (Header.front b, b.drop 16) := by
    rw [Header.read_eq, if_neg (Nat.not_lt.mpr hwhole)]
  have hflag : (Header.front b).isControl = false := (Header.isControl_front b).trans hdata
  refine ⟨_, (grammar_decode b).data hwhole hdata, ?_⟩
  rw [encode_eq]
  show (DataPacket.fault? _).elim (Except.ok (DataPacket.toBytes _)) Except.error = _
  rw [DataPacket.fault?_ofHeader_eq hflag, DataPacket.toBytes_ofHeader hread, List.length_drop]
  unfold maxPayloadLength headerSize
  by_cases hfits : b.length ≤ 65507
  · have hle : ¬ 65507 - 16 < b.length - 16 := by omega
    rw [if_neg hle, if_pos hfits, Option.elim_none]
  · have hlt : 65507 - 16 < b.length - 16 := by omega
    rw [if_pos hlt, if_neg hfits, Option.elim_some]

/-- What is read as data has a header and a clear highest bit. -/
theorem startsControl_of_decode {b rest : Bytes} {p : DataPacket}
    (hdecode : decode b = .ok (data p, rest)) : 16 ≤ b.length ∧ b.startsControl = false := by
  cases decodes hdecode with
  | @data h payload hread hflag =>
    rw [Header.read_eq] at hread
    by_cases hshort : b.length < 16
    · rw [if_pos hshort] at hread
      exact absurd hread (by simp)
    · rw [if_neg hshort] at hread
      obtain ⟨rfl, -⟩ := Prod.mk.inj (Except.ok.inj hread)
      exact ⟨Nat.le_of_not_lt hshort, (Header.isControl_front b).symm.trans hflag⟩

/-- A data packet that can be written is what its octets are read as, and they fit a
datagram. -/
theorem dataDatagrams_of_encode {p : DataPacket} {b : Bytes} (h : (data p).encode = .ok b) :
    b ∈ dataDatagrams ∧ decode b = .ok (data p, []) := by
  obtain ⟨hsequence, hnumber, rfl⟩ := DataPacket.encode_data h
  have hdecode := DataPacket.decode_toBytes hsequence hnumber
  obtain ⟨hwhole, hdata⟩ := startsControl_of_decode hdecode
  refine ⟨⟨hwhole, ?_, hdata⟩, hdecode⟩
  by_contra hlong
  -- Octets that no datagram holds are refused when they are written again.
  obtain ⟨q, hq, hrefused⟩ := decode_data hwhole hdata
  obtain rfl : p = q := by simpa using hdecode.symm.trans hq
  rw [if_neg hlong, h] at hrefused
  exact absurd hrefused (by simp)

theorem decode_mapsTo :
    Set.MapsTo decode dataDatagrams ((fun p => .ok (data p, [])) '' writableData) := by
  rintro b ⟨hwhole, hfits, hdata⟩
  obtain ⟨p, hdecode, hencode⟩ := decode_data hwhole hdata
  rw [if_pos hfits] at hencode
  exact ⟨p, ⟨b, hencode⟩, hdecode.symm⟩

theorem decode_injOn : Set.InjOn decode dataDatagrams := by
  rintro b ⟨hwhole, hfits, hdata⟩ b' ⟨hwhole', hfits', hdata'⟩ heq
  obtain ⟨p, hdecode, hencode⟩ := decode_data hwhole hdata
  obtain ⟨q, hdecode', hencode'⟩ := decode_data hwhole' hdata'
  rw [if_pos hfits] at hencode
  rw [if_pos hfits'] at hencode'
  -- One packet is written in one way.
  obtain rfl : p = q := by simpa using (hdecode.symm.trans heq).trans hdecode'
  exact Except.ok.inj (hencode.symm.trans hencode')

theorem decode_surjOn :
    Set.SurjOn decode dataDatagrams ((fun p => .ok (data p, [])) '' writableData) := by
  rintro _ ⟨p, ⟨b, hencode⟩, rfl⟩
  obtain ⟨hmem, hdecode⟩ := dataDatagrams_of_encode hencode
  exact ⟨b, hmem, hdecode⟩

/-- **Datagrams of data are read without losing a bit.**  What is read is written again octet
for octet, or refused if no datagram holds it, and every data packet that can be written is
read from exactly one datagram. -/
theorem data_datagrams :
    (∀ b : Bytes, 16 ≤ b.length → b.startsControl = false →
      ∃ p, decode b = .ok (data p, []) ∧ (data p).encode =
        if b.length ≤ 65507 then .ok b else .error (.payloadTooLarge (b.length - 16)))
      ∧ Set.BijOn decode dataDatagrams ((fun p => .ok (data p, [])) '' writableData) :=
  ⟨fun _ => decode_data, decode_mapsTo, decode_injOn, decode_surjOn⟩

/-- A datagram in which every bit of the second word is set, and three octets of payload. -/
theorem data_datagram_written_back :
    let b := Bytes.ofWords [7, 0xFFFFFFFF, 1, 2] ++ [3, 4, 5]
    16 ≤ b.length ∧ b.startsControl = false
      ∧ ∃ p, decode b = .ok (data p, []) ∧ (data p).encode = .ok b := by
  intro b
  have hwhole : 16 ≤ b.length := by decide
  have hdata : b.startsControl = false := by decide
  obtain ⟨p, hdecode, hencode⟩ := data_datagrams.1 b hwhole hdata
  exact ⟨hwhole, hdata, p, hdecode, hencode⟩

end Packet

end ReliableSender
