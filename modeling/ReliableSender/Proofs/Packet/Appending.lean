/-
  ReliableSender.Proofs.Packet.Appending
  ──────────────────────────────────────
  **WHAT WRITING A PACKET DOES TO A BUFFER.**

  The octets of a packet do not depend on what the buffer holds, and neither
  does a refusal.  The limits of a data packet are tested in header order,
  before the first octet; of the control packets only the two that carry an
  acknowledged number can be refused.  One refusal comes late: the number of
  an acknowledgment is looked at behind the 16 octets of its header, which
  stay in the buffer.

      refused_iff       — the refusals, one for each limit, are the faults
      appendTo_appends  — writing leaves the buffer in front, and what stands
                          behind it is the whole packet or the part begun
-/
import ReliableSender.Proofs.Packet.WriteBack

namespace ReliableSender

/-! ## §1. The refusals. -/

namespace Packet

/-- Why a packet is refused, and the octets that are out by then. -/
inductive Refused : Packet → CodecError → Bytes → Prop where
  | sequence {p : DataPacket} (exceeds : sequenceMax < p.sequence) :
      Refused (.data p) (.sequenceOverflow p.sequence) []
  | messageNumber {p : DataPacket} (sequence : p.sequence ≤ sequenceMax)
      (exceeds : messageNumberMax < p.messageNumber.toNat) :
      Refused (.data p) (.messageNumberOverflow p.messageNumber.toNat) []
  | payload {p : DataPacket} (sequence : p.sequence ≤ sequenceMax)
      (number : p.messageNumber.toNat ≤ messageNumberMax)
      (exceeds : maxPayloadLength < p.payload.length) :
      Refused (.data p) (.payloadTooLarge p.payload.length) []
  | acknowledgment {p : ControlPacket} {a : Acknowledgment} (body : p.body = .ack a)
      (exceeds : sequenceMax < a.number) :
      Refused (.control p) (.sequenceOverflow a.number) (p.header a.id)
  | ack2 {p : ControlPacket} {number : Nat} (body : p.body = .ack2 number)
      (exceeds : sequenceMax < number) : Refused (.control p) (.sequenceOverflow number) []

/-- A refusal is for the packet's fault, and leaves what was begun. -/
theorem Refused.fault {p : Packet} {e : CodecError} {begun : Bytes} (h : p.Refused e begun) :
    p.fault? = some e ∧ begun = p.begun := by
  cases h with
  | sequence exceeds => exact ⟨if_pos exceeds, rfl⟩
  | messageNumber sequence exceeds =>
    exact ⟨(if_neg (Nat.not_lt.mpr sequence)).trans (if_pos exceeds), rfl⟩
  | payload sequence number exceeds =>
    refine ⟨(if_neg (Nat.not_lt.mpr sequence)).trans ?_, rfl⟩
    exact (if_neg (Nat.not_lt.mpr number)).trans (if_pos exceeds)
  | @acknowledgment p a body exceeds =>
    have hk : p.body.acknowledged? = some a.number := by rw [body]; rfl
    refine ⟨ControlPacket.fault?_of_lt hk exceeds, ?_⟩
    show p.header a.id = p.begun
    unfold ControlPacket.begun
    rw [body]
  | @ack2 p number body exceeds =>
    have hk : p.body.acknowledged? = some number := by rw [body]; rfl
    refine ⟨ControlPacket.fault?_of_lt hk exceeds, ?_⟩
    show [] = p.begun
    unfold ControlPacket.begun
    rw [body]

theorem DataPacket.refused_of_fault? {p : DataPacket} {e : CodecError}
    (hfault : p.fault? = some e) : Refused (.data p) e [] := by
  unfold DataPacket.fault? at hfault
  by_cases hsequence : sequenceMax < p.sequence
  · rw [if_pos hsequence] at hfault
    obtain rfl := Option.some.inj hfault
    exact .sequence hsequence
  rw [if_neg hsequence] at hfault
  by_cases hnumber : messageNumberMax < p.messageNumber.toNat
  · rw [if_pos hnumber] at hfault
    obtain rfl := Option.some.inj hfault
    exact .messageNumber (Nat.not_lt.mp hsequence) hnumber
  rw [if_neg hnumber] at hfault
  by_cases hpayload : maxPayloadLength < p.payload.length
  · rw [if_pos hpayload] at hfault
    obtain rfl := Option.some.inj hfault
    exact .payload (Nat.not_lt.mp hsequence) (Nat.not_lt.mp hnumber) hpayload
  · rw [if_neg hpayload] at hfault
    exact absurd hfault (by simp)

theorem ControlPacket.refused_of_fault? {p : ControlPacket} {e : CodecError}
    (hfault : p.fault? = some e) : Refused (.control p) e p.begun := by
  unfold ControlPacket.fault? at hfault
  rw [Option.map_eq_some_iff] at hfault
  obtain ⟨k, hover, rfl⟩ := hfault
  rw [Option.filter_eq_some_iff, decide_eq_true_eq] at hover
  obtain ⟨hk, hover⟩ := hover
  unfold ControlPacket.begun
  cases hbody : p.body with
  | keepAlive | nak report | shutdown =>
    rw [hbody] at hk
    exact absurd hk (by simp [ControlBody.acknowledged?])
  | ack a =>
    rw [hbody] at hk
    obtain rfl := Option.some.inj hk
    exact .acknowledgment hbody hover
  | ack2 number =>
    rw [hbody] at hk
    obtain rfl := Option.some.inj hk
    exact .ack2 hbody hover

/-- A packet is refused for its fault, and leaves what was begun. -/
theorem refused_iff {p : Packet} {e : CodecError} {begun : Bytes} :
    p.Refused e begun ↔ p.fault? = some e ∧ begun = p.begun := by
  constructor
  · exact Refused.fault
  · intro h
    obtain ⟨hfault, rfl⟩ := h
    cases p with
    | data p => exact DataPacket.refused_of_fault? hfault
    | control p => exact ControlPacket.refused_of_fault? hfault

/-! ## §2. The buffer afterwards. -/

/-- What a buffer holds is in front of what is written onto an empty one. -/
theorem appendTo_eq_append (p : Packet) (x : Bytes) :
    p.appendTo x = ((p.appendTo []).1, x ++ (p.appendTo []).2) := by
  rw [appendTo_eq p x, appendTo_eq p []]
  cases p.fault? with
  | none => rfl
  | some e => rfl

theorem Refused.appendTo {p : Packet} {e : CodecError} {begun : Bytes}
    (h : p.Refused e begun) (x : Bytes) : p.appendTo x = (.error e, x ++ begun) := by
  obtain ⟨hfault, rfl⟩ := h.fault
  rw [appendTo_eq, hfault, Option.elim_some]

theorem refused_of_error {p : Packet} {x : Bytes} {e : CodecError}
    (herror : (p.appendTo x).1 = .error e) : p.Refused e p.begun := by
  rw [appendTo_eq] at herror
  cases hfault : p.fault? with
  | none =>
    rw [hfault] at herror
    exact absurd herror (by simp)
  | some fault =>
    rw [hfault] at herror
    obtain rfl := Except.error.inj herror
    exact refused_iff.mpr ⟨hfault, rfl⟩

/-- **Writing only appends, and its refusals are known.**  A packet goes behind one buffer iff it
goes behind an empty one, with the same octets.  It is refused only for a field that exceeds its
limit, and then nothing is behind the buffer, or the header of an acknowledgment. -/
theorem appendTo_appends (p : Packet) (x : Bytes) :
    ((p.appendTo x).1 = .ok () ↔ (p.appendTo []).1 = .ok ())
      ∧ (∀ bytes, p.appendTo [] = (.ok (), bytes) → p.appendTo x = (.ok (), x ++ bytes))
      ∧ (∀ e, (p.appendTo x).1 = .error e ↔ ∃ begun, p.Refused e begun)
      ∧ ∀ e begun, p.Refused e begun → p.appendTo x = (.error e, x ++ begun) := by
  refine ⟨?_, fun bytes hempty => ?_, fun e => ⟨fun herror => ?_, fun hrefused => ?_⟩,
    fun e begun hrefused => hrefused.appendTo x⟩
  · rw [appendTo_eq_append p x]
  · rw [appendTo_eq_append p x, hempty]
  · exact ⟨p.begun, refused_of_error herror⟩
  · obtain ⟨begun, hrefused⟩ := hrefused
    rw [hrefused.appendTo x]

/-- The header of an acknowledgment of 2³¹ stays behind two octets; a data packet that exceeds
two of its limits is refused for the first, and leaves nothing. -/
theorem torn_header :
    let a : Acknowledgment := { id := 5, number := 0x80000000 }
    let torn : ControlPacket := { timestamp := 9, destination := 3, body := .ack a }
    let p : DataPacket := { sequence := 0x80000000, messageNumber := 0x20000000 }
    (control torn).appendTo [1, 2]
        = (.error (.sequenceOverflow 0x80000000),
            [1, 2] ++ Bytes.ofWords [0x80020000, 5, 9, 3])
      ∧ (data p).appendTo [1, 2] = (.error (.sequenceOverflow 0x80000000), [1, 2]) := by
  intro a torn p
  have hover : sequenceMax < 0x80000000 := by decide
  have htorn : (control torn).Refused (.sequenceOverflow 0x80000000) (torn.header 5) :=
    .acknowledgment (p := torn) (a := a) rfl hover
  have hheader : torn.header 5 = Bytes.ofWords [0x80020000, 5, 9, 3] := by decide
  rw [hheader] at htorn
  have hdata : (data p).Refused (.sequenceOverflow 0x80000000) [] := .sequence (p := p) hover
  exact ⟨(appendTo_appends (control torn) [1, 2]).2.2.2 _ _ htorn,
    (appendTo_appends (data p) [1, 2]).2.2.2 _ _ hdata⟩

end Packet

end ReliableSender
