/-
  ReliableSender.Proofs.Packet.RoundTrip
  ──────────────────────────────────────
  **A WRITTEN PACKET IS READ BACK.**

  One lemma for each shape of packet: what its octets are, and what reading
  them gives.  The header is the same for all of them, so reading it is
  settled first (`read_ofWords`, `decode_header`).

      decode_encode — reading gives the packet back and leaves the padding,
                      unless it is a loss report too large to be read
-/
import ReliableSender.Packet.Decode
import ReliableSender.Proofs.Packet.LossReport

namespace ReliableSender

/-! ## §1. Which packets are meant. -/

/-- The report comes from a list of lost numbers or from a received datagram. -/
def LossReport.Made (report : LossReport) : Prop :=
  (∃ lost, ofSequences lost = .ok report) ∨ ∃ b rest, read b = .ok (report, rest)

namespace Packet

/-- The loss report that a packet carries. -/
def lossReport? : Packet → Option LossReport
  | control { body := .nak report, .. } => some report
  | _ => none

/-- The packet carries the report of more lost numbers than a reader takes. -/
def Oversized (p : Packet) : Prop :=
  ∃ report lost, p.lossReport? = some report ∧ LossReport.ofSequences lost = .ok report
    ∧ 65536 < lost.dedup.length

/-- The octets behind a packet that belong to no field of it. -/
def padding : Packet → Bytes
  | control { body := .keepAlive, .. } | control { body := .shutdown, .. } => [0, 0, 0, 0]
  | _ => []

end Packet

/-! ## §2. The header. -/

namespace Header

theorem read_ofWords (h : Header) (rest : Bytes) :
    read (Bytes.ofWords [h.leading, h.additional, h.timestamp, h.destination] ++ rest)
      = .ok (h, rest) := by
  have hwords : Bytes.ofWords [h.leading, h.additional, h.timestamp, h.destination] ++ rest
      = Bytes.ofWord h.leading ++ (Bytes.ofWord h.additional ++ (Bytes.ofWord h.timestamp
          ++ (Bytes.ofWord h.destination ++ rest))) := by
    unfold Bytes.ofWords
    simp
  rw [hwords]
  unfold read
  simp

end Header

/-! ## §3. Data packets. -/

/-- The bits of a word that a message number has are a remainder. -/
theorem toNat_and_messageNumberMax (w : UInt32) :
    (w &&& 0x1FFFFFFF).toNat = w.toNat % 0x20000000 := by
  rw [UInt32.toNat_and]
  exact Nat.and_two_pow_sub_one_eq_mod w.toNat 29

namespace DataPacket

/-- The header of a packet whose fields fit. -/
def toHeader (p : DataPacket) : Header where
  leading := UInt32.ofNat p.sequence
  additional := p.messageWord
  timestamp := p.timestamp
  destination := p.destination

/-- The three fields of the second word do not overlap. -/
theorem toNat_messageWord {p : DataPacket} (h : p.messageNumber.toNat ≤ messageNumberMax) :
    p.messageWord.toNat
      = p.position.code * 0x40000000 + p.inOrder.toNat * 0x20000000
        + p.messageNumber.toNat := by
  have hcode := p.position.code_lt
  have horder := p.inOrder.toNat_le
  unfold messageNumberMax at h
  unfold messageWord
  rw [UInt32.toNat_ofNat']
  omega

theorem ofHeader_toHeader {p : DataPacket} (hseq : p.sequence ≤ sequenceMax)
    (hnumber : p.messageNumber.toNat ≤ messageNumberMax) :
    ofHeader p.toHeader p.payload = p := by
  -- Each field is read off the sum: the fields above it are multiples of its width, and
  -- the ones below it are too small to carry.
  have hword := toNat_messageWord hnumber
  have hcode := p.position.code_lt
  have horder := p.inOrder.toNat_le
  have hsequence : (UInt32.ofNat p.sequence).toNat = p.sequence := by
    unfold sequenceMax at hseq
    rw [UInt32.toNat_ofNat']
    omega
  have hposition : Position.ofCode (p.messageWord.toNat / 0x40000000) = p.position := by
    have hdiv : p.messageWord.toNat / 0x40000000 = p.position.code := by
      unfold messageNumberMax at hnumber
      omega
    rw [hdiv, Position.ofCode_code]
  have hflag : (p.messageWord.toNat / 0x20000000 % 2 == 1) = p.inOrder := by
    have hbit : p.messageWord.toNat / 0x20000000 % 2 = p.inOrder.toNat := by
      unfold messageNumberMax at hnumber
      omega
    rw [hbit]
    cases p.inOrder <;> rfl
  have hmessage : UInt32.ofNat (p.messageWord.toNat % 0x20000000) = p.messageNumber := by
    have hmod : p.messageWord.toNat % 0x20000000 = p.messageNumber.toNat := by
      unfold messageNumberMax at hnumber
      omega
    rw [hmod]
    exact UInt32.ofNat_toNat
  unfold ofHeader toHeader
  simp only
  rw [hsequence, hposition, hflag, hmessage]

theorem fault?_eq_none {p : DataPacket} (h : p.fault? = none) :
    p.sequence ≤ sequenceMax ∧ p.messageNumber.toNat ≤ messageNumberMax := by
  unfold fault? at h
  by_cases hseq : sequenceMax < p.sequence
  · rw [if_pos hseq] at h
    exact absurd h (by simp)
  · rw [if_neg hseq] at h
    by_cases hnumber : messageNumberMax < p.messageNumber.toNat
    · rw [if_pos hnumber] at h
      exact absurd h (by simp)
    · exact ⟨Nat.le_of_not_lt hseq, Nat.le_of_not_lt hnumber⟩

/-- A data packet that can be written has fields that fit. -/
theorem encode_data {p : DataPacket} {bytes : Bytes}
    (h : (Packet.data p).encode = .ok bytes) :
    p.sequence ≤ sequenceMax ∧ p.messageNumber.toNat ≤ messageNumberMax
      ∧ bytes = p.toBytes := by
  unfold Packet.encode Packet.appendTo appendTo at h
  cases hfault : p.fault? with
  | some e =>
    simp only [hfault] at h
    exact absurd h (by simp)
  | none =>
    simp only [hfault, List.nil_append] at h
    obtain ⟨hseq, hnumber⟩ := fault?_eq_none hfault
    exact ⟨hseq, hnumber, (Except.ok.inj h).symm⟩

/-- A data packet takes everything behind its header. -/
theorem decode_toBytes {p : DataPacket} (hseq : p.sequence ≤ sequenceMax)
    (hnumber : p.messageNumber.toNat ≤ messageNumberMax) :
    Packet.decode p.toBytes = .ok (.data p, []) := by
  have hread : Header.read p.toBytes = .ok (p.toHeader, p.payload) :=
    Header.read_ofWords p.toHeader p.payload
  have hdata : p.toHeader.isControl = false := by
    unfold sequenceMax at hseq
    unfold Header.isControl toHeader ControlPacket.controlFlag
    rw [UInt32.toNat_ofNat']
    exact decide_eq_false (by omega)
  unfold Packet.decode
  rw [hread]
  simp only
  rw [hdata, ofHeader_toHeader hseq hnumber]
  rfl

end DataPacket

/-! ## §4. Bodies of control packets. -/

namespace ControlBody

variable {header : Header} {b : Bytes}

theorem read_keepAlive (h : ControlKind.ofCode? header.kindCode = some .keepAlive) :
    read header b = .ok (.keepAlive, b) := by
  unfold read
  rw [h]

theorem read_shutdown (h : ControlKind.ofCode? header.kindCode = some .shutdown) :
    read header b = .ok (.shutdown, b) := by
  unfold read
  rw [h]

theorem read_ack2 (h : ControlKind.ofCode? header.kindCode = some .ack2) :
    read header b = .ok (.ack2 header.additional.toNat, b) := by
  unfold read
  rw [h]

theorem read_ack (h : ControlKind.ofCode? header.kindCode = some .ack) :
    read header b = (Acknowledgment.read header.additional b).map fun r => (.ack r.1, r.2) := by
  unfold read
  rw [h]
  simp only
  cases Acknowledgment.read header.additional b <;> rfl

theorem read_nak (h : ControlKind.ofCode? header.kindCode = some .nak) :
    read header b = (LossReport.read b).map fun r => (.nak r.1, r.2) := by
  unfold read
  rw [h]
  simp only
  cases LossReport.read b <;> rfl

end ControlBody

/-! ## §5. Control packets. -/

namespace ControlPacket

/-- The header of a control packet with the given second word. -/
def toHeader (p : ControlPacket) (additional : UInt32) : Header where
  leading := UInt32.ofNat (controlFlag + p.body.kind.code * 0x10000)
  additional := additional
  timestamp := p.timestamp
  destination := p.destination

theorem toNat_leading (p : ControlPacket) (additional : UInt32) :
    (p.toHeader additional).leading.toNat = controlFlag + p.body.kind.code * 0x10000 := by
  have hcode := p.body.kind.code_lt
  unfold toHeader controlFlag
  rw [UInt32.toNat_ofNat']
  omega

theorem kindCode_toHeader (p : ControlPacket) (additional : UInt32) :
    (p.toHeader additional).kindCode = p.body.kind.code := by
  have hcode := p.body.kind.code_lt
  unfold Header.kindCode
  rw [toNat_leading]
  unfold controlFlag
  omega

theorem ofCode?_kindCode (p : ControlPacket) (additional : UInt32) :
    ControlKind.ofCode? (p.toHeader additional).kindCode = some p.body.kind := by
  rw [kindCode_toHeader, ControlKind.ofCode?_code]

/-- Behind a control header stands a body. -/
theorem decode_header (p : ControlPacket) (additional : UInt32) (rest : Bytes) :
    Packet.decode (p.header additional ++ rest)
      = (ControlBody.read (p.toHeader additional) rest).map
          fun r => (.control { p with body := r.1 }, r.2) := by
  have hread : Header.read (p.header additional ++ rest)
      = .ok (p.toHeader additional, rest) :=
    Header.read_ofWords (p.toHeader additional) rest
  have hcontrol : (p.toHeader additional).isControl = true := by
    unfold Header.isControl
    rw [toNat_leading]
    exact decide_eq_true (Nat.le_add_right _ _)
  unfold Packet.decode
  rw [hread]
  simp only
  rw [if_pos hcontrol]
  cases ControlBody.read (p.toHeader additional) rest <;> rfl

/-- Keep-alive and shutdown packets read nothing of their padding. -/
theorem decode_padded {p : ControlPacket} (h : p.body = .keepAlive ∨ p.body = .shutdown) :
    Packet.decode (p.header 0 ++ Bytes.ofWord 0) = .ok (.control p, [0, 0, 0, 0]) := by
  have hkind := ofCode?_kindCode p 0
  rw [decode_header]
  rcases h with h | h
  · rw [h] at hkind
    rw [ControlBody.read_keepAlive hkind]
    show Except.ok (Packet.control { p with body := .keepAlive }, Bytes.ofWord 0) = _
    rw [← h]
    rfl
  · rw [h] at hkind
    rw [ControlBody.read_shutdown hkind]
    show Except.ok (Packet.control { p with body := .shutdown }, Bytes.ofWord 0) = _
    rw [← h]
    rfl

/-- A full acknowledgment is read to its last word. -/
theorem read_acknowledgment {a : Acknowledgment} (hnumber : a.number ≤ sequenceMax) :
    Acknowledgment.read a.id (Bytes.ofWords
        [UInt32.ofNat a.number, a.roundTrip, a.roundTripVariation, a.availableBuffer])
      = .ok (a, []) := by
  have hword : (UInt32.ofNat a.number).toNat = a.number := by
    unfold sequenceMax at hnumber
    rw [UInt32.toNat_ofNat']
    omega
  have hbytes : Bytes.ofWords
      [UInt32.ofNat a.number, a.roundTrip, a.roundTripVariation, a.availableBuffer]
      = Bytes.ofWord (UInt32.ofNat a.number) ++ (Bytes.ofWord a.roundTrip
          ++ (Bytes.ofWord a.roundTripVariation ++ (Bytes.ofWord a.availableBuffer ++ []))) := by
    unfold Bytes.ofWords
    simp
  rw [hbytes]
  unfold Acknowledgment.read
  simp only [Bytes.word?_ofWord, hword, Option.bind_eq_bind, Option.bind_some,
    Option.getD_some]

theorem decode_ack {p : ControlPacket} {a : Acknowledgment} (h : p.body = .ack a)
    (hnumber : a.number ≤ sequenceMax) :
    Packet.decode (p.header a.id ++ Bytes.ofWords
        [UInt32.ofNat a.number, a.roundTrip, a.roundTripVariation, a.availableBuffer])
      = .ok (.control p, []) := by
  have hkind := ofCode?_kindCode p a.id
  rw [h] at hkind
  have hread : Acknowledgment.read (p.toHeader a.id).additional (Bytes.ofWords
      [UInt32.ofNat a.number, a.roundTrip, a.roundTripVariation, a.availableBuffer])
        = .ok (a, []) := read_acknowledgment hnumber
  rw [decode_header, ControlBody.read_ack hkind, hread]
  show Except.ok (Packet.control { p with body := .ack a }, []) = _
  rw [← h]

/-- The acknowledgment of an acknowledgment is in the header alone. -/
theorem decode_ack2 {p : ControlPacket} {number : Nat} (h : p.body = .ack2 number)
    (hnumber : number ≤ sequenceMax) :
    Packet.decode (p.header (UInt32.ofNat number)) = .ok (.control p, []) := by
  have hword : (UInt32.ofNat number).toNat = number := by
    unfold sequenceMax at hnumber
    rw [UInt32.toNat_ofNat']
    omega
  have hkind := ofCode?_kindCode p (UInt32.ofNat number)
  rw [h] at hkind
  have hadditional : (p.toHeader (UInt32.ofNat number)).additional = UInt32.ofNat number := rfl
  have hdecode := p.decode_header (UInt32.ofNat number) []
  rw [List.append_nil, ControlBody.read_ack2 hkind, hadditional, hword] at hdecode
  rw [hdecode]
  show Except.ok (Packet.control { p with body := .ack2 number }, []) = _
  rw [← h]

/-- A loss report is read as its words are. -/
theorem decode_nak (p : ControlPacket) {report : LossReport} (h : p.body = .nak report) :
    Packet.decode (p.header 0 ++ Bytes.ofWords report.words)
      = (LossReport.ofWords report.words).map
          fun report => (.control { p with body := .nak report }, []) := by
  have hkind := ofCode?_kindCode p 0
  rw [h] at hkind
  rw [decode_header, ControlBody.read_nak hkind]
  unfold LossReport.read
  rw [Bytes.words_ofWords]
  simp only
  cases LossReport.ofWords report.words <;> rfl

/-- What is written behind nothing are the octets of the packet. -/
theorem eq_of_encode {p : ControlPacket} {written bytes : Bytes}
    (happend : p.appendTo [] = (.ok (), written))
    (h : (Packet.control p).encode = .ok bytes) : bytes = written := by
  have hwritten : (Packet.control p).appendTo [] = (.ok (), written) := happend
  unfold Packet.encode at h
  rw [hwritten] at h
  exact (Except.ok.inj h).symm

/-- A refusal leaves a packet without octets. -/
theorem ne_ok_of_error {p : ControlPacket} {e : CodecError} {written bytes : Bytes}
    (happend : p.appendTo [] = (.error e, written)) :
    (Packet.control p).encode ≠ .ok bytes := by
  have hwritten : (Packet.control p).appendTo [] = (.error e, written) := happend
  unfold Packet.encode
  rw [hwritten]
  simp

theorem encode_padded {p : ControlPacket} {bytes : Bytes}
    (h : p.body = .keepAlive ∨ p.body = .shutdown)
    (hbytes : (Packet.control p).encode = .ok bytes) :
    bytes = p.header 0 ++ Bytes.ofWord 0 := by
  have happend : p.appendTo [] = (.ok (), [] ++ p.header 0 ++ Bytes.ofWord 0) := by
    unfold appendTo
    rcases h with h | h
    · rw [h]
    · rw [h]
  rw [List.nil_append] at happend
  exact eq_of_encode happend hbytes

theorem encode_nak {p : ControlPacket} {report : LossReport} {bytes : Bytes}
    (h : p.body = .nak report) (hbytes : (Packet.control p).encode = .ok bytes) :
    bytes = p.header 0 ++ Bytes.ofWords report.words := by
  have happend : p.appendTo [] = (.ok (), [] ++ p.header 0 ++ Bytes.ofWords report.words) := by
    unfold appendTo
    rw [h]
  rw [List.nil_append] at happend
  exact eq_of_encode happend hbytes

/-- An acknowledgment that can be written has a number that fits. -/
theorem encode_ack {p : ControlPacket} {a : Acknowledgment} {bytes : Bytes}
    (h : p.body = .ack a) (hbytes : (Packet.control p).encode = .ok bytes) :
    a.number ≤ sequenceMax
      ∧ bytes = p.header a.id ++ Bytes.ofWords
          [UInt32.ofNat a.number, a.roundTrip, a.roundTripVariation, a.availableBuffer] := by
  have happend : p.appendTo []
      = if sequenceMax < a.number then
          (.error (.sequenceOverflow a.number), [] ++ p.header a.id)
        else (.ok (), [] ++ p.header a.id ++ Bytes.ofWords
          [UInt32.ofNat a.number, a.roundTrip, a.roundTripVariation, a.availableBuffer]) := by
    unfold appendTo
    rw [h]
  by_cases hnumber : sequenceMax < a.number
  · rw [if_pos hnumber] at happend
    exact absurd hbytes (ne_ok_of_error happend)
  · rw [if_neg hnumber, List.nil_append] at happend
    exact ⟨Nat.le_of_not_lt hnumber, eq_of_encode happend hbytes⟩

theorem encode_ack2 {p : ControlPacket} {number : Nat} {bytes : Bytes}
    (h : p.body = .ack2 number) (hbytes : (Packet.control p).encode = .ok bytes) :
    number ≤ sequenceMax ∧ bytes = p.header (UInt32.ofNat number) := by
  have happend : p.appendTo []
      = if sequenceMax < number then (.error (.sequenceOverflow number), [])
        else (.ok (), [] ++ p.header (UInt32.ofNat number)) := by
    unfold appendTo
    rw [h]
  by_cases hnumber : sequenceMax < number
  · rw [if_pos hnumber] at happend
    exact absurd hbytes (ne_ok_of_error happend)
  · rw [if_neg hnumber, List.nil_append] at happend
    exact ⟨Nat.le_of_not_lt hnumber, eq_of_encode happend hbytes⟩

end ControlPacket

/-! ## §6. Packets. -/

theorem LossReport.ofWords_of_read {b rest : Bytes} {report : LossReport}
    (h : read b = .ok (report, rest)) : ofWords b.words.1 = .ok report := by
  unfold read at h
  simp only at h
  cases hwords : ofWords b.words.1 with
  | error e =>
    rw [hwords] at h
    exact absurd h (by simp)
  | ok report' =>
    rw [hwords] at h
    rw [(Prod.mk.inj (Except.ok.inj h)).1]

/-- A built report of few numbers is read back, and a received one passed the limits
already. -/
theorem LossReport.Made.ofWords_words {report : LossReport} (h : report.Made)
    (hfits : ∀ lost, ofSequences lost = .ok report → lost.dedup.length ≤ maxLossEntries) :
    ofWords report.words = .ok report := by
  rcases h with ⟨lost, hlost⟩ | ⟨b, rest, hb⟩
  · exact (ofWords_ofSequences hlost).1 (hfits lost hlost)
  · exact ofWords_idempotent (ofWords_of_read hb)

namespace Packet

theorem not_oversized {p : Packet} (h : p.lossReport? = none) : ¬ p.Oversized := by
  rintro ⟨report, _, hreport, _⟩
  rw [h] at hreport
  exact absurd hreport (by simp)

/-- **A written packet is read back.**  Reading the octets of a packet gives the packet
and leaves its padding, four octets for a keep-alive or a shutdown and none for the others.
The one exception is the report of more than 65536 different lost numbers: it can be
written, and it is refused for its size when it is read. -/
theorem decode_encode {p : Packet} {bytes : Bytes}
    (hmade : ∀ report, p.lossReport? = some report → report.Made)
    (hbytes : p.encode = .ok bytes) :
    (¬ p.Oversized → decode bytes = .ok (p, p.padding))
      ∧ (p.Oversized → ∃ e : CodecError, decode bytes = .error e ∧ e.IsTooLarge) := by
  match p with
  | data p =>
    obtain ⟨hseq, hnumber, rfl⟩ := DataPacket.encode_data hbytes
    exact ⟨fun _ => DataPacket.decode_toBytes hseq hnumber,
      fun hover => absurd hover (not_oversized rfl)⟩
  | control ⟨timestamp, destination, .keepAlive⟩ =>
    obtain rfl := ControlPacket.encode_padded (Or.inl rfl) hbytes
    exact ⟨fun _ => ControlPacket.decode_padded (Or.inl rfl),
      fun hover => absurd hover (not_oversized rfl)⟩
  | control ⟨timestamp, destination, .shutdown⟩ =>
    obtain rfl := ControlPacket.encode_padded (Or.inr rfl) hbytes
    exact ⟨fun _ => ControlPacket.decode_padded (Or.inr rfl),
      fun hover => absurd hover (not_oversized rfl)⟩
  | control ⟨timestamp, destination, .ack a⟩ =>
    obtain ⟨hnumber, rfl⟩ := ControlPacket.encode_ack rfl hbytes
    exact ⟨fun _ => ControlPacket.decode_ack rfl hnumber,
      fun hover => absurd hover (not_oversized rfl)⟩
  | control ⟨timestamp, destination, .ack2 number⟩ =>
    obtain ⟨hnumber, rfl⟩ := ControlPacket.encode_ack2 rfl hbytes
    exact ⟨fun _ => ControlPacket.decode_ack2 rfl hnumber,
      fun hover => absurd hover (not_oversized rfl)⟩
  | control ⟨timestamp, destination, .nak report⟩ =>
    let whole : ControlPacket := ⟨timestamp, destination, .nak report⟩
    have hbody : whole.body = .nak report := rfl
    have hread := whole.decode_nak hbody
    obtain rfl := ControlPacket.encode_nak hbody hbytes
    constructor
    · intro hfits
      have hwords : LossReport.ofWords report.words = .ok report := by
        refine (hmade report rfl).ofWords_words fun lost hlost => Nat.le_of_not_lt fun hover => ?_
        exact hfits ⟨report, lost, rfl, hlost, hover⟩
      exact hread.trans (by rw [hwords]; rfl)
    · rintro ⟨_, lost, hreport, hlost, hover⟩
      obtain rfl := Option.some.inj hreport
      obtain ⟨e, hwords, he⟩ := (LossReport.ofWords_ofSequences hlost).2 hover
      exact ⟨e, hread.trans (by rw [hwords]; rfl), he⟩

/-- A received report of the range from 3 to 5 and the number 9. -/
theorem decode_encode_nak :
    let p : Packet := .control { timestamp := 7, body := .nak ⟨[0x80000003, 5, 9]⟩ }
    let bytes := Bytes.ofWords [0x80030000, 0, 7, 0, 0x80000003, 5, 9]
    (∀ report, p.lossReport? = some report → report.Made) ∧ p.encode = .ok bytes
      ∧ (¬ p.Oversized → decode bytes = .ok (p, []))
      ∧ (p.Oversized → ∃ e : CodecError, decode bytes = .error e ∧ e.IsTooLarge) := by
  intro p bytes
  have hmade : ∀ report, p.lossReport? = some report → report.Made := by
    intro report h
    obtain rfl := Option.some.inj h
    exact Or.inr ⟨Bytes.ofWords [0x80000003, 5, 9], [], by decide⟩
  have hbytes : p.encode = .ok bytes := by decide
  exact ⟨hmade, hbytes, decode_encode hmade hbytes⟩

end Packet

end ReliableSender
