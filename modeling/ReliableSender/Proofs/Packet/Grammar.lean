/-
  ReliableSender.Proofs.Packet.Grammar
  ────────────────────────────────────
  **WHICH OCTETS ARE A PACKET.**

  The outcome of reading is laid down by the length of a datagram, its
  highest bit, the 15 bits behind it and, for two kinds of control packet,
  the body.  `Grammar` is the table of these cases, with the fields at their
  offsets and the octets left unread.

  A reader that moves a cursor over the octets has to check the length before
  it takes a word.  Reading is done a second time here with these checks, and
  with no outcome at all for a word taken where less than four octets are
  left:

      Header.read_eq      — the header is the first 16 octets
      decodeGuarded_eq    — no word is taken past the end
      decode_grammar      — the outcome of reading, for every octet string
-/
import ReliableSender.Proofs.Bytes
import ReliableSender.Proofs.Packet.WriteBack

namespace ReliableSender

/-! ## §1. The header at its offsets. -/

namespace Bytes

/-- Whether the highest bit is set. -/
def startsControl (b : Bytes) : Bool := 128 ≤ (b.getD 0 0).toNat

/-- The 15 bits behind the highest one. -/
def kindCode (b : Bytes) : Nat := (b.getD 0 0).toNat % 128 * 256 + (b.getD 1 0).toNat

theorem toNat_wordAt (b : Bytes) (i : Nat) :
    (b.wordAt i).toNat = (b.getD i 0).toNat * 16777216 + (b.getD (i + 1) 0).toNat * 65536
      + (b.getD (i + 2) 0).toNat * 256 + (b.getD (i + 3) 0).toNat :=
  toNat_toWord _ _ _ _

end Bytes

namespace Header

/-- The header at the front of an octet string. -/
def front (b : Bytes) : Header := ⟨b.wordAt 0, b.wordAt 4, b.wordAt 8, b.wordAt 12⟩

theorem isControl_front (b : Bytes) : (front b).isControl = b.startsControl := by
  have h₀ := (b.getD 0 0).toNat_lt
  have h₁ := (b.getD 1 0).toNat_lt
  have h₂ := (b.getD 2 0).toNat_lt
  have h₃ := (b.getD 3 0).toNat_lt
  unfold isControl Bytes.startsControl ControlPacket.controlFlag
  show decide (0x80000000 ≤ (b.wordAt 0).toNat) = _
  rw [Bytes.toNat_wordAt, decide_eq_decide]
  -- The three octets behind the first do not reach the highest bit.
  simp only [Nat.zero_add]
  omega

theorem kindCode_front (b : Bytes) : (front b).kindCode = b.kindCode := by
  have h₁ := (b.getD 1 0).toNat_lt
  have h₂ := (b.getD 2 0).toNat_lt
  have h₃ := (b.getD 3 0).toNat_lt
  unfold kindCode Bytes.kindCode ControlPacket.controlFlag
  show (b.wordAt 0).toNat % 0x80000000 / 0x10000 = _
  rw [Bytes.toNat_wordAt]
  -- The division takes the two reserved octets off.
  simp only [Nat.zero_add]
  omega

/-- The one reason for which there is no header. -/
theorem eq_truncated_of_read {b : Bytes} {e : CodecError} (h : read b = .error e) :
    e = .truncated 16 b.length := by
  unfold read at h
  simp only at h
  split at h
  · exact absurd h (by simp)
  · exact (Except.error.inj h).symm

/-- **The header is the first 16 octets**, if there are that many. -/
theorem read_eq (b : Bytes) :
    read b = if b.length < 16 then .error (.truncated 16 b.length)
      else .ok (front b, b.drop 16) := by
  by_cases hshort : b.length < 16
  · rw [if_pos hshort]
    cases hread : read b with
    | error e => rw [eq_truncated_of_read hread]
    | ok r =>
      have hlength := congrArg List.length (eq_of_read hread)
      rw [List.length_append] at hlength
      have hheader : (Bytes.ofWords [r.1.leading, r.1.additional, r.1.timestamp,
        r.1.destination]).length = 16 := rfl
      omega
  · rw [if_neg hshort]
    have h₀ : 4 ≤ b.length := by omega
    have h₄ : 4 + 4 ≤ b.length := by omega
    have h₈ : 8 + 4 ≤ b.length := by omega
    have h₁₂ : 12 + 4 ≤ b.length := by omega
    unfold read
    simp only [Bytes.word?_of_le h₀, Bytes.word?_drop_of_le h₄, Bytes.word?_drop_of_le h₈,
      Bytes.word?_drop_of_le h₁₂, Option.bind_eq_bind, Option.bind_some]
    rfl

end Header

/-! ## §2. Bodies at their offsets. -/

/-- A body is known by the kind and the second word of its header. -/
theorem ControlBody.read_congr {h h' : Header} (hkind : h.kindCode = h'.kindCode)
    (hadditional : h.additional = h'.additional) (b : Bytes) : read h b = read h' b := by
  unfold read
  rw [hkind, hadditional]

/-- Every code but five is refused. -/
theorem ControlBody.read_unsupported {h : Header} (hother : h.kindCode ∉ [1, 2, 3, 5, 6])
    (b : Bytes) : read h b = .error (.unsupportedControl h.kindCode) := by
  unfold read
  cases hcode : ControlKind.ofCode? h.kindCode with
  | none => rfl
  | some kind =>
    rw [ControlKind.eq_code_of_ofCode? hcode] at hother
    cases kind with
    | handshake | messageDropRequest => rfl
    | keepAlive | ack | nak | shutdown | ack2 => exact absurd hother (by decide)

/-- An acknowledgment of less than four words carries its number only. -/
theorem Acknowledgment.read_eq (id : UInt32) (b : Bytes) :
    read id b = if b.length < 4 then .error (.truncated 4 b.length)
      else if b.length < 16 then .ok ({ id, number := (b.wordAt 0).toNat }, b.drop 4)
      else .ok (⟨id, (b.wordAt 0).toNat, b.wordAt 4, b.wordAt 8, b.wordAt 12⟩, b.drop 16) := by
  unfold read
  by_cases hnone : b.length < 4
  · rw [if_pos hnone, Bytes.word?_of_lt hnone]
  · rw [if_neg hnone, Bytes.word?_of_le (Nat.le_of_not_lt hnone)]
    by_cases hlight : b.length < 12 + 4
    · rw [if_pos hlight]
      -- The first missing word ends the reading of the others.
      by_cases h₄ : b.length < 4 + 4
      · simp [Bytes.word?_drop_of_lt h₄]
      · have h₄ := Bytes.word?_drop_of_le (Nat.le_of_not_lt h₄)
        by_cases h₈ : b.length < 8 + 4
        · simp [h₄, Bytes.word?_drop_of_lt h₈]
        · have h₈ := Bytes.word?_drop_of_le (Nat.le_of_not_lt h₈)
          simp [h₄, h₈, Bytes.word?_drop_of_lt hlight]
    · have h₄ : 4 + 4 ≤ b.length := by omega
      have h₈ : 8 + 4 ≤ b.length := by omega
      rw [if_neg hlight]
      simp [Bytes.word?_drop_of_le h₄, Bytes.word?_drop_of_le h₈,
        Bytes.word?_drop_of_le (Nat.le_of_not_lt hlight)]

namespace Packet

/-- The packet of a datagram, or why it is none. -/
theorem decode_eq (b : Bytes) :
    decode b = if b.length < 16 then .error (.truncated 16 b.length)
      else if b.startsControl then
        (ControlBody.read (Header.front b) (b.drop 16)).map fun r =>
          (.control { timestamp := b.wordAt 8, destination := b.wordAt 12, body := r.1 }, r.2)
      else .ok (.data (.ofHeader (Header.front b) (b.drop 16)), []) := by
  unfold decode
  rw [Header.read_eq]
  by_cases hshort : b.length < 16
  · rw [if_pos hshort, if_pos hshort]
  · rw [if_neg hshort, if_neg hshort]
    simp only [Header.isControl_front]
    by_cases hcontrol : b.startsControl = true
    · rw [if_pos hcontrol, if_pos hcontrol]
      cases ControlBody.read (Header.front b) (b.drop 16) <;> rfl
    · rw [if_neg hcontrol, if_neg hcontrol]

end Packet

/-! ## §3. Reading with a cursor. -/

/-- The word at an offset.  There is none where less than four octets are left. -/
def Bytes.wordAt? (b : Bytes) (i : Nat) : Option UInt32 :=
  if i + 4 ≤ b.length then some (b.wordAt i) else none

theorem Bytes.wordAt?_of_le {b : Bytes} {i : Nat} (h : i + 4 ≤ b.length) :
    b.wordAt? i = some (b.wordAt i) := if_pos h

/-- What a reader returns, with the octets left unread. -/
abbrev Reading (α : Type) := Except CodecError (α × Bytes)

/-- Read the entries of a loss report behind `kept`, which count for `named` numbers.  As in the
readers below there is no outcome, if a word is taken past the end. -/
def LossReport.readGuarded (named : Nat) (kept : List UInt32) (b : Bytes) :
    Option (Reading LossReport) :=
  if h : b.length < 4 then some (.ok (⟨kept.reverse⟩, b))
  else do
    let w ← b.wordAt? 0
    if opensRange w then
      if b.length - 4 < 4 then some (.error (.unterminatedRange (number w)))
      else do
        let stop ← b.wordAt? 4
        let range : Range := ⟨number w, number stop⟩
        if maxLossRange < range.size then
          some (.error (.lossRangeTooLarge range.first range.last))
        else if maxLossEntries < named + range.size then
          some (.error (.tooManyLosses (named + range.size)))
        else readGuarded (named + range.size) (UInt32.ofNat (number stop) :: w :: kept) (b.drop 8)
    else if maxLossEntries < named + 1 then some (.error (.tooManyLosses (named + 1)))
    else readGuarded (named + 1) (w :: kept) (b.drop 4)
termination_by b.length
decreasing_by
  · simp only [List.length_drop]
    omega
  · simp only [List.length_drop]
    omega

/-- Read the body of an acknowledgment with the given id. -/
def Acknowledgment.readGuarded (id : UInt32) (b : Bytes) : Option (Reading Acknowledgment) :=
  if b.length < 4 then some (.error (.truncated 4 b.length))
  else do
    let number ← b.wordAt? 0
    if b.length - 4 < 12 then some (.ok ({ id, number := number.toNat }, b.drop 4))
    else do
      let roundTrip ← b.wordAt? 4
      let roundTripVariation ← b.wordAt? 8
      let availableBuffer ← b.wordAt? 12
      some (.ok (⟨id, number.toNat, roundTrip, roundTripVariation, availableBuffer⟩, b.drop 16))

/-- Read the body that a header announces. -/
def ControlBody.readGuarded (h : Header) (b : Bytes) : Option (Reading ControlBody) :=
  match ControlKind.ofCode? h.kindCode with
  | some .keepAlive => some (.ok (.keepAlive, b))
  | some .shutdown => some (.ok (.shutdown, b))
  | some .ack2 => some (.ok (.ack2 h.additional.toNat, b))
  | some .ack => (Acknowledgment.readGuarded h.additional b).map
      (Except.map fun r => (.ack r.1, r.2))
  | some .nak => (LossReport.readGuarded 0 [] b).map (Except.map fun r => (.nak r.1, r.2))
  | some .handshake | some .messageDropRequest | none =>
    some (.error (.unsupportedControl h.kindCode))

/-- Read one packet.  The length of the header is asked for again behind its first word. -/
def Packet.decodeGuarded (b : Bytes) : Option (Reading Packet) :=
  if b.length < headerSize then some (.error (.truncated headerSize b.length))
  else do
    let leading ← b.wordAt? 0
    if b.length - 4 < headerSize - 4 then
      some (.error (.truncated (headerSize - 4) (b.length - 4)))
    else do
      let additional ← b.wordAt? 4
      let timestamp ← b.wordAt? 8
      let destination ← b.wordAt? 12
      let h : Header := ⟨leading, additional, timestamp, destination⟩
      if h.isControl then
        (ControlBody.readGuarded h (b.drop 16)).map
          (Except.map fun r => (.control { timestamp, destination, body := r.1 }, r.2))
      else some (.ok (.data (.ofHeader h (b.drop 16)), []))

/-- An octet string that holds a word begins with it. -/
theorem Bytes.words_of_le {b : Bytes} (h : 4 ≤ b.length) :
    words b = (b.wordAt 0 :: (words (b.drop 4)).1, (words (b.drop 4)).2) := by
  match b, h with
  | w :: x :: y :: z :: rest, _ => exact words_cons w x y z rest

/-- **No word of a loss report is taken past the end.** -/
theorem LossReport.readGuarded_eq (named : Nat) (kept : List UInt32) (b : Bytes) :
    readGuarded named kept b
      = some ((ofWords.go named kept b.words.1).map fun report => (report, b.words.2)) := by
  -- A turn of the loop is an entry; what it leaves is shorter by one word or by two.
  rw [readGuarded]
  by_cases hshort : b.length < 4
  · rw [dif_pos hshort, Bytes.words_of_length_lt hshort, ofWords.go]
    rfl
  · have hle : 0 + 4 ≤ b.length := by omega
    rw [dif_neg hshort, Bytes.wordAt?_of_le hle, Bytes.words_of_le (Nat.le_of_not_lt hshort),
      Option.bind_eq_bind, Option.bind_some]
    by_cases hflag : opensRange (b.wordAt 0) = true
    · rw [if_pos hflag]
      by_cases hopen : b.length - 4 < 4
      · have hnone : (b.drop 4).length < 4 := by
          rw [List.length_drop]
          exact hopen
        rw [if_pos hopen, Bytes.words_of_length_lt hnone, ofWords.go, if_pos hflag]
        rfl
      · have hmore : 4 ≤ (b.drop 4).length := by
          rw [List.length_drop]
          exact Nat.le_of_not_lt hopen
        have hle : 4 + 4 ≤ b.length := by omega
        rw [if_neg hopen, Bytes.wordAt?_of_le hle, Bytes.words_of_le hmore, Bytes.wordAt_drop,
          List.drop_drop, ofWords_go_range hflag, Option.bind_some]
        by_cases hlong : maxLossRange
            < (Range.mk (number (b.wordAt 0)) (number (b.wordAt 4))).size
        · rw [if_pos hlong, if_pos hlong]
          rfl
        · rw [if_neg hlong, if_neg hlong]
          by_cases hmany : maxLossEntries
              < named + (Range.mk (number (b.wordAt 0)) (number (b.wordAt 4))).size
          · rw [if_pos hmany, if_pos hmany]
            rfl
          · rw [if_neg hmany, if_neg hmany]
            exact readGuarded_eq _ _ (b.drop 8)
    · rw [if_neg hflag, ofWords_go_single (Bool.eq_false_iff.mpr hflag)]
      by_cases hmany : maxLossEntries < named + 1
      · rw [if_pos hmany, if_pos hmany]
        rfl
      · rw [if_neg hmany, if_neg hmany]
        exact readGuarded_eq _ _ (b.drop 4)
termination_by b.length
decreasing_by
  · simp only [List.length_drop]
    omega
  · simp only [List.length_drop]
    omega

theorem Acknowledgment.readGuarded_eq (id : UInt32) (b : Bytes) :
    readGuarded id b = some (read id b) := by
  rw [read_eq]
  unfold readGuarded
  by_cases hnone : b.length < 4
  · rw [if_pos hnone, if_pos hnone]
  · have h₀ : 0 + 4 ≤ b.length := by omega
    rw [if_neg hnone, if_neg hnone, Bytes.wordAt?_of_le h₀]
    by_cases hlight : b.length < 16
    · have hless : b.length - 4 < 12 := by omega
      simp only [Option.bind_eq_bind, Option.bind_some, if_pos hlight, if_pos hless]
    · have hfull : ¬ b.length - 4 < 12 := by omega
      have h₄ : 4 + 4 ≤ b.length := by omega
      have h₈ : 8 + 4 ≤ b.length := by omega
      have h₁₂ : 12 + 4 ≤ b.length := by omega
      simp only [Option.bind_eq_bind, Option.bind_some, if_neg hlight, if_neg hfull,
        Bytes.wordAt?_of_le h₄, Bytes.wordAt?_of_le h₈, Bytes.wordAt?_of_le h₁₂]

theorem ControlBody.readGuarded_eq (h : Header) (b : Bytes) :
    readGuarded h b = some (read h b) := by
  cases hkind : ControlKind.ofCode? h.kindCode with
  | none =>
    unfold readGuarded read
    rw [hkind]
  | some kind =>
    cases kind with
    | handshake | messageDropRequest | keepAlive | shutdown | ack2 =>
      unfold readGuarded read
      rw [hkind]
    | ack =>
      rw [read_ack hkind]
      unfold readGuarded
      rw [hkind]
      simp only [Acknowledgment.readGuarded_eq, Option.map_some]
    | nak =>
      have hread : LossReport.readGuarded 0 [] b = some (LossReport.read b) := by
        rw [LossReport.readGuarded_eq]
        unfold LossReport.read LossReport.ofWords
        simp only
        cases LossReport.ofWords.go 0 [] b.words.1 <;> rfl
      rw [read_nak hkind]
      unfold readGuarded
      rw [hkind]
      simp only [hread, Option.map_some]

/-- **No word is taken past the end**: a reader with a cursor has an outcome for every octet
string, and it is the outcome of reading. -/
theorem Packet.decodeGuarded_eq (b : Bytes) : decodeGuarded b = some (decode b) := by
  rw [decode_eq]
  unfold decodeGuarded headerSize
  by_cases hshort : b.length < 16
  · rw [if_pos hshort, if_pos hshort]
  · -- The first check covers the whole header, so the second one never fails.
    have hrest : ¬ b.length - 4 < 16 - 4 := by omega
    have h₀ : 0 + 4 ≤ b.length := by omega
    have h₄ : 4 + 4 ≤ b.length := by omega
    have h₈ : 8 + 4 ≤ b.length := by omega
    have h₁₂ : 12 + 4 ≤ b.length := by omega
    rw [if_neg hshort, if_neg hshort, Bytes.wordAt?_of_le h₀, Bytes.wordAt?_of_le h₄,
      Bytes.wordAt?_of_le h₈, Bytes.wordAt?_of_le h₁₂, Option.bind_eq_bind, Option.bind_some,
      if_neg hrest, Option.bind_some, Option.bind_some, Option.bind_some]
    show (if (Header.front b).isControl then
        (ControlBody.readGuarded (Header.front b) (b.drop 16)).map
          (Except.map fun r => (control ⟨b.wordAt 8, b.wordAt 12, r.1⟩, r.2))
      else some (.ok (data (.ofHeader (Header.front b) (b.drop 16)), []))) = _
    rw [Header.isControl_front, ControlBody.readGuarded_eq, Option.map_some]
    by_cases hcontrol : b.startsControl = true
    · rw [if_pos hcontrol, if_pos hcontrol]
    · rw [if_neg hcontrol, if_neg hcontrol]

/-! ## §4. The table of outcomes. -/

namespace Bytes

/-- A whole header of a control packet with the given code. -/
structure IsControl (b : Bytes) (code : Nat) : Prop where
  whole : 16 ≤ b.length
  flag : b.startsControl = true
  kind : b.kindCode = code

/-- The control packet with the header of an octet string. -/
def control (b : Bytes) (body : ControlBody) : Packet :=
  .control { timestamp := b.wordAt 8, destination := b.wordAt 12, body }

end Bytes

namespace Packet

/-- What reading an octet string comes to: a packet and the octets left unread, or an error. -/
structure Grammar (b : Bytes) (outcome : Reading Packet) : Prop where
  short : b.length < 16 → outcome = .error (.truncated 16 b.length)
  data : 16 ≤ b.length → b.startsControl = false →
    outcome = .ok (.data (.ofHeader (.front b) (b.drop 16)), [])
  keepAlive : b.IsControl 1 → outcome = .ok (b.control .keepAlive, b.drop 16)
  shutdown : b.IsControl 5 → outcome = .ok (b.control .shutdown, b.drop 16)
  ack2 : b.IsControl 6 → outcome = .ok (b.control (.ack2 (b.wordAt 4).toNat), b.drop 16)
  ackShort : b.IsControl 2 → b.length < 20 → outcome = .error (.truncated 4 (b.length - 16))
  /-- A light acknowledgment: the three other fields are zero. -/
  ackLight : b.IsControl 2 → 20 ≤ b.length → b.length < 32 →
    outcome = .ok (b.control (.ack ⟨b.wordAt 4, (b.wordAt 16).toNat, 0, 0, 0⟩), b.drop 20)
  ackFull : b.IsControl 2 → 32 ≤ b.length →
    outcome = .ok (b.control (.ack ⟨b.wordAt 4, (b.wordAt 16).toNat, b.wordAt 20, b.wordAt 24,
      b.wordAt 28⟩), b.drop 32)
  nak : b.IsControl 3 →
    outcome = (LossReport.read (b.drop 16)).map fun r => (b.control (.nak r.1), r.2)
  other : ∀ code, b.IsControl code → code ∉ [1, 2, 3, 5, 6] →
    outcome = .error (.unsupportedControl code)

/-- Behind the header of a control packet the body is read. -/
theorem decode_control {b : Bytes} {code : Nat} (h : b.IsControl code) :
    decode b = (ControlBody.read (Header.front b) (b.drop 16)).map
      fun r => (b.control r.1, r.2) := by
  rw [decode_eq, if_neg (Nat.not_lt.mpr h.whole), if_pos h.flag]
  rfl

/-- The code of a control packet is the code that its body is read for. -/
theorem ofCode?_front {b : Bytes} {code : Nat} (h : b.IsControl code) :
    ControlKind.ofCode? (Header.front b).kindCode = ControlKind.ofCode? code := by
  rw [Header.kindCode_front, h.kind]

/-- An acknowledgment behind a header, its words counted from the front of the datagram. -/
theorem decode_ack {b : Bytes} (h : b.IsControl 2) :
    decode b = if b.length < 20 then .error (.truncated 4 (b.length - 16))
      else if b.length < 32 then
        .ok (b.control (.ack ⟨b.wordAt 4, (b.wordAt 16).toNat, 0, 0, 0⟩), b.drop 20)
      else .ok (b.control (.ack ⟨b.wordAt 4, (b.wordAt 16).toNat, b.wordAt 20, b.wordAt 24,
        b.wordAt 28⟩), b.drop 32) := by
  have hwhole := h.whole
  rw [decode_control h, ControlBody.read_ack (ofCode?_front h), Acknowledgment.read_eq]
  simp only [Bytes.wordAt_drop, List.drop_drop, List.length_drop]
  by_cases hnone : b.length < 20
  · have hless : b.length - 16 < 4 := by omega
    rw [if_pos hless, if_pos hnone]
    rfl
  · have hmore : ¬ b.length - 16 < 4 := by omega
    rw [if_neg hmore, if_neg hnone]
    by_cases hlight : b.length < 32
    · have hless : b.length - 16 < 16 := by omega
      rw [if_pos hless, if_pos hlight]
      rfl
    · have hmore : ¬ b.length - 16 < 16 := by omega
      rw [if_neg hmore, if_neg hlight]
      rfl

theorem decode_nak {b : Bytes} (h : b.IsControl 3) :
    decode b = (LossReport.read (b.drop 16)).map fun r => (b.control (.nak r.1), r.2) := by
  rw [decode_control h, ControlBody.read_nak (ofCode?_front h)]
  cases LossReport.read (b.drop 16) <;> rfl

theorem grammar_decode (b : Bytes) : Grammar b (decode b) where
  short h := by rw [decode_eq, if_pos h]
  data h hdata := by
    rw [decode_eq, if_neg (Nat.not_lt.mpr h), hdata]
    rfl
  keepAlive h := by
    rw [decode_control h, ControlBody.read_keepAlive (ofCode?_front h)]
    rfl
  shutdown h := by
    rw [decode_control h, ControlBody.read_shutdown (ofCode?_front h)]
    rfl
  ack2 h := by
    rw [decode_control h, ControlBody.read_ack2 (ofCode?_front h)]
    rfl
  ackShort h hshort := by rw [decode_ack h, if_pos hshort]
  ackLight h hfull hless := by rw [decode_ack h, if_neg (Nat.not_lt.mpr hfull), if_pos hless]
  ackFull h hfull := by
    have hnone : ¬ b.length < 20 := by omega
    rw [decode_ack h, if_neg hnone, if_neg (Nat.not_lt.mpr hfull)]
  nak h := decode_nak h
  other _ h hother := by
    have hkind := (Header.kindCode_front b).trans h.kind
    rw [decode_control h, ControlBody.read_unsupported (hkind ▸ hother), hkind]
    rfl

/-- The table leaves no octet string out and names no two outcomes for one. -/
theorem Grammar.eq_decode {b : Bytes} {outcome : Reading Packet} (h : Grammar b outcome) :
    outcome = decode b := by
  have hdecode := grammar_decode b
  by_cases hshort : b.length < 16
  · exact (h.short hshort).trans (hdecode.short hshort).symm
  have hwhole : 16 ≤ b.length := Nat.le_of_not_lt hshort
  cases hflag : b.startsControl with
  | false => exact (h.data hwhole hflag).trans (hdecode.data hwhole hflag).symm
  | true =>
    have hcontrol : b.IsControl b.kindCode := ⟨hwhole, hflag, rfl⟩
    by_cases hother : b.kindCode ∉ [1, 2, 3, 5, 6]
    · exact (h.other _ hcontrol hother).trans (hdecode.other _ hcontrol hother).symm
    -- What is left are the five codes that are read.
    generalize b.kindCode = code at hcontrol hother
    simp only [List.mem_cons, List.not_mem_nil, or_false, not_not] at hother
    obtain rfl | rfl | rfl | rfl | rfl := hother
    · exact (h.keepAlive hcontrol).trans (hdecode.keepAlive hcontrol).symm
    · by_cases hnone : b.length < 20
      · exact (h.ackShort hcontrol hnone).trans (hdecode.ackShort hcontrol hnone).symm
      have hsome := Nat.le_of_not_lt hnone
      by_cases hless : b.length < 32
      · exact (h.ackLight hcontrol hsome hless).trans
          (hdecode.ackLight hcontrol hsome hless).symm
      have hfull := Nat.le_of_not_lt hless
      exact (h.ackFull hcontrol hfull).trans (hdecode.ackFull hcontrol hfull).symm
    · exact (h.nak hcontrol).trans (hdecode.nak hcontrol).symm
    · exact (h.shutdown hcontrol).trans (hdecode.shutdown hcontrol).symm
    · exact (h.ack2 hcontrol).trans (hdecode.ack2 hcontrol).symm

end Packet

/-! ## §5. The reserved bits. -/

namespace Bytes

/-- The octet string with other reserved bits: the two octets behind the kind. -/
def setReserved (b : Bytes) (x y : UInt8) : Bytes := (b.set 2 x).set 3 y

theorem length_setReserved (b : Bytes) (x y : UInt8) :
    (b.setReserved x y).length = b.length := by
  rw [setReserved, List.length_set, List.length_set]

theorem getD_setReserved {b : Bytes} {x y : UInt8} {i : Nat} (h₂ : 2 ≠ i) (h₃ : 3 ≠ i) :
    (b.setReserved x y).getD i 0 = b.getD i 0 := by
  rw [setReserved, List.getD_eq_getElem?_getD, List.getElem?_set_ne h₃, List.getElem?_set_ne h₂,
    ← List.getD_eq_getElem?_getD]

theorem wordAt_setReserved {b : Bytes} {x y : UInt8} {i : Nat} (h : 4 ≤ i) :
    (b.setReserved x y).wordAt i = b.wordAt i := by
  unfold wordAt
  rw [getD_setReserved, getD_setReserved, getD_setReserved, getD_setReserved] <;> omega

theorem drop_setReserved (b : Bytes) (x y : UInt8) :
    (b.setReserved x y).drop 16 = b.drop 16 := by
  rw [setReserved, List.drop_set_of_lt (by decide), List.drop_set_of_lt (by decide)]

theorem startsControl_setReserved (b : Bytes) (x y : UInt8) :
    (b.setReserved x y).startsControl = b.startsControl := by
  unfold startsControl
  rw [getD_setReserved (by decide) (by decide)]

theorem kindCode_setReserved (b : Bytes) (x y : UInt8) :
    (b.setReserved x y).kindCode = b.kindCode := by
  unfold kindCode
  rw [getD_setReserved (by decide) (by decide), getD_setReserved (by decide) (by decide)]

end Bytes

namespace Packet

/-- The reserved bits of a control packet are not looked at. -/
theorem decode_setReserved {b : Bytes} (hcontrol : b.startsControl = true) (x y : UInt8) :
    decode (b.setReserved x y) = decode b := by
  have hbody : ControlBody.read (Header.front (b.setReserved x y)) (b.drop 16)
      = ControlBody.read (Header.front b) (b.drop 16) := by
    refine ControlBody.read_congr ?_ (Bytes.wordAt_setReserved (by decide)) _
    rw [Header.kindCode_front, Header.kindCode_front, Bytes.kindCode_setReserved]
  rw [decode_eq, decode_eq, Bytes.length_setReserved, Bytes.startsControl_setReserved,
    if_pos hcontrol, Bytes.drop_setReserved, hbody, Bytes.wordAt_setReserved (by decide),
    Bytes.wordAt_setReserved (by decide)]
  simp only [hcontrol, if_true]

/-- **Which octets are a packet.**  The table says what reading comes to and nothing else, the
reserved bits of a control packet have no part in it, and a reader with a cursor comes to it
without a word past the end. -/
theorem decode_grammar (b : Bytes) :
    (∀ outcome, Grammar b outcome ↔ outcome = decode b)
      ∧ (b.startsControl = true → ∀ x y, decode (b.setReserved x y) = decode b)
      ∧ decodeGuarded b = some (decode b) := by
  refine ⟨fun outcome => ⟨Grammar.eq_decode, ?_⟩, decode_setReserved, decodeGuarded_eq b⟩
  rintro rfl
  exact grammar_decode b

/-- A light acknowledgment of 7 with five octets of body and reserved bits that are set. -/
theorem light_acknowledgment_read :
    let b := Bytes.ofWords [0x80020000, 5, 9, 3, 7] ++ [1]
    b.startsControl = true ∧ decode (b.setReserved 0xAB 0xCD) = decode b
      ∧ decode b = .ok (.control
          { timestamp := 9, destination := 3, body := .ack { id := 5, number := 7 } }, [1])
      ∧ decodeGuarded b = some (decode b) := by
  intro b
  have hcontrol : b.startsControl = true := by decide
  have h := decode_grammar b
  have hlight := ((h.1 (decode b)).mpr rfl).ackLight ⟨by decide, hcontrol, by decide⟩
    (by decide) (by decide)
  exact ⟨hcontrol, h.2.1 hcontrol 0xAB 0xCD, hlight.trans (by decide), h.2.2⟩

end Packet

end ReliableSender
