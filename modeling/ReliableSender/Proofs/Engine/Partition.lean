/-
  ReliableSender.Proofs.Engine.Partition
  ──────────────────────────────────────
  **A MESSAGE IS CUT WITHOUT GAP, OVERLAP OR OVERFLOW.**

  All pieces but the last are full, the last one is not empty, and there are
  no more of them than the length asks for.  Offsets are words of 64 bits,
  so the cut is made a second time here with every sum, product and slice
  checked: whatever the length and the size of a piece, no check fails.

      Position.series        — solo, or first, middle, …, last
      fragment?              — the cut in checked words
      fragment?_eq           — no check of it fails
      fragment_partitions    — the packets of a message
-/
import ReliableSender.Proofs.Engine.Fragment
import ReliableSender.Transport.Channel
import Mathlib.Algebra.Order.Floor.Div

namespace ReliableSender

/-! ## §1. Places. -/

/-- The places of the packets of one message, in order. -/
def Position.series : Nat → List Position
  | 0 => []
  | 1 => [.solo]
  | n + 2 => .first :: (List.replicate n .middle ++ [.last])

namespace Piece

/-- The places of all pieces of a message. -/
theorem map_position (n : Nat) : (List.range n).map (position n) = Position.series n := by
  match n with
  | 0 => rfl
  | 1 => rfl
  | n + 2 =>
    -- The first and the last piece stand apart, and those between them are alike.
    have hmiddle : (List.range n).map (fun i => position (n + 2) (i + 1))
        = List.replicate n .middle := by
      rw [List.eq_replicate_iff, List.length_map, List.length_range]
      refine ⟨rfl, fun place hplace => ?_⟩
      obtain ⟨i, hi, rfl⟩ := List.mem_map.mp hplace
      have hlast : ¬ i + 1 + 1 = n + 2 := by
        have := List.mem_range.mp hi
        omega
      show (if i + 1 = 0 then _ else _) = _
      rw [if_neg (Nat.succ_ne_zero i), if_neg hlast]
    have hlast : position (n + 2) (n + 1) = .last := by
      show (if n + 1 = 0 then _ else _) = _
      rw [if_neg (Nat.succ_ne_zero n), if_pos rfl]
    rw [List.range_succ_eq_map, List.map_cons, List.map_map, List.range_succ, List.map_append]
    show position (n + 2) 0 :: ((List.range n).map (fun i => position (n + 2) (i + 1))
      ++ [position (n + 2) (n + 1)]) = _
    rw [hmiddle, hlast]
    rfl

/-! ## §2. Sizes. -/

/-- There are as many pieces as the length asks for. -/
theorem count_eq_ceilDiv (max length : Nat) : count max length = length ⌈/⌉ max :=
  (Nat.ceilDiv_eq_add_pred_div length max).symm

/-- A piece begins inside the message. -/
theorem start_lt {max length i : Nat} (hmax : 0 < max) (hi : i < count max length) :
    start max i < length := by
  have hreach : (i + 1) * max ≤ count max length * max := Nat.mul_le_mul_right max hi
  have hall : count max length * max ≤ length + max - 1 := Nat.div_mul_le_self _ _
  have hnext : (i + 1) * max = i * max + max := Nat.succ_mul i max
  show i * max < length
  omega

/-- There are no more pieces than octets. -/
theorem count_le {max : Nat} (hmax : 0 < max) (length : Nat) : count max length ≤ length := by
  by_contra hmore
  have hbegins : length * max < length := start_lt hmax (Nat.lt_of_not_le hmore)
  have : length ≤ length * max := Nat.le_mul_of_pos_right length hmax
  omega

/-- Rounding up adds one for a remainder. -/
theorem count_eq_div {max length : Nat} (hmax : 0 < max) :
    count max length = length / max + if length % max = 0 then 0 else 1 := by
  have hdivision := Nat.div_add_mod length max
  have hmod := Nat.mod_lt length hmax
  unfold count
  by_cases hexact : length % max = 0
  · have hsplit : length + max - 1 = max * (length / max) + (max - 1) := by omega
    have hless : (max - 1) / max = 0 := Nat.div_eq_of_lt (by omega)
    rw [if_pos hexact, hsplit, Nat.mul_add_div hmax, hless]
  · have hsplit : length + max - 1 = max * (length / max + 1) + (length % max - 1) := by
      rw [Nat.mul_succ]
      omega
    have hless : (length % max - 1) / max = 0 := Nat.div_eq_of_lt (by omega)
    rw [if_neg hexact, hsplit, Nat.mul_add_div hmax, hless, Nat.add_zero]

theorem length_octets (max : Nat) (message : Bytes) (i : Nat) :
    (octets max message.toArray i).length = min max (message.length - start max i) := by
  rw [octets_eq, List.length_take, List.length_drop]
  rfl

/-- All pieces but the last are full. -/
theorem length_octets_full {max i : Nat} {message : Bytes} (hmax : 0 < max)
    (hi : i + 1 < count max message.length) :
    (octets max message.toArray i).length = max := by
  -- Another piece begins where this one ends, so the message reaches that far.
  have hnext : (i + 1) * max < message.length := start_lt hmax hi
  have hwidth : (i + 1) * max = i * max + max := Nat.succ_mul i max
  rw [length_octets]
  unfold start
  omega

/-- No piece is empty. -/
theorem octets_ne_nil {max i : Nat} {message : Bytes} (hmax : 0 < max)
    (hi : i < count max message.length) : octets max message.toArray i ≠ [] := by
  have hstart : start max i < message.length := start_lt hmax hi
  refine List.ne_nil_of_length_pos ?_
  rw [length_octets]
  omega

end Piece

/-! ## §3. Checked words. -/

namespace Word

/-- A number as a word, if it is one. -/
def ofNat? (n : Nat) : Option UInt64 := if n < UInt64.size then some (UInt64.ofNat n) else none

/-- A sum, unless it overflows. -/
def add? (a b : UInt64) : Option UInt64 := ofNat? (a.toNat + b.toNat)

/-- A product, unless it overflows. -/
def mul? (a b : UInt64) : Option UInt64 := ofNat? (a.toNat * b.toNat)

/-- A quotient rounded up: one more than the quotient if there is a remainder. -/
def divCeil? (a b : UInt64) : Option UInt64 :=
  if b = 0 then none
  else if a % b = 0 then some (a / b)
  else add? (a / b) 1

theorem add?_ofNat {a b : Nat} (h : a + b < UInt64.size) :
    add? (UInt64.ofNat a) (UInt64.ofNat b) = some (UInt64.ofNat (a + b)) := by
  unfold add?
  rw [UInt64.toNat_ofNat_of_lt' (by omega), UInt64.toNat_ofNat_of_lt' (by omega), ofNat?, if_pos h]

theorem mul?_ofNat {a b : Nat} (ha : a < UInt64.size) (hb : b < UInt64.size)
    (h : a * b < UInt64.size) :
    mul? (UInt64.ofNat a) (UInt64.ofNat b) = some (UInt64.ofNat (a * b)) := by
  unfold mul?
  rw [UInt64.toNat_ofNat_of_lt' ha, UInt64.toNat_ofNat_of_lt' hb, ofNat?, if_pos h]

theorem ofNat_eq_iff {a b : Nat} (ha : a < UInt64.size) (hb : b < UInt64.size) :
    UInt64.ofNat a = UInt64.ofNat b ↔ a = b := by
  rw [← UInt64.toNat_inj, UInt64.toNat_ofNat_of_lt' ha, UInt64.toNat_ofNat_of_lt' hb]

theorem min_ofNat {a b : Nat} (ha : a < UInt64.size) (hb : b < UInt64.size) :
    min (UInt64.ofNat a) (UInt64.ofNat b) = UInt64.ofNat (min a b) := by
  rw [← UInt64.toNat_inj, UInt64.toNat_min, UInt64.toNat_ofNat_of_lt' ha,
    UInt64.toNat_ofNat_of_lt' hb, UInt64.toNat_ofNat_of_lt' (by omega)]

/-- Rounding up by the remainder is rounding up by adding. -/
theorem divCeil?_ofNat {a b : Nat} (ha : a < UInt64.size) (hb : b < UInt64.size) (hpos : 0 < b) :
    divCeil? (UInt64.ofNat a) (UInt64.ofNat b) = some (UInt64.ofNat (Piece.count b a)) := by
  have hquotient : UInt64.ofNat a / UInt64.ofNat b = UInt64.ofNat (a / b) := by
    rw [← UInt64.toNat_inj, UInt64.toNat_div, UInt64.toNat_ofNat_of_lt' ha,
      UInt64.toNat_ofNat_of_lt' hb, UInt64.toNat_ofNat_of_lt' ((Nat.div_le_self a b).trans_lt ha)]
  have hremainder : UInt64.ofNat a % UInt64.ofNat b = UInt64.ofNat (a % b) := by
    rw [← UInt64.toNat_inj, UInt64.toNat_mod, UInt64.toNat_ofNat_of_lt' ha,
      UInt64.toNat_ofNat_of_lt' hb, UInt64.toNat_ofNat_of_lt' ((Nat.mod_le a b).trans_lt ha)]
  have hzero : ∀ n, n < UInt64.size → (UInt64.ofNat n = 0 ↔ n = 0) :=
    fun n hn => ofNat_eq_iff hn (by decide)
  have hrest : (UInt64.ofNat (a % b) = 0) ↔ a % b = 0 :=
    hzero _ ((Nat.mod_le a b).trans_lt ha)
  unfold divCeil?
  rw [if_neg (mt (hzero b hb).mp hpos.ne'), hremainder, hquotient, Piece.count_eq_div hpos]
  by_cases hexact : a % b = 0
  · rw [if_pos (hrest.mpr hexact), if_pos hexact]
    rfl
  · -- A remainder leaves the quotient below the dividend.
    have hbelow : a / b < a := by
      have hdivision := Nat.div_add_mod a b
      have hproduct : a / b ≤ b * (a / b) := Nat.le_mul_of_pos_left _ hpos
      omega
    rw [if_neg (mt hrest.mp hexact), if_neg hexact]
    exact add?_ofNat (b := 1) (by omega)

end Word

/-! ## §4. The cut in checked words. -/

/-- Where no element fails, all of them are mapped. -/
theorem mapM_eq_some_map {α β : Type} {f : α → Option β} {g : α → β} {l : List α}
    (h : ∀ a ∈ l, f a = some (g a)) : l.mapM f = some (l.map g) := by
  induction l with
  | nil => rfl
  | cons a l ih =>
    obtain ⟨hhead, htail⟩ := List.forall_mem_cons.mp h
    rw [List.mapM_cons, hhead, ih htail]
    rfl

/-- A piece and its place, unless an offset overflows or the slice is not inside the
message. -/
def Piece.cut? (max : UInt64) (data : Array UInt8) (count i : UInt64) :
    Option (Position × Bytes) := do
  let next ← Word.add? i 1
  let position : Position :=
    if i = 0 then (if next = count then .solo else .first)
    else if next = count then .last else .middle
  let reach ← Word.mul? next max
  let stop := min reach (UInt64.ofNat data.size)
  let start ← Word.mul? i max
  if start ≤ stop ∧ stop.toNat ≤ data.size
    then some (position, (data.extract start.toNat stop.toNat).toList)
    else none

/-- Cut a message into packets, unless a check fails on the way. -/
def Engine.fragment? {σ τ : Type} (e : Engine σ τ) (now : Moment) (message : Bytes) :
    Option (List DataPacket × Engine σ τ) := do
  let data := message.toArray
  let max := max (UInt64.ofNat e.config.maxPayload) 1
  let count ← Word.divCeil? (UInt64.ofNat data.size) max
  let (number, e) := e.nextMessage
  let pieces ← (List.range count.toNat).mapM fun i => Piece.cut? max data count (UInt64.ofNat i)
  let (issued, sequences) := e.sequences.take count.toNat
  let packets := List.zipWith
    (fun s (piece : Position × Bytes) => e.stamp now s number piece.1 piece.2) issued pieces
  some (packets, { e with sequences })

namespace Piece

/-- No offset of a piece overflows: either the piece is the only one and ends at its size, or
it is no longer than the message and ends less than two lengths from the start. -/
theorem reach_lt {max length i : Nat} (hmax : 0 < max) (hsize : max < UInt64.size)
    (hlength : length ≤ 2 ^ 63 - 1) (hi : i < count max length) :
    (i + 1) * max < UInt64.size := by
  have hstart : i * max < length := start_lt hmax hi
  have hnext : (i + 1) * max = i * max + max := Nat.succ_mul i max
  by_cases hfits : max ≤ length
  · show _ < 2 ^ 64
    omega
  · -- A second piece would begin past the end.
    have hfirst : i = 0 := by
      by_contra hlater
      have : max ≤ i * max := Nat.le_mul_of_pos_left max (Nat.pos_of_ne_zero hlater)
      omega
    subst hfirst
    omega

/-- No check of a piece fails. -/
theorem cut?_eq {max i : Nat} {message : Bytes} (hmax : 0 < max) (hsize : max < UInt64.size)
    (hlength : message.length ≤ 2 ^ 63 - 1) (hi : i < count max message.length) :
    cut? (UInt64.ofNat max) message.toArray (UInt64.ofNat (count max message.length))
        (UInt64.ofNat i)
      = some (position (count max message.length) i, octets max message.toArray i) := by
  have hword : message.length < UInt64.size := Nat.lt_of_le_of_lt hlength (by decide)
  have hstart : i * max < message.length := start_lt hmax hi
  have hreach : (i + 1) * max < UInt64.size := reach_lt hmax hsize hlength hi
  have hnext : (i + 1) * max = i * max + max := Nat.succ_mul i max
  have hindex : i ≤ i * max := Nat.le_mul_of_pos_right i hmax
  have hcount : count max message.length ≤ message.length := count_le hmax _
  -- Each operation is taken from words back to numbers, in the order of the cut.
  have hsucc : Word.add? (UInt64.ofNat i) 1 = some (UInt64.ofNat (i + 1)) :=
    Word.add?_ofNat (b := 1) (by omega)
  have hproduct : Word.mul? (UInt64.ofNat (i + 1)) (UInt64.ofNat max)
      = some (UInt64.ofNat ((i + 1) * max)) :=
    Word.mul?_ofNat (by omega) hsize hreach
  have hbegin : Word.mul? (UInt64.ofNat i) (UInt64.ofNat max)
      = some (UInt64.ofNat (start max i)) :=
    Word.mul?_ofNat (by omega) hsize (by omega)
  have hend : min (UInt64.ofNat ((i + 1) * max)) (UInt64.ofNat message.toArray.size)
      = UInt64.ofNat (stop max message.length i) :=
    Word.min_ofNat hreach hword
  have hfirst : (UInt64.ofNat i = 0) = (i = 0) :=
    propext (Word.ofNat_eq_iff (by omega) (by decide))
  have hlast : (UInt64.ofNat (i + 1) = UInt64.ofNat (count max message.length))
      = (i + 1 = count max message.length) :=
    propext (Word.ofNat_eq_iff (by omega) (by omega))
  have hbeginNat : (UInt64.ofNat (start max i)).toNat = start max i :=
    UInt64.toNat_ofNat_of_lt' (by unfold start; omega)
  have hendNat : (UInt64.ofNat (stop max message.length i)).toNat = stop max message.length i :=
    UInt64.toNat_ofNat_of_lt' (by unfold stop; omega)
  have hinside : UInt64.ofNat (start max i) ≤ UInt64.ofNat (stop max message.length i)
      ∧ stop max message.length i ≤ message.toArray.size := by
    rw [UInt64.le_iff_toNat_le, hbeginNat, hendNat]
    unfold start stop
    show _ ∧ _ ≤ message.length
    omega
  unfold cut?
  simp only [hsucc, hproduct, hbegin, hend, Option.bind_eq_bind, Option.bind_some, hfirst, hlast,
    hbeginNat, hendNat]
  rw [if_pos hinside]
  rfl

end Piece

namespace Engine

variable {σ τ : Type} (e : Engine σ τ) (now : Moment) (message : Bytes)

/-- **No index computation overflows and no slice is out of range**: the cut in checked words
fails no check, and what it returns is the cut. -/
theorem fragment?_eq (hlength : message.length ≤ 2 ^ 63 - 1)
    (hsize : e.config.maxPayload < UInt64.size) :
    e.fragment? now message = some (e.fragment now message) := by
  have hpiece : e.pieceSize < UInt64.size := Nat.max_lt.mpr ⟨hsize, by decide⟩
  have hword : message.length < UInt64.size := Nat.lt_of_le_of_lt hlength (by decide)
  have hmax : max (UInt64.ofNat e.config.maxPayload) 1 = UInt64.ofNat e.pieceSize := by
    rw [← UInt64.toNat_inj, UInt64.toNat_max, UInt64.toNat_ofNat_of_lt' hsize,
      UInt64.toNat_ofNat_of_lt' hpiece]
    rfl
  have hcount : Word.divCeil? (UInt64.ofNat message.toArray.size) (UInt64.ofNat e.pieceSize)
      = some (UInt64.ofNat (Piece.count e.pieceSize message.length)) :=
    Word.divCeil?_ofNat hword hpiece e.pieceSize_pos
  have hcountNat : (UInt64.ofNat (Piece.count e.pieceSize message.length)).toNat
      = Piece.count e.pieceSize message.length :=
    UInt64.toNat_ofNat_of_lt' ((Piece.count_le e.pieceSize_pos _).trans_lt hword)
  have hpieces := mapM_eq_some_map fun i hi =>
    Piece.cut?_eq e.pieceSize_pos hpiece hlength (List.mem_range.mp hi)
  unfold fragment?
  simp only [hmax, hcount, hcountNat, hpieces, Option.bind_eq_bind, Option.bind_some]
  show some (List.zipWith _ (List.range' _ _) _, _) = some ((e.fragment now message).1, _)
  rw [fragment_fst, List.range'_eq_map_range, List.zipWith_map, List.zipWith_self]
  rfl

/-! ## §5. The packets of a message. -/

/-- How the packets cut from a message share it out, and the engine that is left. -/
structure Partition (packets : List DataPacket) (rest : Engine σ τ) : Prop where
  /-- No octet is lost or sent twice. -/
  whole : packets.flatMap DataPacket.payload = message
  nonempty : ∀ p ∈ packets, p.payload ≠ []
  /-- Only the last packet may carry fewer octets. -/
  full : ∀ p ∈ packets.dropLast, p.payload.length = e.pieceSize
  within : ∀ p ∈ packets, p.payload.length ≤ e.pieceSize
  count : packets.length = message.length ⌈/⌉ e.pieceSize
  places : packets.map DataPacket.position = Position.series packets.length
  oneMessage : ∀ p ∈ packets, p.messageNumber = e.nextMessage.1
  addressed : ∀ p ∈ packets, p.destination = e.session.destination
  consecutive : packets.map DataPacket.sequence
    = List.range' e.sequences.issued packets.length
  /-- The engine has moved its two counters on, by the packets and by one message. -/
  counted : rest = { e with
    sequences := ⟨e.sequences.issued + packets.length⟩
    messages := e.messages.next.2 }

theorem partition_fragment :
    Partition e message (e.fragment now message).1 (e.fragment now message).2 := by
  refine
    { whole := e.fragment_payload now message
      nonempty := fun p hp => ?_
      full := fun p hp => ?_
      within := fun p hp => ?_
      count := ?_
      places := ?_
      oneMessage := fun p hp => e.fragment_messageNumber now message hp
      addressed := fun p hp => ?_
      consecutive := e.fragment_sequence now message
      counted := ?_ }
  · obtain ⟨i, hi, rfl⟩ := e.mem_fragment now message hp
    exact Piece.octets_ne_nil e.pieceSize_pos hi
  · obtain ⟨i, hi, rfl⟩ := List.mem_iff_getElem.mp hp
    rw [List.length_dropLast, length_fragment] at hi
    have hpacket : (e.fragment now message).1.dropLast[i] = e.packetOf now message i := by
      rw [List.getElem_dropLast]
      simp only [fragment_fst, List.getElem_map, List.getElem_range]
    rw [hpacket]
    exact Piece.length_octets_full e.pieceSize_pos (Nat.add_lt_of_lt_sub hi)
  · obtain ⟨i, hi, rfl⟩ := e.mem_fragment now message hp
    show (Piece.octets e.pieceSize message.toArray i).length ≤ e.pieceSize
    rw [Piece.length_octets]
    exact Nat.min_le_left _ _
  · rw [length_fragment, Piece.count_eq_ceilDiv]
  · rw [length_fragment, fragment_fst, List.map_map, ← Piece.map_position]
    rfl
  · obtain ⟨i, hi, rfl⟩ := e.mem_fragment now message hp
    rfl
  · rw [length_fragment]
    rfl

/-- **A message is cut without gap, overlap or overflow**: its packets share it out in order,
full up to the last, numbered and placed one after the other, and the computation of their
offsets in 64 bits fails nowhere. -/
theorem fragment_partitions (hlength : message.length ≤ 2 ^ 63 - 1)
    (hsize : e.config.maxPayload < 2 ^ 64) :
    Partition e message (e.fragment now message).1 (e.fragment now message).2
      ∧ e.fragment? now message = some (e.fragment now message) :=
  ⟨e.partition_fragment now message, e.fragment?_eq now message hlength hsize⟩

/-- Three octets in pieces of two: the first packet is full, the last one is not. -/
theorem three_octets_in_two_packets :
    let e : Engine ChannelSink NoTimer := .ofConfig { maxPayload := 2 } {} {}
    let packets := (e.fragment 0 [7, 8, 9]).1
    ([7, 8, 9] : Bytes).length ≤ 2 ^ 63 - 1 ∧ e.config.maxPayload < 2 ^ 64
      ∧ packets.flatMap DataPacket.payload = [7, 8, 9]
      ∧ packets.map DataPacket.position = [.first, .last]
      ∧ packets.map DataPacket.sequence = [0, 1]
      ∧ e.fragment? 0 [7, 8, 9] = some (e.fragment 0 [7, 8, 9]) := by
  intro e packets
  have hlength : packets.length = 2 := by decide
  obtain ⟨hpartition, hwords⟩ := e.fragment_partitions 0 [7, 8, 9] (by decide) (by decide)
  have hplaces := hpartition.places
  have hnumbers := hpartition.consecutive
  rw [show (e.fragment 0 [7, 8, 9]).1.length = 2 from hlength] at hplaces hnumbers
  exact ⟨by decide, by decide, hpartition.whole, hplaces, hnumbers, hwords⟩

/-- A size of 0 cuts octet by octet. -/
example :
    let e : Engine ChannelSink NoTimer := .ofConfig { maxPayload := 0 } {} {}
    (e.fragment 0 [7, 8, 9]).1.map (fun p => (p.position, p.payload))
      = [(.first, [7]), (.middle, [8]), (.last, [9])] := by
  decide

end Engine

end ReliableSender
