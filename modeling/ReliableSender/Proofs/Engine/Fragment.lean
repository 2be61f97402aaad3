/-
  ReliableSender.Proofs.Engine.Fragment
  ─────────────────────────────────────
  **A MESSAGE AND ITS PACKETS.**

  Cutting a message loses no octet and repeats none, its packets carry one
  message number and consecutive sequence numbers, and of the engine only
  the two counters change.

      take_pieces         — the first `n` pieces are the first `n · max` octets
      fragment_payload    — the payloads of the packets make the message
      fragment_sequence   — the packets are numbered from the next free number
-/
import ReliableSender.Engine.Packetize

namespace ReliableSender

/-! ## §1. Pieces. -/

namespace Piece

/-- A piece is a stretch of the message, cut off at its end. -/
theorem octets_eq (max : Nat) (message : Bytes) (i : Nat) :
    octets max message.toArray i = (message.drop (i * max)).take max := by
  unfold octets start stop
  rw [Array.toList_extract, List.extract_eq_take_drop]
  show (message.drop (i * max)).take (min ((i + 1) * max) message.length - i * max) = _
  have hwidth : (i + 1) * max = i * max + max := Nat.succ_mul i max
  have hlength : (message.drop (i * max)).length = message.length - i * max := List.length_drop
  -- Only the last piece can be shorter than the others.
  by_cases hinside : (i + 1) * max ≤ message.length
  · have hexact : min ((i + 1) * max) message.length - i * max = max := by omega
    rw [hexact]
  · have hrest : min ((i + 1) * max) message.length - i * max
        = (message.drop (i * max)).length := by omega
    rw [hrest, List.take_length]
    exact (List.take_of_length_le (by omega)).symm

/-- The first `n` pieces make the first `n · max` octets. -/
theorem take_pieces (max : Nat) (message : Bytes) (n : Nat) :
    (List.range n).flatMap (octets max message.toArray) = message.take (n * max) := by
  induction n with
  | zero =>
    rw [Nat.zero_mul]
    rfl
  | succ n ih =>
    rw [List.range_succ, List.flatMap_append, ih, Nat.succ_mul, List.take_add]
    show _ ++ (octets max message.toArray n ++ []) = _
    rw [List.append_nil, octets_eq]

/-- The pieces reach the end of the message. -/
theorem length_le_count_mul {max : Nat} (hmax : 0 < max) (length : Nat) :
    length ≤ count max length * max := by
  unfold count
  have hdiv := Nat.div_add_mod (length + max - 1) max
  have hmod := Nat.mod_lt (length + max - 1) hmax
  rw [Nat.mul_comm] at hdiv
  omega

end Piece

/-! ## §2. Packets. -/

namespace Engine

variable {σ τ : Type} (e : Engine σ τ) (now : Moment) (message : Bytes)

theorem pieceSize_pos : 0 < e.pieceSize :=
  Nat.lt_of_lt_of_le Nat.one_pos (Nat.le_max_right _ 1)

/-- The `i`-th packet of a message. -/
def packetOf (i : Nat) : DataPacket :=
  e.nextMessage.2.stamp now (e.sequences.issued + i) e.nextMessage.1
    (Piece.position (Piece.count e.pieceSize message.length) i)
    (Piece.octets e.pieceSize message.toArray i)

/-- The packets of a message are stamped one by one. -/
theorem fragment_fst :
    (e.fragment now message).1
      = (List.range (Piece.count e.pieceSize message.length)).map (e.packetOf now message) := by
  show List.mapIdx _ (List.range' e.sequences.issued _) = _
  refine List.ext_getElem ?_ fun i h₁ h₂ => ?_
  · rw [List.length_mapIdx, List.length_range', List.length_map, List.length_range]
    rfl
  · rw [List.getElem_mapIdx, List.getElem_range', List.getElem_map, List.getElem_range,
      Nat.one_mul]
    rfl

theorem length_fragment :
    (e.fragment now message).1.length = Piece.count e.pieceSize message.length := by
  rw [fragment_fst, List.length_map, List.length_range]

theorem mem_fragment {p : DataPacket} (hp : p ∈ (e.fragment now message).1) :
    ∃ i < Piece.count e.pieceSize message.length, e.packetOf now message i = p := by
  rw [fragment_fst] at hp
  obtain ⟨i, hi, rfl⟩ := List.mem_map.mp hp
  exact ⟨i, List.mem_range.mp hi, rfl⟩

/-- The packets are numbered from the next free number. -/
theorem fragment_sequence :
    (e.fragment now message).1.map DataPacket.sequence
      = List.range' e.sequences.issued (e.fragment now message).1.length := by
  rw [length_fragment, fragment_fst, List.map_map, List.range'_eq_map_range]
  rfl

/-- The packets carry the number of the message. -/
theorem fragment_messageNumber {p : DataPacket} (hp : p ∈ (e.fragment now message).1) :
    p.messageNumber = e.nextMessage.1 := by
  obtain ⟨i, -, rfl⟩ := e.mem_fragment now message hp
  rfl

/-- The payloads of the packets make the message. -/
theorem fragment_payload :
    (e.fragment now message).1.flatMap DataPacket.payload = message := by
  rw [fragment_fst, List.flatMap_map]
  show (List.range _).flatMap (Piece.octets e.pieceSize message.toArray) = message
  rw [Piece.take_pieces]
  exact List.take_of_length_le (Piece.length_le_count_mul e.pieceSize_pos message.length)

/-- Only a message of no octets has no packets. -/
theorem fragment_eq_nil_iff : (e.fragment now message).1 = [] ↔ message = [] := by
  constructor
  · intro hnone
    have hpayload := e.fragment_payload now message
    rw [hnone] at hpayload
    exact hpayload.symm
  · rintro rfl
    have hmax := e.pieceSize_pos
    refine List.eq_nil_of_length_eq_zero ?_
    rw [length_fragment]
    show (0 + e.pieceSize - 1) / e.pieceSize = 0
    exact Nat.div_eq_of_lt (by omega)

end Engine

end ReliableSender
