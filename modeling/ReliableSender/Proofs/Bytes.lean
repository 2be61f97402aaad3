/-
  ReliableSender.Proofs.Bytes
  ───────────────────────────
  **WORDS AT THEIR OFFSETS.**

  The format places its fields by counting octets from the front.  Reading
  word after word gives the words that stand at the multiples of four, and
  what is left begins behind the last of them:

      word?_of_le  — one word, if four octets are there
      words_eq     — all words of an octet string, and its remainder
-/
import ReliableSender.Bytes

namespace ReliableSender.Bytes

/-- The word at an offset, most significant octet first.  Octets past the end count as 0. -/
def wordAt (b : Bytes) (i : Nat) : UInt32 :=
  toWord (b.getD i 0) (b.getD (i + 1) 0) (b.getD (i + 2) 0) (b.getD (i + 3) 0)

theorem getD_drop (b : Bytes) (k i : Nat) : (b.drop k).getD i 0 = b.getD (k + i) 0 := by
  rw [List.getD_eq_getElem?_getD, List.getElem?_drop, ← List.getD_eq_getElem?_getD]

theorem wordAt_drop (b : Bytes) (k i : Nat) : wordAt (b.drop k) i = b.wordAt (k + i) := by
  unfold wordAt
  simp only [getD_drop, Nat.add_assoc]

/-- Where four octets are left, the first of them are taken off as a word. -/
theorem word?_of_le {b : Bytes} (h : 4 ≤ b.length) : word? b = some (b.wordAt 0, b.drop 4) := by
  match b, h with
  | _ :: _ :: _ :: _ :: _, _ => rfl

theorem word?_of_lt {b : Bytes} (h : b.length < 4) : word? b = none :=
  word?_eq_none_iff.mpr h

theorem word?_drop_of_le {b : Bytes} {k : Nat} (h : k + 4 ≤ b.length) :
    word? (b.drop k) = some (b.wordAt k, b.drop (k + 4)) := by
  have hleft : 4 ≤ (b.drop k).length := by
    rw [List.length_drop]
    omega
  rw [word?_of_le hleft, wordAt_drop, List.drop_drop]
  rfl

theorem word?_drop_of_lt {b : Bytes} {k : Nat} (h : b.length < k + 4) :
    word? (b.drop k) = none := by
  refine word?_of_lt ?_
  rw [List.length_drop]
  omega

/-- The words of an octet string stand at the multiples of four, and less than four octets
are left behind them. -/
theorem words_eq : ∀ b : Bytes,
    words b = ((List.range (b.length / 4)).map fun i => b.wordAt (4 * i),
      b.drop (4 * (b.length / 4)))
  | [] | [_] | [_, _] | [_, _, _] => by simp [words_of_length_lt]
  | w :: x :: y :: z :: rest => by
    have hcount : (w :: x :: y :: z :: rest).length / 4 = rest.length / 4 + 1 := by
      show (rest.length + 4) / 4 = _
      omega
    -- Every offset in the rest lies four octets further in the whole.
    have hshift : ∀ i, wordAt (w :: x :: y :: z :: rest) (4 * (i + 1)) = wordAt rest (4 * i) := by
      intro i
      have hoffset : 4 * (i + 1) = 4 + 4 * i := by omega
      rw [hoffset]
      exact (wordAt_drop (w :: x :: y :: z :: rest) 4 (4 * i)).symm
    have hbehind : 4 * (rest.length / 4 + 1) = 4 * (rest.length / 4) + 4 := by omega
    rw [words_cons, words_eq rest, hcount, List.range_succ_eq_map, List.map_cons, List.map_map,
      hbehind]
    simp only [Function.comp_def, Nat.succ_eq_add_one, hshift]
    rfl

end ReliableSender.Bytes
