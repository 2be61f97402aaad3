/-
  ReliableSender.Bytes
  ────────────────────
  **OCTET STRINGS AND BIG-ENDIAN WORDS.**

  Everything that travels is a list of octets.  Header fields, round-trip
  times and loss entries are 32-bit words, most significant octet first.
  Writing a word and reading it back are inverse in both directions, and
  they are stated through `Nat` arithmetic so that `omega` settles them:

      word? (ofWord w ++ rest) = some (w, rest)
      word? b = some (w, rest)  →  b = ofWord w ++ rest

  `words` splits a whole octet string into words and the up to three
  octets that do not fill one.
-/

namespace ReliableSender

/-- A string of octets. -/
abbrev Bytes := List UInt8

namespace Bytes

/-! ## §1. One word. -/

/-- The four octets of a word, most significant first. -/
def ofWord (w : UInt32) : Bytes :=
  [UInt8.ofNat (w.toNat >>> 24), UInt8.ofNat (w.toNat >>> 16),
   UInt8.ofNat (w.toNat >>> 8), UInt8.ofNat w.toNat]

/-- The word that four octets spell, most significant first. -/
def toWord (a b c d : UInt8) : UInt32 :=
  UInt32.ofNat (a.toNat * 16777216 + b.toNat * 65536 + c.toNat * 256 + d.toNat)

/-- Take the leading word off, if four octets are there. -/
def word? : Bytes → Option (UInt32 × Bytes)
  | a :: b :: c :: d :: rest => some (toWord a b c d, rest)
  | _ => none

theorem toNat_toWord (a b c d : UInt8) :
    (toWord a b c d).toNat
      = a.toNat * 16777216 + b.toNat * 65536 + c.toNat * 256 + d.toNat := by
  have ha := a.toNat_lt
  have hb := b.toNat_lt
  have hc := c.toNat_lt
  have hd := d.toNat_lt
  simp only [toWord, UInt32.toNat_ofNat']
  omega

/-- The octets of a word spell that word. -/
theorem toWord_ofWord (w : UInt32) :
    toWord (UInt8.ofNat (w.toNat >>> 24)) (UInt8.ofNat (w.toNat >>> 16))
      (UInt8.ofNat (w.toNat >>> 8)) (UInt8.ofNat w.toNat) = w := by
  have hw := w.toNat_lt
  apply UInt32.toNat_inj.mp
  rw [toNat_toWord]
  simp only [UInt8.toNat_ofNat', Nat.shiftRight_eq_div_pow]
  omega

/-- Four octets are the octets of the word they spell. -/
theorem ofWord_toWord (a b c d : UInt8) : ofWord (toWord a b c d) = [a, b, c, d] := by
  have ha := a.toNat_lt
  have hb := b.toNat_lt
  have hc := c.toNat_lt
  have hd := d.toNat_lt
  simp only [ofWord, toNat_toWord, List.cons.injEq, and_true]
  refine ⟨?_, ?_, ?_, ?_⟩ <;> apply UInt8.toNat_inj.mp <;>
    simp only [UInt8.toNat_ofNat', Nat.shiftRight_eq_div_pow] <;> omega

@[simp] theorem word?_ofWord (w : UInt32) (rest : Bytes) :
    word? (ofWord w ++ rest) = some (w, rest) := by
  simp only [ofWord, List.cons_append, List.nil_append, word?, toWord_ofWord]

theorem word?_eq_none_iff {b : Bytes} : word? b = none ↔ b.length < 4 := by
  match b with
  | [] | [_] | [_, _] | [_, _, _] => simp [word?]
  | _ :: _ :: _ :: _ :: _ => simp [word?]

/-- Reading a word loses nothing. -/
theorem eq_ofWord_append_of_word? {b rest : Bytes} {w : UInt32}
    (h : word? b = some (w, rest)) : b = ofWord w ++ rest := by
  match b, h with
  | _ :: _ :: _ :: _ :: _, h =>
    simp only [word?, Option.some.injEq, Prod.mk.injEq] at h
    obtain ⟨rfl, rfl⟩ := h
    rw [ofWord_toWord]
    rfl

/-! ## §2. A string of words. -/

/-- The octets of a list of words. -/
def ofWords (ws : List UInt32) : Bytes := ws.flatMap ofWord

/-- The words an octet string holds, and the at most three octets after the
last of them. -/
def words (b : Bytes) : List UInt32 × Bytes := go [] b
where
  go (acc : List UInt32) : Bytes → List UInt32 × Bytes
    | a :: b :: c :: d :: rest => go (toWord a b c d :: acc) rest
    | rest => (acc.reverse, rest)

/-- The words already split off are carried along unchanged. -/
theorem words_go : ∀ (acc : List UInt32) (b : Bytes),
    words.go acc b = (acc.reverse ++ (words b).1, (words b).2)
  | acc, [] | acc, [_] | acc, [_, _] | acc, [_, _, _] => by simp [words, words.go]
  | acc, a :: b :: c :: d :: rest => by
    rw [words, words.go, words.go, words_go, words_go [toWord a b c d]]
    simp

theorem words_cons (a b c d : UInt8) (rest : Bytes) :
    words (a :: b :: c :: d :: rest)
      = (toWord a b c d :: (words rest).1, (words rest).2) := by
  rw [words, words.go, words_go]
  simp

theorem words_of_length_lt {b : Bytes} (h : b.length < 4) : words b = ([], b) := by
  match b with
  | [] | [_] | [_, _] | [_, _, _] => rfl
  | _ :: _ :: _ :: _ :: _ => simp at h; omega

/-- Splitting loses nothing. -/
theorem ofWords_words : ∀ b : Bytes, ofWords (words b).1 ++ (words b).2 = b
  | [] | [_] | [_, _] | [_, _, _] => rfl
  | a :: b :: c :: d :: rest => by
    have ih := ofWords_words rest
    rw [words_cons]
    simp only [ofWords, List.flatMap_cons, ofWord_toWord, List.append_assoc] at ih ⊢
    rw [ih]
    rfl

/-- Written words are split off again, and nothing is left over. -/
theorem words_ofWords (ws : List UInt32) : words (ofWords ws) = (ws, []) := by
  induction ws with
  | nil => rfl
  | cons w ws ih =>
    show words (ofWord w ++ ofWords ws) = (w :: ws, [])
    unfold ofWord
    simp only [List.cons_append, List.nil_append]
    rw [words_cons, toWord_ofWord, ih]

end Bytes

end ReliableSender
