/-
  ReliableSender.Proofs.Config.Blank
  ──────────────────────────────────
  **BLANK TEXTS AND EMPTY DOCUMENTS.**

  A text of white space alone is the default configuration without being
  read.  White space is that of any script there; between the lines of a
  document it is space, tab and line ends, and a carriage return only in a
  line end.  So the two agree on some blank texts, and on the others one
  has a configuration where the other has a fault:

      separatesOnly         — nothing but what may stand between lines
      skipLines_of_blank    — what is left of a blank text between lines
      line_of_blank         — white space begins no line
      parse_of_blank        — when a blank text is a document
      blank_shortcut        — where reading may be left out
-/
import ReliableSender.Config.Document

namespace ReliableSender

/-! ## §1. Blank characters. -/

namespace Text

/-- White space is neither a letter nor a digit. -/
theorem isAlphanum_of_isBlank {c : Char} (h : isBlank c = true) : c.isAlphanum = false := by
  refine Bool.eq_false_iff.mpr fun hword => ?_
  replace hword : ((decide (c.val ≥ 65 ∧ c.val ≤ 90)
      || decide (c.val ≥ 97) && decide (c.val ≤ 122))
      || decide (c.val ≥ 48) && decide (c.val ≤ 57)) = true := hword
  simp only [Bool.or_eq_true, Bool.and_eq_true, decide_eq_true_eq, UInt32.le_iff_toNat_le,
    ge_iff_le] at hword
  -- The letters and digits of ASCII, by their numbers.
  change ((65 ≤ c.toNat ∧ c.toNat ≤ 90) ∨ (97 ≤ c.toNat ∧ c.toNat ≤ 122))
    ∨ (48 ≤ c.toNat ∧ c.toNat ≤ 57) at hword
  simp only [isBlank, Bool.or_eq_true, Bool.and_eq_true, decide_eq_true_eq, beq_iff_eq] at h
  omega

/-- White space is none of the characters that are not. -/
theorem ne_of_isBlank {c d : Char} (h : isBlank c = true) (hd : isBlank d = false) : c ≠ d := by
  rintro rfl
  exact absurd (hd.symm.trans h) Bool.false_ne_true

end Text

namespace Toml

open Text (isBlank)

/-- White space is not part of a bare key. -/
theorem isBareKey_of_isBlank {c : Char} (h : isBlank c = true) : isBareKey c = false := by
  have hunderscore : c ≠ '_' := Text.ne_of_isBlank h (by decide)
  have hhyphen : c ≠ '-' := Text.ne_of_isBlank h (by decide)
  unfold isBareKey
  rw [Text.isAlphanum_of_isBlank h]
  simp [hunderscore, hhyphen]

/-- White space begins no key, quoted or bare. -/
theorem simpleKey_of_blank {c : Char} (h : isBlank c = true) (rest : List Char) :
    simpleKey (c :: rest) = none := by
  unfold simpleKey
  split
  · rename_i heq
    exact absurd (List.cons.inj heq).1 (Text.ne_of_isBlank h (by decide))
  · rename_i heq
    exact absurd (List.cons.inj heq).1 (Text.ne_of_isBlank h (by decide))
  · rw [List.takeWhile_cons, isBareKey_of_isBlank h]
    rfl

/-- White space begins no line. -/
theorem line_of_blank {c : Char} (h : isBlank c = true) (rest : List Char) :
    line (c :: rest) = none := by
  have hkey : dottedKey (c :: rest) = none := by
    show dottedKey.go (rest.length + 1) [] (c :: rest) = none
    unfold dottedKey.go
    rw [simpleKey_of_blank h]
  unfold line
  split
  · rename_i heq
    exact absurd (List.cons.inj heq).1 (Text.ne_of_isBlank h (by decide))
  · rename_i heq
    exact absurd (List.cons.inj heq).1 (Text.ne_of_isBlank h (by decide))
  · unfold keyValue
    rw [hkey]
    rfl

/-! ## §2. Between lines. -/

/-- Nothing but spaces, tabs and line ends. -/
def separatesOnly : List Char → Bool
  | [] => true
  | '\r' :: '\n' :: rest => separatesOnly rest
  | c :: rest => (isSpace c || c == '\n') && separatesOnly rest

theorem separatesOnly_of_ne {c : Char} (h : c ≠ '\r') (rest : List Char) :
    separatesOnly (c :: rest) = ((isSpace c || c == '\n') && separatesOnly rest) := by
  simp [separatesOnly, h]

/-- Spaces do not matter. -/
theorem separatesOnly_skipSpace (cs : List Char) :
    separatesOnly (skipSpace cs) = separatesOnly cs := by
  induction cs with
  | nil => rfl
  | cons c rest ih =>
    unfold skipSpace at ih ⊢
    rw [List.dropWhile_cons]
    by_cases hc : isSpace c = true
    · have hreturn : c ≠ '\r' := by
        rintro rfl
        exact absurd hc (by decide)
      rw [if_pos hc, ih, separatesOnly_of_ne hreturn, hc]
      rfl
    · rw [if_neg hc]

/-- Neither do line ends. -/
theorem separatesOnly_lineEnd {cs rest : List Char} (h : lineEnd? cs = some rest) :
    separatesOnly cs = separatesOnly rest := by
  unfold lineEnd? at h
  split at h
  · obtain rfl := Option.some.inj h
    exact separatesOnly_of_ne (by decide) _
  · obtain rfl := Option.some.inj h
    rfl
  · cases h

/-- Where neither comes, there is something else. -/
theorem separatesOnly_stuck {c : Char} {rest : List Char} (hspace : isSpace c = false)
    (hend : lineEnd? (c :: rest) = none) : separatesOnly (c :: rest) = false := by
  by_cases hfeed : c = '\n'
  · rw [hfeed] at hend
    cases hend
  by_cases hreturn : c = '\r'
  · rw [hreturn] at hend ⊢
    cases rest with
    | nil => rfl
    | cons d rest =>
      have hd : d ≠ '\n' := by
        rintro rfl
        cases hend
      simp [separatesOnly, hd, isSpace]
  · rw [separatesOnly_of_ne hreturn, hspace]
    simp [hfeed]

/-- Behind a line end a blank text is blank, and shorter. -/
theorem blank_of_lineEnd {cs rest : List Char} (h : lineEnd? cs = some rest)
    (hblank : cs.all isBlank = true) : rest.all isBlank = true ∧ rest.length < cs.length := by
  unfold lineEnd? at h
  split at h
  · obtain rfl := Option.some.inj h
    exact ⟨by simpa [isBlank] using hblank, Nat.lt_succ_self _⟩
  · obtain rfl := Option.some.inj h
    exact ⟨by simpa [isBlank] using hblank, Nat.lt_trans (Nat.lt_succ_self _) (Nat.lt_succ_self _)⟩
  · cases h

theorem blank_skipSpace {cs : List Char} (hblank : cs.all isBlank = true) :
    (skipSpace cs).all isBlank = true := by
  rw [List.all_eq_true] at hblank ⊢
  exact fun c hc => hblank c ((List.dropWhile_sublist _).subset hc)

/-- There is no comment in a blank text. -/
theorem skipComment_of_blank {cs : List Char} (hblank : cs.all isBlank = true) :
    skipComment cs = cs := by
  unfold skipComment
  split
  · exact absurd hblank (by simp [isBlank])
  · rfl

/-- What is left behind spaces is no space. -/
theorem isSpace_of_skipSpace {cs rest : List Char} {c : Char} (h : skipSpace cs = c :: rest) :
    isSpace c = false := by
  have hfirst := List.head?_dropWhile_not isSpace cs
  rw [show cs.dropWhile isSpace = c :: rest from h] at hfirst
  exact hfirst

/-- Every line end that is dropped leaves fewer characters, so the fuel lasts. -/
theorem skipLines_go_of_blank {fuel : Nat} {cs : List Char} (hblank : cs.all isBlank = true)
    (hlength : cs.length ≤ fuel) :
    (separatesOnly cs = true ∧ skipLines.go fuel cs = [])
      ∨ separatesOnly cs = false
        ∧ ∃ c rest, isBlank c = true ∧ skipLines.go fuel cs = c :: rest := by
  induction fuel generalizing cs with
  | zero =>
    obtain rfl := List.length_eq_zero_iff.mp (Nat.le_zero.mp hlength)
    exact Or.inl ⟨rfl, rfl⟩
  | succ fuel ih =>
    have hspaces := blank_skipSpace hblank
    have hshorter : (skipSpace cs).length ≤ cs.length := (List.dropWhile_sublist _).length_le
    have hhead : ∀ c rest, skipSpace cs = c :: rest → isSpace c = false :=
      fun c rest h => isSpace_of_skipSpace h
    unfold skipLines.go
    rw [skipComment_of_blank hspaces, ← separatesOnly_skipSpace]
    generalize skipSpace cs = left at hspaces hshorter hhead ⊢
    cases left with
    | nil => exact Or.inl ⟨rfl, rfl⟩
    | cons c rest =>
      cases hend : lineEnd? (c :: rest) with
      | some rest' =>
        obtain ⟨hblank', hless⟩ := blank_of_lineEnd hend hspaces
        rw [separatesOnly_lineEnd hend]
        simp only [hend]
        exact ih hblank' (by omega)
      | none =>
        simp only [hend]
        rw [List.all_cons, Bool.and_eq_true] at hspaces
        exact Or.inr ⟨separatesOnly_stuck (hhead c rest rfl) hend, c, rest, hspaces.1, rfl⟩

/-- Between lines all of a blank text is dropped, or some white space is left. -/
theorem skipLines_of_blank {cs : List Char} (hblank : cs.all isBlank = true) :
    (separatesOnly cs = true ∧ skipLines cs = [])
      ∨ separatesOnly cs = false ∧ ∃ c rest, isBlank c = true ∧ skipLines cs = c :: rest :=
  skipLines_go_of_blank hblank (Nat.le_refl _)

/-! ## §3. Blank documents. -/

/-- A byte order mark is not blank. -/
theorem skipMark_of_blank {cs : List Char} (hblank : cs.all isBlank = true) :
    skipMark cs = cs := by
  cases cs with
  | nil => rfl
  | cons c rest =>
    rw [List.all_cons, Bool.and_eq_true] at hblank
    exact if_neg (Text.ne_of_isBlank hblank.1 (by decide))

/-- The lines of a blank text are none, or there is one that cannot be read. -/
theorem lines_of_blank {cs : List Char} (hblank : cs.all isBlank = true) (fuel : Nat)
    (p : Progress) : lines (fuel + 1) p cs = if separatesOnly cs then some p else none := by
  unfold lines
  rcases skipLines_of_blank hblank with ⟨hseparates, hnone⟩ | ⟨hseparates, c, rest, hc, hleft⟩
  · rw [hnone, hseparates]
    rfl
  · rw [hleft, hseparates]
    simp only [line_of_blank hc]
    rfl

/-- **When a blank text is a document.**  It is one, and an empty one, exactly if it holds
nothing but what may stand between lines. -/
theorem parse_of_blank {text : String} (h : Text.allBlank text = true) :
    parse text = if separatesOnly text.toList then some [] else none := by
  show (lines ((skipMark text.toList).length + 1) {} (skipMark text.toList)).map Progress.root = _
  rw [skipMark_of_blank h, lines_of_blank h]
  split <;> rfl

end Toml

/-! ## §4. The configuration of a blank text. -/

namespace Config

/-- The configuration that a text gives when it is read, blank or not. -/
def ofDocument (text : String) : Except ConfigError Config :=
  match ConfigInput.ofText text with
  | .error fault => .error fault
  | .ok input => input.resolve

/-- An empty document gives the default configuration. -/
theorem ofDocument_of_empty {text : String} (h : Toml.parse text = some []) :
    ofDocument text = .ok {} := by
  unfold ofDocument ConfigInput.ofText
  rw [h]
  rfl

/-- A text that is no document gives none. -/
theorem ofDocument_of_none {text : String} (h : Toml.parse text = none) :
    ofDocument text = .error (.document .grammar) := by
  unfold ofDocument ConfigInput.ofText
  rw [h]

/-- **Where a blank text need not be read.**  A text has the configuration that it has when it is
read exactly if it is not blank or holds nothing but what may stand between lines.  Where it has
another, the text is blank and no document, and the configuration is the default one. -/
theorem blank_shortcut (text : String) :
    (ofText text = ofDocument text
        ↔ Text.allBlank text = false ∨ Toml.separatesOnly text.toList = true)
      ∧ (ofText text ≠ ofDocument text
        ↔ Text.allBlank text = true ∧ ofText text = .ok {} ∧ Toml.parse text = none) := by
  have hread : Text.allBlank text = false → ofText text = ofDocument text := fun h =>
    if_neg (by simp [h])
  have hblank : Text.allBlank text = true → ofText text = .ok {} := fun h => if_pos h
  cases hcase : Text.allBlank text with
  | false => simp [hread hcase]
  | true =>
    have hparse := Toml.parse_of_blank hcase
    rw [hblank hcase]
    cases hseparates : Toml.separatesOnly text.toList with
    | true =>
      rw [hseparates] at hparse
      rw [ofDocument_of_empty hparse, hparse]
      simp
    | false =>
      rw [hseparates] at hparse
      rw [ofDocument_of_none hparse, hparse]
      simp

/-- **A text that is no document can have a configuration.**  A single no-break space is
blank, and nothing that may stand between lines. -/
theorem no_break_space_shortcut :
    ofText "\u00a0" = .ok {} ∧ Toml.parse "\u00a0" = none
      ∧ ofDocument "\u00a0" = .error (.document .grammar) := by
  have hblank : Text.allBlank "\u00a0" = true := by decide +kernel
  have hother : Toml.separatesOnly "\u00a0".toList = false := by decide +kernel
  have hparse : Toml.parse "\u00a0" = none := by
    rw [Toml.parse_of_blank hblank, hother]
    rfl
  exact ⟨if_pos hblank, hparse, ofDocument_of_none hparse⟩

end Config

end ReliableSender
