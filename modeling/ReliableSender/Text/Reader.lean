/-
  ReliableSender.Text.Reader
  ──────────────────────────
  **READING OFF THE FRONT OF A TEXT.**

  A reader takes the characters ahead and returns what it read together with
  the characters behind it, or nothing where the grammar has no such thing.
-/
namespace ReliableSender.Text

/-- Reads something off the front of the characters ahead. -/
abbrev Reader (α : Type) := List Char → Option (α × List Char)

/-- Read one given character. -/
def character (c : Char) : Reader Unit
  | d :: rest => if c = d then some ((), rest) else none
  | [] => none

/-- The value of a hexadecimal digit. -/
def hexValue? (c : Char) : Option Nat :=
  if '0' ≤ c ∧ c ≤ '9' then some (c.toNat - 48)
  else if 'a' ≤ c ∧ c ≤ 'f' then some (c.toNat - 87)
  else if 'A' ≤ c ∧ c ≤ 'F' then some (c.toNat - 55)
  else none

/-- Whether a character is a digit in a base up to sixteen. -/
def isDigitIn (base : Nat) (c : Char) : Bool := (hexValue? c).any (· < base)

/-- The number that digits spell in a base. -/
def valueOf (base : Nat) (digits : List Char) : Nat :=
  digits.foldl (fun n c => n * base + (hexValue? c).getD 0) 0

end ReliableSender.Text
