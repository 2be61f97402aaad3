/-
  ReliableSender.Text.Blank
  ─────────────────────────
  **WHITE SPACE OF ANY SCRIPT.**

  `isBlank` is the Unicode property White_Space; trimming and the test for a
  blank text go by it.  A zero-width space or a byte order mark does not have
  the property.
-/
namespace ReliableSender.Text

/-- The property White_Space. -/
def isBlank (c : Char) : Bool :=
  let n := c.toNat
  (0x09 ≤ n && n ≤ 0x0D) || n == 0x20 || n == 0x85 || n == 0xA0 || n == 0x1680
    || (0x2000 ≤ n && n ≤ 0x200A) || n == 0x2028 || n == 0x2029 || n == 0x202F
    || n == 0x205F || n == 0x3000

/-- Drop white space at both ends. -/
def trimList (cs : List Char) : List Char :=
  ((cs.dropWhile isBlank).reverse.dropWhile isBlank).reverse

/-- Drop white space at both ends of a string. -/
def trim (s : String) : String := String.ofList (trimList s.toList)

/-- Whether a string holds white space only. -/
def allBlank (s : String) : Bool := s.toList.all isBlank

end ReliableSender.Text
