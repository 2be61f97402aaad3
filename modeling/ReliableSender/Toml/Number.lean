/-
  ReliableSender.Toml.Number
  ──────────────────────────
  **NUMBERS, TRUTH VALUES AND DATES OF A TOML DOCUMENT.**

  These values have no opening mark, so each is a function on the whole text
  of the value.  A text can have the form of a number and yet be unreadable:
  an integer needs to fit 128 bits, a floating-point number needs to be
  nearer to some double than to infinity.
-/
import ReliableSender.Toml.Text

namespace ReliableSender.Toml

open ReliableSender.Text (Reader character isDigitIn valueOf)

/-! ## §1. Digits. -/

/-- Take out the underscores of a number.  Each stands between two digits. -/
def ungrouped (isDigit : Char → Bool) (cs : List Char) : Option (List Char) :=
  go false [] cs
where
  go (behindDigit : Bool) (read : List Char) : List Char → Option (List Char)
    | [] => some read.reverse
    | '_' :: c :: rest => if behindDigit && isDigit c then go true (c :: read) rest else none
    | c :: rest => if c = '_' then none else go (isDigit c) (c :: read) rest

/-- Split off a sign; the answer starts with whether it is a minus. -/
def signed : List Char → Bool × List Char
  | '-' :: rest => (true, rest)
  | '+' :: rest => (false, rest)
  | cs => (false, cs)

/-- Whether a number starts with a zero that it could do without. -/
def hasLeadingZero : List Char → Bool
  | '0' :: _ :: _ => true
  | _ => false

/-! ## §2. Integers. -/

/-- Drop zeros in front. -/
def significant (digits : List Char) : List Char := digits.dropWhile (· == '0')

/-- Whether 128 bits hold an integer, with or without a sign. -/
def fitsInteger (n : Int) : Bool :=
  if n < 0 then n.natAbs ≤ Nat.pow 2 127 else n.natAbs < Nat.pow 2 128

/-- The integer of digits in a base.  More than 128 of them are too many in any
base. -/
def integerOf (base : Nat) (negative : Bool) (digits : List Char) : Value :=
  if digits.isEmpty || !digits.all (isDigitIn base) || 128 < (significant digits).length then
    .unreadable
  else
    let magnitude := Int.ofNat (valueOf base digits)
    let n := if negative then -magnitude else magnitude
    if fitsInteger n then .integer n else .unreadable

/-- An integer in a base other than ten, behind the mark of its base.  Without any
digit it has the form of an integer still. -/
def based? (base : Nat) (cs : List Char) : Option Value := do
  guard (cs.all fun c => c == '_' || isDigitIn base c)
  let digits ← ungrouped (isDigitIn 16) cs
  some (integerOf base false digits)

/-- A decimal integer.  It has the form of one up to its first underscore; what
follows needs only to have the underscores in place, where hexadecimal digits
count as digits. -/
def decimal? (cs : List Char) : Option Value := do
  let (negative, body) := signed cs
  guard (!body.isEmpty && !hasLeadingZero body)
  let rest := body.dropWhile Char.isDigit
  guard (rest.isEmpty || rest.head? == some '_')
  let digits ← ungrouped (isDigitIn 16) body
  some (integerOf 10 negative digits)

/-! ## §3. Floating-point numbers. -/

/-- The least magnitude that rounds to infinity: half a unit above the largest
double. -/
def infinityBound : Nat := Nat.pow 2 1024 - Nat.pow 2 970

/-- Whether the number of the digits, times ten to the exponent, rounds to a double.
The bound is whole and has 309 digits, so the whole part of the number decides,
and of that most often its length alone. -/
def fitsDouble (digits : List Char) (exponent : Int) : Bool :=
  let digits := significant digits
  let length := Int.ofNat digits.length + exponent
  if digits.isEmpty || length < 309 then true
  else if 309 < length then false
  else
    let whole := (digits ++ List.replicate exponent.toNat '0').take length.toNat
    valueOf 10 whole < infinityBound

/-- At least one digit and nothing else. -/
def allDigits (cs : List Char) : Bool := !cs.isEmpty && cs.all Char.isDigit

/-- The exponent behind its mark.  Digits that follow once it has reached 65536 do
not count. -/
def exponent? (cs : List Char) : Option Int := do
  let (negative, digits) := signed cs
  guard (allDigits digits)
  let magnitude := Int.ofNat <| digits.foldl
    (fun n c => if n < 0x10000 then n * 10 + (c.toNat - 48) else n) 0
  some (if negative then -magnitude else magnitude)

/-- A floating-point number given by its digits: a whole part with a fraction, an
exponent or both. -/
def float? (cs : List Char) : Option Float := do
  let (negative, body) := signed cs
  guard (!hasLeadingZero (body.takeWhile fun c => c.isDigit || c == '_'))
  let plain ← ungrouped Char.isDigit body
  let mantissa := plain.takeWhile fun c => c ≠ 'e' && c ≠ 'E'
  let whole := mantissa.takeWhile (· ≠ '.')
  guard (allDigits whole)
  let fraction ← match mantissa.drop whole.length with
    | [] => some []
    | _ :: fraction => if allDigits fraction then some fraction else none
  let exponent ← match plain.drop mantissa.length with
    | [] => some 0
    | _ :: exponent => exponent? exponent
  some (.finite negative (whole ++ fraction)
    (exponent - Int.ofNat fraction.length))

/-- Infinity or not-a-number by name. -/
def namedFloat? (cs : List Char) : Option Float :=
  let (negative, body) := signed cs
  if body = ['i', 'n', 'f'] then some (.infinite negative)
  else if body = ['n', 'a', 'n'] then some (.notANumber negative)
  else none

/-- The value of a floating-point number, which is finite unless it names infinity. -/
def floatValue : Float → Value
  | .finite negative digits exponent =>
    if fitsDouble digits exponent then .float (.finite negative digits exponent)
    else .unreadable
  | x => .float x

/-! ## §4. Dates and times. -/

/-- Read a number of exactly `n` digits. -/
def fixedDigits (n : Nat) : Reader Nat := fun cs =>
  let digits := cs.take n
  if digits.length = n ∧ digits.all Char.isDigit then some (valueOf 10 digits, cs.drop n)
  else none

/-- Read a number of exactly `n` digits that does not exceed `most`. -/
def boundedDigits (n most : Nat) : Reader Nat := fun cs => do
  let (value, rest) ← fixedDigits n cs
  guard (value ≤ most)
  some (value, rest)

/-- The number of days of a month. -/
def daysIn (year month : Nat) : Nat :=
  if month = 2 then
    if year % 4 = 0 ∧ (year % 100 ≠ 0 ∨ year % 400 = 0) then 29 else 28
  else if month = 4 ∨ month = 6 ∨ month = 9 ∨ month = 11 then 30
  else 31

/-- Read a date. -/
def date : Reader Date := fun cs => do
  let (year, cs) ← fixedDigits 4 cs
  let (_, cs) ← character '-' cs
  let (month, cs) ← boundedDigits 2 12 cs
  let (_, cs) ← character '-' cs
  guard (1 ≤ month)
  let (day, cs) ← boundedDigits 2 (daysIn year month) cs
  guard (1 ≤ day)
  some (⟨year, month, day⟩, cs)

/-- Read a time; seconds may be left out, and 60 of them are a leap second. -/
def time : Reader Time := fun cs => do
  let (hour, cs) ← boundedDigits 2 23 cs
  let (_, cs) ← character ':' cs
  let (minute, cs) ← boundedDigits 2 59 cs
  match cs with
  | ':' :: cs =>
    let (second, cs) ← boundedDigits 2 60 cs
    match cs with
    | '.' :: cs =>
      let fraction := cs.takeWhile Char.isDigit
      guard (!fraction.isEmpty)
      some (⟨hour, minute, second, fraction⟩, cs.drop fraction.length)
    | _ => some (⟨hour, minute, second, []⟩, cs)
  | _ => some (⟨hour, minute, 0, []⟩, cs)

/-- Read an offset from universal time, in minutes. -/
def offset : Reader Int
  | 'Z' :: rest | 'z' :: rest => some (0, rest)
  | sign :: rest => do
    guard (sign = '+' ∨ sign = '-')
    let (hour, rest) ← boundedDigits 2 23 rest
    let (_, rest) ← character ':' rest
    let (minute, rest) ← boundedDigits 2 59 rest
    let minutes := Int.ofNat (hour * 60 + minute)
    some (if sign = '-' then -minutes else minutes, rest)
  | [] => none

/-- Whether a character may stand between a date and its time. -/
def isDateSeparator (c : Char) : Bool := c == 'T' || c == 't' || c == ' '

/-- A date, a time, or a date with a time and perhaps an offset. -/
def dateTime? (cs : List Char) : Option Value :=
  match date cs with
  | some (day, []) => some (.dateTime (some day) none none)
  | some (day, separator :: rest) => do
    guard (isDateSeparator separator)
    let (hour, rest) ← time rest
    if rest.isEmpty then some (.dateTime (some day) (some hour) none)
    else
      let (minutes, rest) ← offset rest
      guard rest.isEmpty
      some (.dateTime (some day) (some hour) (some minutes))
  | none => do
    let (hour, rest) ← time cs
    guard rest.isEmpty
    some (.dateTime none (some hour) none)

/-! ## §5. Values without an opening mark. -/

/-- The number, date or time that a text has the form of.  What follows the first
digits tells which of them it is to be; in a number there is no space. -/
def numeric? (cs : List Char) : Option Value :=
  let rest := (signed cs).2.dropWhile Char.isDigit
  if rest.head? == some '-' || rest.head? == some ':' then dateTime? cs
  else if rest.contains ' ' then none
  else if rest.any fun c => c == '.' || c == 'e' || c == 'E' then (float? cs).map floatValue
  else decimal? cs

/-- The value that a text without an opening mark stands for. -/
def scalar? : List Char → Option Value
  | ['t', 'r', 'u', 'e'] => some (.boolean true)
  | ['f', 'a', 'l', 's', 'e'] => some (.boolean false)
  | '0' :: 'x' :: rest => based? 16 rest
  | '0' :: 'o' :: rest => based? 8 rest
  | '0' :: 'b' :: rest => based? 2 rest
  | cs => (namedFloat? cs).map floatValue <|> numeric? cs

/-- A character of a word: any but white space and the marks that divide a document. -/
def isWord (c : Char) : Bool :=
  !(isSpace c || c == '\r' || c == '\n' || c == '#' || c == '=' || c == ','
    || c == '[' || c == ']' || c == '\x7b' || c == '\x7d')

/-- Whether a character can begin a further word of a text. -/
def beginsWord (c : Char) : Bool := isWord c && c != '"' && c != '\''

/-- The words ahead, with the white space that keeps them apart. -/
def words (cs : List Char) : List Char := go cs.length cs
where
  go : Nat → List Char → List Char
    | 0, _ => []
    | fuel + 1, cs =>
      let word := cs.takeWhile isWord
      let rest := cs.drop word.length
      let gap := rest.takeWhile isSpace
      let more := rest.drop gap.length
      if !gap.isEmpty && more.head?.any beginsWord then word ++ gap ++ go fuel more
      else word

/-- Read a value without an opening mark.  All words up to the next mark belong to
it, as in a date with a space before its time. -/
def scalar : Reader Value := fun cs =>
  let text := words cs
  (scalar? text).map (·, cs.drop text.length)

end ReliableSender.Toml
