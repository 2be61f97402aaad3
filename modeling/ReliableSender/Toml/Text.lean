/-
  ReliableSender.Toml.Text
  ────────────────────────
  **WHITE SPACE, COMMENTS, STRINGS AND KEYS OF A TOML DOCUMENT.**

  Only space, tab and line ends separate; a carriage return counts as part
  of a line end and nowhere else.
-/
import ReliableSender.Text.Reader
import ReliableSender.Toml.Value

namespace ReliableSender.Toml

open ReliableSender.Text (Reader character hexValue? isDigitIn valueOf)

/-! ## §1. White space and comments. -/

/-- Space or tab. -/
def isSpace (c : Char) : Bool := c == ' ' || c == '\t'

/-- A character that may stand in a comment or a literal string. -/
def isPlain (c : Char) : Bool :=
  c == '\t' || (0x20 ≤ c.toNat && c.toNat ≠ 0x7F)

/-- Drop spaces and tabs. -/
def skipSpace (cs : List Char) : List Char := cs.dropWhile isSpace

/-- Read a line end. -/
def lineEnd? : List Char → Option (List Char)
  | '\n' :: rest => some rest
  | '\r' :: '\n' :: rest => some rest
  | _ => none

/-- Drop a comment, if one starts here, up to its line end. -/
def skipComment : List Char → List Char
  | '#' :: rest => rest.dropWhile isPlain
  | cs => cs

/-- What follows a complete line: spaces, a comment, and the line end or the end
of the document. -/
def endOfLine (cs : List Char) : Option (List Char) :=
  match skipComment (skipSpace cs) with
  | [] => some []
  | rest => lineEnd? rest

/-- Drop spaces, comments and line ends. -/
def skipLines (cs : List Char) : List Char := go cs.length cs
where
  go : Nat → List Char → List Char
    | 0, cs => cs
    | fuel + 1, cs =>
      match skipComment (skipSpace cs) with
      | [] => []
      | rest =>
        match lineEnd? rest with
        | some rest => go fuel rest
        | none => rest

/-! ## §2. Strings on one line. -/

/-- Read a character given by exactly `n` hexadecimal digits. -/
def codePoint (n : Nat) : Reader Char := fun cs => do
  let digits := cs.take n
  guard (digits.length = n)
  guard (digits.all (isDigitIn 16))
  let code := valueOf 16 digits
  guard code.isValidChar
  some (Char.ofNat code, cs.drop n)

/-- Read what stands behind the backslash of an escape. -/
def escape : Reader Char
  | 'b' :: rest => some ('\x08', rest)
  | 't' :: rest => some ('\t', rest)
  | 'n' :: rest => some ('\n', rest)
  | 'f' :: rest => some ('\x0c', rest)
  | 'r' :: rest => some ('\r', rest)
  | 'e' :: rest => some ('\x1b', rest)
  | '"' :: rest => some ('"', rest)
  | '\\' :: rest => some ('\\', rest)
  | 'x' :: rest => codePoint 2 rest
  | 'u' :: rest => codePoint 4 rest
  | 'U' :: rest => codePoint 8 rest
  | _ => none

/-- Read a basic string behind its opening quote. -/
def basicString : Reader String := fun cs => go cs.length [] cs
where
  go : Nat → List Char → Reader String
    | _, read, '"' :: rest => some (String.ofList read.reverse, rest)
    | fuel + 1, read, '\\' :: rest =>
      match escape rest with
      | some (c, rest) => go fuel (c :: read) rest
      | none => none
    | fuel + 1, read, c :: rest => if isPlain c then go fuel (c :: read) rest else none
    | _, _, _ => none

/-- Read a literal string behind its opening quote. -/
def literalString : Reader String := fun cs =>
  let body := cs.takeWhile fun c => isPlain c && c ≠ '\''
  match cs.drop body.length with
  | '\'' :: rest => some (String.ofList body, rest)
  | _ => none

/-! ## §3. Strings over several lines. -/

/-- Drop the line end that follows the opening quotes. -/
def skipFirstLineEnd (cs : List Char) : List Char := (lineEnd? cs).getD cs

/-- Drop spaces and line ends behind a backslash that ends a line; nothing if the
line goes on. -/
def skipFold (cs : List Char) : Option (List Char) :=
  match lineEnd? (skipSpace cs) with
  | some rest => some (go rest.length rest)
  | none => none
where
  go : Nat → List Char → List Char
    | 0, cs => cs
    | fuel + 1, cs =>
      match lineEnd? (skipSpace cs) with
      | some rest => go fuel rest
      | none => skipSpace cs

/-- Whether three quotes close a string here.  Up to two more directly before the
closing three belong to the text, and the answer is how many. -/
def closing? (quote : Char) (cs : List Char) : Option (Nat × List Char) :=
  let quotes := (cs.takeWhile (· == quote)).length
  if quotes < 3 then none
  else
    let inside := min (quotes - 3) 2
    some (inside, cs.drop (inside + 3))

/-- Read a string over several lines behind its three opening quotes; escapes
count only in the basic kind. -/
def multilineString (quote : Char) (escapes : Bool) : Reader String := fun cs =>
  go cs.length [] (skipFirstLineEnd cs)
where
  go : Nat → List Char → Reader String
    | 0, read, cs => finish read cs
    | fuel + 1, read, cs =>
      match finish read cs with
      | some done => some done
      | none =>
        match cs with
        | '\n' :: rest => go fuel ('\n' :: read) rest
        | '\r' :: '\n' :: rest => go fuel ('\n' :: '\r' :: read) rest
        | c :: rest =>
          if escapes && c == '\\' then
            match skipFold rest with
            | some rest => go fuel read rest
            | none =>
              match escape rest with
              | some (c, rest) => go fuel (c :: read) rest
              | none => none
          else if isPlain c then go fuel (c :: read) rest
          else none
        | [] => none
  finish (read : List Char) : Reader String := fun cs =>
    match closing? quote cs with
    | some (inside, rest) =>
      some (String.ofList (read.reverse ++ List.replicate inside quote), rest)
    | none => none

/-- Read any string. -/
def string : Reader String
  | '"' :: '"' :: '"' :: rest => multilineString '"' true rest
  | '\'' :: '\'' :: '\'' :: rest => multilineString '\'' false rest
  | '"' :: rest => basicString rest
  | '\'' :: rest => literalString rest
  | _ => none

/-! ## §4. Keys. -/

/-- A character of a bare key. -/
def isBareKey (c : Char) : Bool := c.isAlphanum || c == '_' || c == '-'

/-- Read one key. -/
def simpleKey : Reader String
  | '"' :: rest => basicString rest
  | '\'' :: rest => literalString rest
  | cs =>
    let key := cs.takeWhile isBareKey
    if key.isEmpty then none else some (String.ofList key, cs.drop key.length)

/-- Keys are chained, and brackets nest, at most this deep. -/
def maxDepth : Nat := 80

/-- Read a dotted key: the keys of its path, and the last one. -/
def dottedKey : Reader (List String × String) := fun cs => go cs.length [] cs
where
  go : Nat → List String → Reader (List String × String)
    | 0, _, _ => none
    | fuel + 1, path, cs =>
      match simpleKey cs with
      | none => none
      | some (key, rest) =>
        match skipSpace rest with
        | '.' :: more => go fuel (key :: path) (skipSpace more)
        | rest => if path.length < maxDepth then some ((path.reverse, key), rest) else none

end ReliableSender.Toml
