/-
  ReliableSender.Toml.Document
  ────────────────────────────
  **READING A TOML DOCUMENT INTO ITS TREE.**

  The reader follows TOML 1.1: inline tables may run over several lines and
  end in a comma, and `\e` and `\x` are escapes.  Brackets nest at most
  eighty deep, and a key has at most eighty parts.  `parse` answers nothing
  for a text that is no document; a number that has no value does not keep a
  text from being one.
-/
import ReliableSender.Toml.Number

namespace ReliableSender.Toml

open ReliableSender.Text (Reader)

/-! ## §1. Arrays and inline tables. -/

/-- Read the items of an array, given how to read one, to the closing bracket. -/
def arrayItems (item : Reader Value) : Nat → List Value → Reader (List Value)
  | 0, _, _ => none
  | fuel + 1, read, cs =>
    match skipLines cs with
    | ']' :: rest => some (read.reverse, rest)
    | cs =>
      match item cs with
      | none => none
      | some (value, rest) =>
        match skipLines rest with
        | ',' :: rest => arrayItems item fuel (value :: read) rest
        | ']' :: rest => some ((value :: read).reverse, rest)
        | _ => none

/-- Read a key, an equals sign and a value, given how to read a value and what to
drop on both sides of the equals sign. -/
def keyValue (gap : List Char → List Char) (item : Reader Value) :
    Reader ((List String × String) × Value) := fun cs =>
  match dottedKey cs with
  | none => none
  | some (key, rest) =>
    match gap rest with
    | '=' :: rest =>
      match item (gap rest) with
      | some (value, rest) => some ((key, value), rest)
      | none => none
    | _ => none

/-- Read the entries of an inline table, given how to read a value, to the closing
brace. -/
def inlineEntries (item : Reader Value) : Nat → Entries → Reader Entries
  | 0, _, _ => none
  | fuel + 1, entries, cs =>
    match skipLines cs with
    | '}' :: rest => some (entries, rest)
    | cs =>
      match keyValue skipLines item cs with
      | none => none
      | some (((path, key), value), rest) =>
        match Entries.addDotted path key value .inlined entries with
        | none => none
        | some entries =>
          match skipLines rest with
          | ',' :: rest => inlineEntries item fuel entries rest
          | '}' :: rest => some (entries, rest)
          | _ => none

/-! ## §2. Values. -/

/-- Read a value in which brackets nest at most `depth` deep. -/
def value : Nat → Reader Value
  | 0, cs => unnested cs
  | depth + 1, cs =>
    match cs with
    | '[' :: rest =>
      (arrayItems (value depth) (rest.length + 1) [] rest).map fun (items, rest) =>
        (.array false items, rest)
    | '{' :: rest =>
      (inlineEntries (value depth) (rest.length + 1) [] rest).map fun (entries, rest) =>
        (.table .inlined entries, rest)
    | cs => unnested cs
where
  unnested : Reader Value
    | '"' :: rest => (string ('"' :: rest)).map fun (s, rest) => (.string s, rest)
    | '\'' :: rest => (string ('\'' :: rest)).map fun (s, rest) => (.string s, rest)
    | cs => scalar cs

/-! ## §3. Lines. -/

/-- What a line contributes. -/
inductive Line where
  /-- Opens a table. -/
  | header (path : List String) (key : String)
  /-- Starts the next table of an array. -/
  | element (path : List String) (key : String)
  | entry (path : List String) (key : String) (value : Value)

/-- Read one line that is not empty, up to its end. -/
def line : Reader Line
  | '[' :: '[' :: rest =>
    match dottedKey (skipSpace rest) with
    | some ((path, key), rest) =>
      match skipSpace rest with
      | ']' :: ']' :: rest => some (.element path key, rest)
      | _ => none
    | none => none
  | '[' :: rest =>
    match dottedKey (skipSpace rest) with
    | some ((path, key), rest) =>
      match skipSpace rest with
      | ']' :: rest => some (.header path key, rest)
      | _ => none
    | none => none
  | cs =>
    (keyValue skipSpace (value maxDepth) cs).map fun (((path, key), value), rest) =>
      (.entry path key value, rest)

/-- A document read so far: its tree, and the table that lines add to. -/
structure Progress where
  root : Entries := []
  current : List String := []

/-- Add what a line contributes. -/
def Progress.add (p : Progress) : Line → Option Progress
  | .header path key =>
    (Entries.openTable path key p.root).map fun root => ⟨root, path ++ [key]⟩
  | .element path key =>
    (Entries.openElement path key p.root).map fun root => ⟨root, path ++ [key]⟩
  | .entry path key value =>
    (Entries.addUnder p.current path key value p.root).map fun root => { p with root }

/-! ## §4. Documents. -/

/-- Read lines to the end of the document. -/
def lines : Nat → Progress → List Char → Option Progress
  | 0, _, _ => none
  | fuel + 1, p, cs =>
    match skipLines cs with
    | [] => some p
    | cs =>
      match line cs with
      | none => none
      | some (contribution, rest) =>
        match p.add contribution, endOfLine rest with
        | some p, some rest => lines fuel p rest
        | _, _ => none

/-- A byte order mark in front of a document is no part of it. -/
def skipMark : List Char → List Char
  | c :: rest => if c = '\ufeff' then rest else c :: rest
  | [] => []

/-- The tree of a document. -/
def parse (text : String) : Option Entries :=
  let cs := skipMark text.toList
  (lines (cs.length + 1) {} cs).map Progress.root

end ReliableSender.Toml
