/-
  ReliableSender.Toml.Value
  ─────────────────────────
  **THE TREE OF A TOML DOCUMENT.**

  Beside its entries a table carries how it came to be, because that decides
  what a later line may add to it: a table opened by its own header is
  closed to dotted keys, one that a longer header passed through may still
  be opened once, and an inline table is complete as it stands.
-/
namespace ReliableSender.Toml

/-! ## §1. Values. -/

/-- How a table came to be. -/
inductive Origin where
  /-- Opened by a header of its own; the document itself counts as opened. -/
  | header
  /-- Passed through by a longer header. -/
  | implied
  /-- Made by a dotted key. -/
  | dotted
  /-- Written in braces. -/
  | inlined
  deriving DecidableEq, Repr

/-- A floating-point number as it is written. -/
inductive Float where
  /-- The number of the digits, times ten to the exponent. -/
  | finite (negative : Bool) (digits : List Char) (exponent : Int)
  | infinite (negative : Bool)
  | notANumber (negative : Bool)
  deriving DecidableEq, Repr

/-- A calendar day. -/
structure Date where
  year : Nat
  month : Nat
  day : Nat
  deriving DecidableEq, Repr

/-- A time of day; a fraction of a second is kept as its digits. -/
structure Time where
  hour : Nat
  minute : Nat
  second : Nat := 0
  fraction : List Char := []
  deriving DecidableEq, Repr

/-- A value. -/
inductive Value where
  | string (s : String)
  | integer (n : Int)
  | float (x : Float)
  | boolean (b : Bool)
  /-- A date, a time, or both, the last with an optional offset in minutes. -/
  | dateTime (date : Option Date) (time : Option Time) (offset : Option Int)
  /-- A text in the form of a number that is the number of nothing: it is too large,
  or its digits are missing or mixed with letters. -/
  | unreadable
  /-- An array; one made by double-bracket headers can still grow. -/
  | array (growing : Bool) (items : List Value)
  | table (origin : Origin) (entries : List (String × Value))
  deriving Repr

/-- The entries of a table, in order of appearance. -/
abbrev Entries := List (String × Value)

mutual

/-- Whether a value can be read, with everything in it. -/
def Value.isReadable : Value → Bool
  | .unreadable => false
  | .array _ items => Value.areReadable items
  | .table _ entries => Entries.areReadable entries
  | _ => true

/-- Whether all of the values can be read. -/
def Value.areReadable : List Value → Bool
  | [] => true
  | v :: rest => v.isReadable && Value.areReadable rest

/-- Whether the values of all entries can be read. -/
def Entries.areReadable : List (String × Value) → Bool
  | [] => true
  | (_, v) :: rest => v.isReadable && Entries.areReadable rest

end

/-! ## §2. Entries. -/

namespace Entries

/-- The value under a key. -/
def get? (entries : Entries) (key : String) : Option Value :=
  (entries.find? (·.1 == key)).map (·.2)

/-- Put a value under a key that is there. -/
def replace (entries : Entries) (key : String) (value : Value) : Entries :=
  entries.map fun entry => if entry.1 == key then (key, value) else entry

/-- Put a value under a key that is not there; nothing if it is. -/
def addNew? (entries : Entries) (key : String) (value : Value) : Option Entries :=
  if (get? entries key).isNone then some (entries ++ [(key, value)]) else none

/-! ## §3. Adding to a tree. -/

/-- Follow a path of keys down from a table and change what is there.  Tables on
the way that do not exist are made.  A dotted path does not enter a table with
a header of its own; no path enters an inline table or passes a value that is
no table; an array of tables is entered at its last one. -/
def descend (dotted : Bool) (act : Origin → Entries → Option Entries) :
    List String → Origin → Entries → Option Entries
  | [], origin, entries => act origin entries
  | key :: path, _, entries =>
    match get? entries key with
    | none =>
      let made := if dotted then Origin.dotted else .implied
      (descend dotted act path made []).map fun inner => entries ++ [(key, .table made inner)]
    | some (.table origin inner) =>
      if origin = .inlined ∨ (dotted = true ∧ origin = .header) then none
      else (descend dotted act path origin inner).map fun inner =>
        replace entries key (.table origin inner)
    | some (.array true items) =>
      match items.getLast? with
      | some (.table origin inner) =>
        (descend dotted act path origin inner).map fun inner =>
          replace entries key (.array true (items.dropLast ++ [.table origin inner]))
      | _ => none
    | some _ => none

/-- Add a value under a dotted key to a table.  The last table on the way has to
be one made by dotted keys, unless there is no way to go. -/
def addDotted (path : List String) (key : String) (value : Value) (origin : Origin)
    (entries : Entries) : Option Entries :=
  let dotted := !path.isEmpty
  descend dotted
    (fun origin entries =>
      if (origin == .dotted) == dotted then addNew? entries key value else none)
    path origin entries

/-- Open the table of a header.  A table that only longer headers passed through
is opened with what it holds. -/
def openTable (path : List String) (key : String) (root : Entries) : Option Entries :=
  descend false
    (fun _ entries =>
      match get? entries key with
      | none => some (entries ++ [(key, .table .header [])])
      | some (.table .implied inner) => some (replace entries key (.table .header inner))
      | some _ => none)
    path .header root

/-- Start the next table of an array of tables. -/
def openElement (path : List String) (key : String) (root : Entries) : Option Entries :=
  descend false
    (fun _ entries =>
      match get? entries key with
      | none => some (entries ++ [(key, .array true [.table .header []])])
      | some (.array true items) =>
        some (replace entries key (.array true (items ++ [.table .header []])))
      | some _ => none)
    path .header root

/-- Add a value under a dotted key to the table that the last header opened. -/
def addUnder (header : List String) (path : List String) (key : String) (value : Value)
    (root : Entries) : Option Entries :=
  descend false (addDotted path key value) header .header root

end Entries

end ReliableSender.Toml
