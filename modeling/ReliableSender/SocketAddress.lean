/-
  ReliableSender.SocketAddress
  ────────────────────────────
  **ADDRESSES OF UDP SOCKETS, READ AND WRITTEN.**

  An address is four decimal numbers and a port, or eight hexadecimal groups
  in brackets, with an optional scope, and a port:

      127.0.0.1:9      [2001:db8::1]:9      [fe80::1%3]:9

  Octets have no leading zero; a port may.  `::` stands for one or more zero
  groups, and the last two groups may be written as four octets.  Written
  out, the longest run of at least two zero groups is shortened, the first
  of several, and an embedded address shows only behind `::ffff:`.
-/
import ReliableSender.Text.Reader

namespace ReliableSender

open ReliableSender.Text (Reader character isDigitIn valueOf)

/-! ## §1. Addresses. -/

/-- A 32-bit address. -/
structure IPv4 where
  a : UInt8
  b : UInt8
  c : UInt8
  d : UInt8
  deriving DecidableEq, Repr

/-- A 128-bit address as eight groups of 16 bits. -/
structure IPv6 where
  groups : Vector UInt16 8
  deriving DecidableEq, Repr

/-- Where a socket is. -/
inductive SocketAddress where
  | v4 (ip : IPv4) (port : UInt16)
  | v6 (ip : IPv6) (scope : UInt32) (port : UInt16)
  deriving DecidableEq, Repr

/-! ## §2. Reading. -/

/-- Read a numeral below `limit`.  All digits ahead belong to it; there may be at
most `most` of them, if that is given, and a leading zero only where `padded`
says so. -/
def numeral (base limit : Nat) (most : Option Nat) (padded : Bool) : Reader Nat := fun cs =>
  let digits := cs.takeWhile (isDigitIn base)
  let value := valueOf base digits
  if digits.isEmpty then none
  else if most.any (· < digits.length) then none
  else if !padded && digits.head? == some '0' && 1 < digits.length then none
  else if value < limit then some (value, cs.drop digits.length)
  else none

namespace IPv4

/-- Read one octet. -/
def octet : Reader UInt8 := fun cs =>
  (numeral 10 256 (some 3) false cs).map fun (n, rest) => (UInt8.ofNat n, rest)

/-- Read four octets with dots between them. -/
def read : Reader IPv4 := fun cs => do
  let (a, cs) ← octet cs
  let (_, cs) ← character '.' cs
  let (b, cs) ← octet cs
  let (_, cs) ← character '.' cs
  let (c, cs) ← octet cs
  let (_, cs) ← character '.' cs
  let (d, cs) ← octet cs
  some (⟨a, b, c, d⟩, cs)

/-- The two groups an embedded address stands for. -/
def groups (ip : IPv4) : List UInt16 :=
  [UInt16.ofNat (ip.a.toNat * 256 + ip.b.toNat), UInt16.ofNat (ip.c.toNat * 256 + ip.d.toNat)]

/-- The address as four octets with dots between them. -/
def toText (ip : IPv4) : String :=
  String.intercalate "." ([ip.a, ip.b, ip.c, ip.d].map fun n => toString n.toNat)

end IPv4

namespace IPv6

/-- Read what comes between groups: a colon, except before the first. -/
def separator (first : Bool) : Reader Unit := fun cs =>
  if first then some ((), cs) else character ':' cs

/-- Read as many groups as there are, at most `room`.  The last two of them may be
an embedded address, and the answer tells whether they are. -/
def groupsAhead (room : Nat) (cs : List Char) : (List UInt16 × Bool) × List Char :=
  go room [] cs
where
  go : Nat → List UInt16 → List Char → (List UInt16 × Bool) × List Char
    | 0, read, cs => ((read, false), cs)
    | room + 1, read, cs =>
      match separator read.isEmpty cs with
      | none => ((read, false), cs)
      | some (_, ahead) =>
        match (if 1 ≤ room then IPv4.read ahead else none) with
        | some (ip, rest) => ((read ++ ip.groups, true), rest)
        | none =>
          match numeral 16 65536 (some 4) true ahead with
          | some (n, rest) => go room (read ++ [UInt16.ofNat n]) rest
          | none => ((read, false), cs)

/-- The address with `front` at its start, `back` at its end and zeros between. -/
def ofEnds (front back : List UInt16) : IPv6 :=
  let all := front ++ List.replicate (8 - front.length - back.length) 0 ++ back
  ⟨Vector.ofFn fun i => all[i.val]?.getD 0⟩

/-- Read an address. -/
def read : Reader IPv6 := fun cs =>
  let ((front, embedded), rest) := groupsAhead 8 cs
  if front.length = 8 then some (ofEnds front [], rest)
  else if embedded then none
  else do
    let (_, rest) ← character ':' rest
    let (_, rest) ← character ':' rest
    let ((back, _), rest) := groupsAhead (7 - front.length) rest
    some (ofEnds front back, rest)

end IPv6

namespace SocketAddress

/-- Read a colon and a port. -/
def port : Reader UInt16 := fun cs => do
  let (_, cs) ← character ':' cs
  let (n, cs) ← numeral 10 65536 none true cs
  some (UInt16.ofNat n, cs)

/-- Read a percent sign and a scope. -/
def scope : Reader UInt32 := fun cs => do
  let (_, cs) ← character '%' cs
  let (n, cs) ← numeral 10 (Nat.pow 2 32) none true cs
  some (UInt32.ofNat n, cs)

/-- Read an address without brackets. -/
def readV4 : Reader SocketAddress := fun cs => do
  let (ip, cs) ← IPv4.read cs
  let (port, cs) ← port cs
  some (v4 ip port, cs)

/-- Read an address in brackets; without a scope the scope is 0. -/
def readV6 : Reader SocketAddress := fun cs => do
  let (_, cs) ← character '[' cs
  let (ip, cs) ← IPv6.read cs
  let (scope, cs) := (scope cs).getD (0, cs)
  let (_, cs) ← character ']' cs
  let (port, cs) ← port cs
  some (v6 ip scope port, cs)

/-- The address that a whole text is. -/
def ofText? (text : String) : Option SocketAddress :=
  let whole (reader : Reader SocketAddress) : Option SocketAddress := do
    let (address, rest) ← reader text.toList
    guard rest.isEmpty
    some address
  whole readV4 <|> whole readV6

end SocketAddress

/-! ## §3. Writing. -/

namespace IPv6

/-- A group in hexadecimal digits, without leading zeros. -/
def groupText (group : UInt16) : String := String.ofList (Nat.toDigits 16 group.toNat)

/-- Groups with colons between them. -/
def groupsText (groups : List UInt16) : String :=
  String.intercalate ":" (groups.map groupText)

/-- How many zero groups a list starts with. -/
def leadingZeros (groups : List UInt16) : Nat := (groups.takeWhile (· == 0)).length

/-- The longest run of zero groups, as its start and its length; the first of
several. -/
def longestZeros (groups : List UInt16) : Nat × Nat :=
  (List.range groups.length).foldl
    (fun best start =>
      let length := leadingZeros (groups.drop start)
      if best.2 < length then (start, length) else best)
    (0, 0)

/-- The embedded address, if the groups before it are those that announce one. -/
def embedded? (ip : IPv6) : Option IPv4 :=
  match ip.groups.toList with
  | [0, 0, 0, 0, 0, 0xffff, high, low] =>
    some ⟨UInt8.ofNat (high.toNat / 256), UInt8.ofNat high.toNat,
      UInt8.ofNat (low.toNat / 256), UInt8.ofNat low.toNat⟩
  | _ => none

/-- The address in its shortest form. -/
def toText (ip : IPv6) : String :=
  match ip.embedded? with
  | some inner => "::ffff:" ++ inner.toText
  | none =>
    let groups := ip.groups.toList
    let (start, length) := longestZeros groups
    if 1 < length then
      groupsText (groups.take start) ++ "::" ++ groupsText (groups.drop (start + length))
    else groupsText groups

end IPv6

/-- The text of an address; a scope of 0 is left out. -/
def SocketAddress.toText : SocketAddress → String
  | v4 ip port => ip.toText ++ ":" ++ toString port.toNat
  | v6 ip scope port =>
    let scopeText := if scope = 0 then "" else "%" ++ toString scope.toNat
    "[" ++ ip.toText ++ scopeText ++ "]:" ++ toString port.toNat

end ReliableSender
