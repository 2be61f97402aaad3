/-
  ReliableSender.Packet.Error
  ───────────────────────────
  **WHY A PACKET CANNOT BE READ OR WRITTEN.**

  Each cause carries the numbers it was found with; `message` is the one
  place that words them.
-/
import ReliableSender.Packet.Basic

namespace ReliableSender

/-- The causes for which octets are no packet, or a packet has no octets. -/
inductive CodecError where
  | truncated (needed available : Nat)
  | unsupportedControl (code : Nat)
  | sequenceOverflow (number : Nat)
  | messageNumberOverflow (number : Nat)
  /-- The last word of a loss report opens a range. -/
  | unterminatedRange (start : Nat)
  | lossRangeTooLarge (start stop : Nat)
  | tooManyLosses (entries : Nat)
  | payloadTooLarge (size : Nat)
  deriving DecidableEq, Repr, Inhabited

namespace CodecError

/-- A code as four or more hexadecimal digits. -/
def hexCode (n : Nat) : String :=
  let digits := Nat.toDigits 16 n
  "0x" ++ String.ofList (List.replicate (4 - digits.length) '0' ++ digits)

/-- The wording of a cause. -/
def message : CodecError → String
  | truncated needed available =>
    s!"buffer truncated: need {needed} bytes, have {available}"
  | unsupportedControl code => s!"unsupported control packet type {hexCode code}"
  | sequenceOverflow number => s!"sequence number {number} does not fit in 31 bits"
  | messageNumberOverflow number => s!"message number {number} does not fit in 29 bits"
  | unterminatedRange start => s!"loss range starting at {start} has no end"
  | lossRangeTooLarge start stop =>
    s!"loss range {start}..={stop} exceeds the {maxLossRange}-entry limit"
  | tooManyLosses entries =>
    s!"NAK expands to {entries} sequence numbers, limit is {maxLossEntries}"
  | payloadTooLarge size => s!"payload of {size} bytes exceeds the datagram limit"

end CodecError

end ReliableSender
