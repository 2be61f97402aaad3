/-
  ReliableSender.Statistics
  ─────────────────────────
  **COUNTERS OF WHAT THE SENDER DID.**

  Nine 64-bit counters that wrap.  They are reported as one line of JSON, in
  the order of their declaration.
-/
namespace ReliableSender

/-- What was sent and what feedback came. -/
structure Statistics where
  /-- New data packets; retransmissions are counted apart. -/
  sent : UInt64 := 0
  retransmitted : UInt64 := 0
  /-- Losses whose packet had been acknowledged by the time it was due. -/
  skipped : UInt64 := 0
  naks : UInt64 := 0
  acks : UInt64 := 0
  ack2s : UInt64 := 0
  keepAlives : UInt64 := 0
  /-- Silences after which everything in flight was presumed lost. -/
  expirations : UInt64 := 0
  /-- Payload octets of new data packets. -/
  octets : UInt64 := 0
  deriving DecidableEq, Repr

namespace Statistics

/-! ## §1. Counting. -/

def countSent (s : Statistics) (payload : Nat) : Statistics :=
  { s with sent := s.sent + 1, octets := s.octets + UInt64.ofNat payload }

def countRetransmitted (s : Statistics) : Statistics :=
  { s with retransmitted := s.retransmitted + 1 }

def countSkipped (s : Statistics) : Statistics := { s with skipped := s.skipped + 1 }

def countNak (s : Statistics) : Statistics := { s with naks := s.naks + 1 }

def countAck (s : Statistics) : Statistics := { s with acks := s.acks + 1 }

def countAck2 (s : Statistics) : Statistics := { s with ack2s := s.ack2s + 1 }

def countKeepAlive (s : Statistics) : Statistics := { s with keepAlives := s.keepAlives + 1 }

def countExpiration (s : Statistics) : Statistics :=
  { s with expirations := s.expirations + 1 }

/-! ## §2. Reporting. -/

/-- Retransmissions per new packet, 0 before the first packet. -/
def retransmitRatio (s : Statistics) : Float :=
  if s.sent = 0 then 0 else s.retransmitted.toFloat / s.sent.toFloat

/-- The counters with the names they are reported under. -/
def fields (s : Statistics) : List (String × UInt64) :=
  [("sent_data_packets", s.sent),
   ("retransmitted_data_packets", s.retransmitted),
   ("retransmits_skipped", s.skipped),
   ("naks_received", s.naks),
   ("acks_received", s.acks),
   ("ack2_sent", s.ack2s),
   ("keep_alives_sent", s.keepAlives),
   ("exp_events", s.expirations),
   ("bytes_sent", s.octets)]

/-- The counters as one JSON object. -/
def toJson (s : Statistics) : String :=
  let members := s.fields.map fun (name, value) => "\"" ++ name ++ "\":" ++ toString value
  "\x7b" ++ String.intercalate "," members ++ "\x7d"

end Statistics

end ReliableSender
