/-
  ReliableSender.Transfer
  ───────────────────────
  **SENDING ALL OF AN INPUT TO ONE PEER.**

  The input is read in chunks, and each chunk is one message.  When it is
  drained the transfer waits until nothing is outstanding or the worker is
  gone, and then stops the worker.  What the worker died of decides how the
  program leaves.

  Every action sends at most one datagram, and the socket's word on it is
  part of the action.  So an action is first taken as if the datagram were
  out; should the socket refuse it, the action is taken again from the same
  state, with the refusal known.
-/
import ReliableSender.CommandLine
import ReliableSender.Listening
import ReliableSender.Sender.Writing
import ReliableSender.Transport.Datagram

namespace ReliableSender

/-- The sender of a transfer. -/
abbrev TransferSender := Sender DatagramSink SilenceClock

namespace Transfer

/-! ## §1. Measures. -/

/-- Most octets that are read at once. -/
def chunkSize : Nat := 65536

/-- Most octets of a datagram that are looked at. -/
def datagramRoom : Nat := 65536

/-- How long one wait for a datagram may take, in milliseconds. -/
def listeningTime : Nat := 100

/-- How often a drained transfer looks whether it is over, in milliseconds. -/
def waitingTime : Nat := 10

/-! ## §2. Actions on a socket. -/

variable {α : Type}

/-- Take an action as if its datagrams were out, and tell them. -/
def foresee (f : TransferSender → α × TransferSender) (s : TransferSender) :
    α × List Bytes × TransferSender :=
  let (answer, s) := f s
  (answer, s.engine.sink.drain.1, s.modifyEngine fun e => e.modifySink fun d => d.drain.2)

/-- Take an action whose datagram the socket has refused. -/
def concede (report : String) (f : TransferSender → α × TransferSender) (s : TransferSender) :
    α × TransferSender :=
  let known (fault : Option String) (s : TransferSender) : TransferSender :=
    s.modifyEngine fun e => e.modifySink fun d => { d with fault }
  let (answer, s) := f (known (some report) s)
  (answer, known none s)

/-! ## §3. The course of a transfer. -/

/-- A sender for a transfer that begins now. -/
def opening (options : Options) (config : Config) : TransferSender :=
  .spawn (.ofConfig config {} { interval := options.silence })

/-- What waiting for a datagram gave, handled by the engine. -/
def attend (now : Moment) (a : Arrival) (s : TransferSender) :
    Except Fault Unit × TransferSender :=
  let (result, engine) := s.engine.attend now a
  (result, { s with engine })

/-- Look at the silence clock; the answer tells whether to go on listening. -/
def watch (now : Moment) (s : TransferSender) : Bool × TransferSender :=
  (!s.engine.stopped, s.modifyEngine fun e => e.watch now)

/-- Whether waiting for acknowledgments is over. -/
def isOver (s : TransferSender) : Bool := !s.isRunning || !s.hasOutstanding

/-- What a transfer came to. -/
structure Report where
  statistics : Statistics
  /-- Octets read from the input and written to the sender. -/
  total : Nat
  result : Except SenderError Unit

namespace Report

/-- The summary of a transfer. -/
def summary (r : Report) : String :=
  s!"udt-send stopped stats={r.statistics.toJson} total_bytes={r.total}"

/-- How the program leaves after a transfer. -/
def exit (r : Report) : Exit :=
  match r.result with
  | .ok _ => {}
  | .error e => .failure e.message none

end Report

end Transfer

end ReliableSender
