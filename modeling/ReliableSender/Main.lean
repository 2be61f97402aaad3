/-
  ReliableSender.Main
  ───────────────────
  **THE PROGRAM: STANDARD INPUT TO A PEER OVER UDP.**

  Three threads share one sender behind a lock: the reader of the input,
  the worker and the listener.  Each of them takes the sender's own actions
  one at a time; what an action sends goes to the socket while the lock is
  held.
-/
import Std.Async.Timer
import Std.Async.UDP
import Std.Sync.Mutex
import ReliableSender.Transfer

namespace ReliableSender

open Std.Async

/-! ## §1. Addresses and files. -/

/-- The form of an address that sockets take. -/
def SocketAddress.toNet : SocketAddress → Std.Net.SocketAddress
  | .v4 ip port => .v4 ⟨⟨#v[ip.a, ip.b, ip.c, ip.d]⟩, port⟩
  | .v6 ip _ port => .v6 ⟨⟨ip.groups⟩, port⟩

/-- The fault of a file behind a failure to read it.  Some calls tell the number of a
fault with a minus. -/
def FileFault.ofFailure (failure : IO.Error) : FileFault :=
  let known (number : UInt32) : FileFault :=
    (ofNumber? (min number (0 - number)).toNat).getD (.other (toString failure))
  match failure with
  | .noFileOrDirectory _ number _ | .permissionDenied _ number _
  | .inappropriateType _ number _ | .invalidArgument _ number _ => known number
  | _ => .other (toString failure)

/-- The content of a file, or why there is none. -/
def readFile (path : String) : IO (Except FileFault Bytes) := do
  match ← (IO.FS.readBinFile path).toBaseIO with
  | .ok content => return .ok content.toList
  | .error failure => return .error (.ofFailure failure)

/-! ## §2. The shared sender. -/

/-- A transfer under way. -/
structure Host where
  socket : UDP.Socket
  sender : Std.Mutex TransferSender
  /-- When the transfer began, in nanoseconds. -/
  start : Nat

namespace Host

/-- The present moment. -/
def now (h : Host) : IO Moment := return ((← IO.monoNanosNow) - h.start) / 1000

/-- Hand datagrams to the socket; the answer is its first fault. -/
def post (h : Host) : List Bytes → IO (Option String)
  | [] => return none
  | datagram :: rest => do
    match ← ((h.socket.send ⟨datagram.toArray⟩).block).toBaseIO with
    | .ok _ => h.post rest
    | .error fault => return some (toString fault)

/-- Take an action of the sender, with all that it sends. -/
def act {α : Type} (h : Host) (f : TransferSender → α × TransferSender) : IO α :=
  h.sender.atomically do
    let s ← get
    -- The lock is held while the socket works: nobody sees an action half done.
    let (answer, datagrams, after) := Transfer.foresee f s
    match ← h.post datagrams with
    | none =>
      set after
      return answer
    | some report =>
      let (answer, after) := Transfer.concede report f s
      set after
      return answer

/-- Look at the sender. -/
def ask {α : Type} (h : Host) (f : TransferSender → α) : IO α := h.act fun s => (f s, s)

/-! ## §3. The threads. -/

/-- Run the worker until it ends. -/
partial def work (h : Host) : IO Unit := do
  let (ended, quiet) ← h.act fun s =>
    let s := s.advanceWorker
    ((s.worker.hasEnded, s.workerQuiet), s)
  if ended then return
  if quiet then IO.sleep 1
  h.work

/-- Wait for a datagram. -/
def hear (h : Host) : IO Arrival := do
  let wait : Async Arrival := do
    let alarm ← Selector.sleep (.ofNat Transfer.listeningTime)
    Selectable.one #[
      .case (h.socket.recvSelector (.ofNat Transfer.datagramRoom)) fun (octets, _) =>
        return .datagram octets.toList,
      .case alarm fun _ => return .silence]
  match ← wait.block.toBaseIO with
  | .ok arrival => return arrival
  | .error fault => return .fault (toString fault)

/-- Listen to the peer until the sender is stopped. -/
partial def listen (h : Host) : IO Unit := do
  let arrival ← h.hear
  if arrival matches .fault _ then IO.sleep (.ofNat Transfer.listeningTime)
  let heard ← h.now
  let _ ← h.act (Transfer.attend heard arrival)
  let looked ← h.now
  if ← h.act (Transfer.watch looked) then h.listen

/-- Write a message and wait until it is in the queue. -/
partial def write (h : Host) (message : Bytes) : IO (Except SenderError Nat) := do
  let moment ← h.now
  h.act fun s => ((), s.beginWrite moment message)
  wait
where
  wait : IO (Except SenderError Nat) := do
    let (result, blocked) ← h.act fun s =>
      let (result, s) := s.advanceWriter.takeWritten
      ((result, s.writerQuiet), s)
    match result with
    | some result => return result
    | none =>
      if blocked then IO.sleep 1
      wait

/-- Write all of the input; the answer is the number of octets. -/
partial def feed (h : Host) (input : IO.FS.Stream) (total : Nat) :
    IO (Except SenderError Nat) := do
  let chunk ← input.read (.ofNat Transfer.chunkSize)
  if chunk.isEmpty then return .ok total
  match ← h.write chunk.toList with
  | .ok _ => h.feed input (total + chunk.size)
  | .error e => return .error e

/-- Wait until nothing is outstanding or the worker is gone. -/
partial def drain (h : Host) : IO Unit := do
  if ← h.ask Transfer.isOver then return
  IO.sleep (.ofNat Transfer.waitingTime)
  h.drain

/-- Wait for the end of the worker, and learn what it died of. -/
partial def stop (h : Host) : IO (Except SenderError Unit) := do
  h.act fun s => ((), s.requestStop)
  wait
where
  wait : IO (Except SenderError Unit) := do
    let told ← h.act fun s =>
      match s.join? with
      | some (result, s) => (some result, s)
      | none => (none, s)
    match told with
    | some result => return result
    | none =>
      IO.sleep 1
      wait

end Host

/-! ## §4. The program. -/

/-- Send standard input to the peer. -/
def transfer (options : Options) (config : Config) : IO Exit := do
  let socket ← UDP.Socket.mk
  socket.bind options.bind.toNet
  socket.connect options.peer.toNet
  let sender ← Std.Mutex.new (Transfer.opening options config)
  let h : Host := { socket, sender, start := ← IO.monoNanosNow }
  let worker ← IO.asTask h.work Task.Priority.dedicated
  let listener ← IO.asTask h.listen Task.Priority.dedicated
  let written ← h.feed (← IO.getStdin) 0
  if written matches .ok _ then h.drain
  let result ← h.stop
  let _ ← IO.wait worker
  let _ ← IO.wait listener
  match written with
  | .error e => return .failure e.message none
  | .ok total =>
    let statistics ← h.ask fun s => s.engine.statistics
    let report : Transfer.Report := { statistics, total, result }
    IO.println report.summary
    return report.exit

/-- Do what was asked for, and tell how to leave. -/
def perform : StartUp → IO Exit
  | .leave exit => return exit
  | .transfer options config => do
    match ← (transfer options config).toBaseIO with
    | .ok exit => return exit
    | .error fault => return .failure (toString fault) none

end ReliableSender

open ReliableSender in
/-- The program. -/
def main (arguments : List String) : IO UInt32 := do
  let defaultPeer ← IO.getEnv "UDT_PEER"
  -- No other file than the configuration is ever asked for.
  let content ← match StartUp.options arguments defaultPeer with
    | .ok { configPath := some path, .. } => readFile path
    | _ => pure (.ok [])
  let exit ← perform (StartUp.ofArguments arguments defaultPeer fun _ => content)
  IO.eprint exit.report
  return exit.code
