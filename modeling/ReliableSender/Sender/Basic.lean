/-
  ReliableSender.Sender.Basic
  ───────────────────────────
  **A RUNNING SENDER AND ITS HANDLE.**

  A sender is an engine, the queue of offered packets, the worker that runs
  the engine's loop, and the application that writes into the queue.  The
  worker and the writer each stand somewhere in their own course; what they
  do next is in `Sender.Worker` and `Sender.Writing`.

  The worker looks at the stop flag between two iterations.  However it
  ends, the queue is given up with it: what still waits is never sent, and
  stays pending.
-/
import ReliableSender.Engine.Iteration

namespace ReliableSender

/-! ## §1. Errors. -/

/-- What the handle of a sender reports. -/
inductive SenderError where
  /-- The sink did not take a packet. -/
  | transmission (cause : TransportError)
  /-- The worker takes no more packets. -/
  | stopped
  /-- The worker crashed. -/
  | crashed
  deriving DecidableEq, Repr

namespace SenderError

/-- The wording of an error. -/
def message : SenderError → String
  | transmission cause => s!"transmission failed: {cause.message}"
  | stopped => "sender stopped"
  | crashed => "sender worker panicked"

/-- The error that a fault of the sink is. -/
def ofFault : Fault → SenderError
  | .transport cause => transmission cause
  | .crash => crashed

end SenderError

/-! ## §2. The worker. -/

/-- How a worker ended. -/
inductive WorkerExit where
  /-- It was asked to, or nobody can offer any more. -/
  | finished
  /-- New data could not be transmitted. -/
  | failed (cause : TransportError)
  | crashed
  deriving DecidableEq, Repr

/-- What the one who waits for the worker is told. -/
def WorkerExit.result : WorkerExit → Except SenderError Unit
  | finished => .ok ()
  | failed cause => .error (.transmission cause)
  | crashed => .error .crashed

/-- Where a worker is in its course. -/
inductive Worker where
  /-- Between two iterations. -/
  | ready
  | working (stage : Stage)
  /-- Out of the loop; the stop flag is not set yet. -/
  | leaving (exit : WorkerExit)
  /-- About to give up the queue. -/
  | closing (exit : WorkerExit)
  | ended (exit : WorkerExit)

namespace Worker

/-- Whether the worker has ended. -/
def hasEnded : Worker → Bool
  | ended _ => true
  | _ => false

/-- Whether the worker waits for a packet. -/
def awaitsPacket : Worker → Bool
  | working (.windowRead _) => true
  | _ => false

/-- Whether the worker has a packet that it has not finished with. -/
def holdsPacket : Worker → Bool
  | working (.holding _ _) | working (.settling _ _) => true
  | _ => false

end Worker

/-! ## §3. The writer. -/

/-- Where a write is in its course. -/
inductive Writer where
  /-- No write is under way. -/
  | idle
  /-- These packets, of so many, are still to be offered. -/
  | offering (total : Nat) (rest : List DataPacket)
  /-- A packet is offered and waits for room; others follow it. -/
  | waiting (total : Nat) (p : DataPacket) (rest : List DataPacket)
  /-- The write is over: so many packets are in the queue. -/
  | returned (result : Except SenderError Nat)

namespace Writer

/-- Whether a write has begun and not returned. -/
def isUnderWay : Writer → Bool
  | offering _ _ | waiting _ _ _ => true
  | idle | returned _ => false

/-- How many packets a write still has to bring into the queue. -/
def remaining : Writer → Nat
  | idle | returned _ => 0
  | offering _ rest => rest.length
  | waiting _ _ rest => rest.length + 1

end Writer

/-! ## §4. The sender. -/

/-- A running sender. -/
structure Sender (σ τ : Type) where
  engine : Engine σ τ
  queue : IngressQueue
  worker : Worker := .ready
  writer : Writer := .idle
  /-- Packets that other callers are offering at this moment: counted, and not in the
  queue yet. -/
  offers : List DataPacket := []
  /-- Whether somebody has been told how the worker ended. -/
  joined : Bool := false

namespace Sender

variable {σ τ : Type}

/-- Set a worker to run an engine. -/
def spawn (engine : Engine σ τ) : Sender σ τ where
  engine
  queue := { capacity := engine.config.queueCapacity }

/-- Change the engine; feedback and settings come this way. -/
def modifyEngine (s : Sender σ τ) (f : Engine σ τ → Engine σ τ) : Sender σ τ :=
  { s with engine := f s.engine }

/-! ## §5. Questions. -/

/-- Packets offered that the worker has not finished with. -/
def pending (s : Sender σ τ) : UInt64 := s.queue.pending

/-- Whether something is queued, unacknowledged or due to be sent again, where each
of the three is looked at in a moment of its own. -/
def outstandingAcross (s₁ s₂ s₃ : Sender σ τ) : Bool :=
  s₁.pending != 0 || s₂.engine.unacknowledged != 0 || s₃.engine.hasLosses

/-- Whether something is queued, unacknowledged or due to be sent again. -/
def hasOutstanding (s : Sender σ τ) : Bool := outstandingAcross s s s

/-- Whether there is a worker that has not ended. -/
def isRunning (s : Sender σ τ) : Bool := !s.joined && !s.worker.hasEnded

/-! ## §6. Stopping. -/

/-- Ask the worker to end. -/
def requestStop (s : Sender σ τ) : Sender σ τ := s.modifyEngine Engine.requestStop

/-- Learn how the worker ended; nothing as long as it runs.  Only the first who
asks is told of a failure. -/
def join? (s : Sender σ τ) : Option (Except SenderError Unit × Sender σ τ) :=
  if s.joined then some (.ok (), s)
  else match s.worker with
    | .ended exit => some (exit.result, { s with joined := true })
    | _ => none

end Sender

end ReliableSender
