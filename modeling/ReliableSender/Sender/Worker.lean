/-
  ReliableSender.Sender.Worker
  ────────────────────────────
  **THE COURSE OF THE WORKER.**

      ready → working … → ready      — an iteration, unless a stop is asked for
            → leaving → closing → ended

  A worker that leaves the loop sets the stop flag and then gives up the
  queue.  One that crashes gives up the queue and sets no flag.
-/
import ReliableSender.Sender.Basic

namespace ReliableSender

namespace Worker

/-- Where the outcome of an iteration leads. -/
def after : Except Fault Progress → Worker
  | .ok .closed => leaving .finished
  | .ok _ => ready
  | .error (.transport cause) => leaving (.failed cause)
  | .error .crash => closing .crashed

end Worker

namespace Sender

variable {σ τ : Type} [Sink σ]

/-- The next action of the worker. -/
def advanceWorker (s : Sender σ τ) : Sender σ τ :=
  match s.worker with
  | .ready =>
    { s with worker := if s.engine.stopped then .leaving .finished else .working .start }
  | .working (.done outcome) => { s with worker := Worker.after outcome }
  | .working stage =>
    -- The iteration works on the shared engine and queue, as they are at this moment.
    let i := Iteration.advance { engine := s.engine, queue := s.queue, stage }
    { s with engine := i.engine, queue := i.queue, worker := .working i.stage }
  | .leaving exit => { s.requestStop with worker := .closing exit }
  | .closing exit => { s with queue := s.queue.dropConsumer, worker := .ended exit }
  | .ended _ => s

/-- Whether the worker has nothing to do until something happens. -/
def workerQuiet (s : Sender σ τ) : Bool :=
  match s.worker with
  | .ended _ => true
  | .ready =>
    !s.engine.stopped && s.engine.losses.isEmpty
      && (!s.engine.windowOpen || s.pending == 0)
  | _ => false

end Sender

end ReliableSender
