/-
  ReliableSender.Engine.Iteration
  ───────────────────────────────
  **ONE ITERATION OF THE LOOP, ACTION BY ACTION.**

  Feedback and offers come while an iteration is under way.  They can fall
  between any two of its actions but not into one: each action is a single
  look at, or a single change of, the loss list, the send buffer, the
  session or the queue.

      start → lossSeen s → lossTaken s → resending p → done
      start → lossesClear → inFlightRead n → windowRead w → holding w p
                                           → settling w outcome → done

  Run without interruption, the actions make one `step`.
-/
import ReliableSender.Engine.Step

namespace ReliableSender

/-- How far an iteration has come, and what it remembers. -/
inductive Stage where
  | start
  /-- The lowest loss is known. -/
  | lossSeen (s : Nat)
  /-- The loss is out of the list, its packet not looked up yet. -/
  | lossTaken (s : Nat)
  /-- The packet of the loss is at hand, not sent yet. -/
  | resending (p : DataPacket)
  /-- No loss was waiting. -/
  | lossesClear
  /-- So many packets were in flight. -/
  | inFlightRead (inFlight : Nat)
  /-- The window was open when it was read. -/
  | windowRead (window : Nat)
  /-- A packet is out of the queue, not sent yet. -/
  | holding (window : Nat) (p : DataPacket)
  /-- The packet was dealt with; the queue has not been told. -/
  | settling (window : Nat) (outcome : Except Fault Progress)
  | done (outcome : Except Fault Progress)

/-- An iteration under way, with all that it works on. -/
structure Iteration (σ τ : Type) where
  engine : Engine σ τ
  queue : IngressQueue
  stage : Stage := .start

namespace Iteration

variable {σ τ : Type} [Sink σ]

/-- The next action. -/
def advance (i : Iteration σ τ) : Iteration σ τ :=
  let e := i.engine
  let q := i.queue
  match i.stage with
  | .start =>
    match e.losses.first? with
    | some s => { i with stage := .lossSeen s }
    | none => { i with stage := .lossesClear }
  | .lossSeen s => { i with engine := e.takeLoss s, stage := .lossTaken s }
  | .lossTaken s =>
    match e.buffer.get? s with
    | none => { i with engine := e.skipLoss, stage := .done (.ok (.skipped s)) }
    | some p => { i with stage := .resending p }
  | .resending p =>
    let (outcome, engine) := e.resend p
    { i with engine, stage := .done outcome }
  | .lossesClear => { i with stage := .inFlightRead e.buffer.unacknowledged }
  | .inFlightRead inFlight =>
    -- The count is the older of the two readings; feedback since then can only have
    -- lowered it, while the window may have moved either way.
    if inFlight < e.session.flowWindow then
      { i with stage := .windowRead e.session.flowWindow }
    else { i with stage := .done (.ok .windowFull) }
  | .windowRead window =>
    match q.poll with
    | (.nothing, queue) => { i with queue, stage := .done (.ok .idle) }
    | (.closed, queue) => { i with queue, stage := .done (.ok .closed) }
    | (.packet p, queue) => { i with queue, stage := .holding window p }
  | .holding window p =>
    match e.transmit p with
    | (.error .crash, engine) => { i with engine, stage := .done (.error .crash) }
    | (outcome, engine) => { i with engine, stage := .settling window outcome }
  | .settling _ outcome => { i with queue := q.handled, stage := .done outcome }
  | .done _ => i

/-- Most actions of one iteration. -/
def length : Nat := 6

/-- Several actions with nothing in between. -/
def advanceBy (i : Iteration σ τ) : Nat → Iteration σ τ
  | 0 => i
  | n + 1 => i.advance.advanceBy n

/-- Uninterrupted, the actions of an iteration make one step. -/
theorem advanceBy_length (e : Engine σ τ) (q : IngressQueue) :
    advanceBy { engine := e, queue := q } length =
      { engine := (e.step q).2.1, queue := (e.step q).2.2, stage := .done (e.step q).1 } := by
  simp only [length, advanceBy, Engine.step]
  -- The branches are told apart by the same questions, in the same order, as in `step`.
  cases hl : e.losses.first? with
  | some s =>
    simp only [advance, hl, Engine.retransmit]
    cases (e.takeLoss s).buffer.get? s <;> rfl
  | none =>
    simp only [advance, hl, Engine.windowOpen]
    by_cases hw : e.buffer.unacknowledged < e.session.flowWindow
    · simp only [hw, if_true, decide_true, Engine.transmitNext]
      rcases hp : q.poll with ⟨polled, queue⟩
      cases polled with
      | nothing => rfl
      | closed => rfl
      | packet p =>
        simp only
        rcases ht : e.transmit p with ⟨outcome, engine⟩
        rcases outcome with (cause | _) | progress <;> rfl
    · simp [hw]

end Iteration

end ReliableSender
