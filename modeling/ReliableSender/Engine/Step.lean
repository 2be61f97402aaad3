/-
  ReliableSender.Engine.Step
  ──────────────────────────
  **ONE ITERATION OF THE SENDER LOOP.**

      a loss waits         — take the lowest and send its packet again, if it
                             is still unacknowledged
      the window is full   — nothing
      otherwise            — transmit what waits longest in the ingress queue

  Retransmission comes before new data.  A retransmission that the sink
  refuses is forgotten, since the peer will report the loss again; new data
  that the sink refuses ends the loop.  New data is counted as pending until
  it is buffered, which is why the queue is told last.
-/
import ReliableSender.Engine.Basic
import ReliableSender.IngressQueue

namespace ReliableSender

namespace Engine

variable {σ τ : Type} [Sink σ]

/-! ## §1. Retransmitting. -/

/-- Take a number out of the loss list. -/
def takeLoss (e : Engine σ τ) (s : Nat) : Engine σ τ :=
  { e with losses := (e.losses.remove s).2 }

/-- Count a loss whose packet nobody needs any more. -/
def skipLoss (e : Engine σ τ) : Engine σ τ :=
  { e with statistics := e.statistics.countSkipped }

/-- Send a buffered packet again, as it was sent first. -/
def resend (e : Engine σ τ) (p : DataPacket) : Except Fault Progress × Engine σ τ :=
  match Sink.attempt (.data p) e.sink with
  | (.ok _, sink) =>
    (.ok (.retransmitted p.sequence),
     { e with sink, statistics := e.statistics.countRetransmitted })
  | (.error (.transport _), sink) => (.ok (.retransmitFailed p.sequence), { e with sink })
  | (.error .crash, sink) => (.error .crash, { e with sink })

/-- Serve a loss that was taken out of the list. -/
def retransmit (e : Engine σ τ) (s : Nat) : Except Fault Progress × Engine σ τ :=
  match e.buffer.get? s with
  | none => (.ok (.skipped s), e.skipLoss)
  | some p => e.resend p

/-! ## §2. Transmitting new data. -/

/-- Whether another packet may be in flight. -/
def windowOpen (e : Engine σ τ) : Bool := e.buffer.unacknowledged < e.session.flowWindow

/-- Count a new packet that is out and buffered. -/
def recordSent (e : Engine σ τ) (p : DataPacket) : Engine σ τ :=
  { e with
    statistics := e.statistics.countSent p.payload.length
    sentBound := max e.sentBound (p.sequence + 1) }

/-- Send a new packet and buffer it, as one action that no acknowledgment can
divide.  A packet whose number is in flight already is dropped. -/
def transmit (e : Engine σ τ) (p : DataPacket) : Except Fault Progress × Engine σ τ :=
  match e.buffer.insertWith p (fun p sink => Sink.attempt (.data p) sink) e.sink with
  | (.ok true, buffer, sink) =>
    (.ok (.sent p.sequence), { e with buffer, sink }.recordSent p)
  | (.ok false, buffer, sink) => (.ok .idle, { e with buffer, sink })
  | (.error fault, buffer, sink) => (.error fault, { e with buffer, sink })

/-! ## §3. The iteration. -/

/-- Transmit what waits longest in the queue.  If the sink crashes, nobody is left
to tell the queue that its packet was dealt with. -/
def transmitNext (e : Engine σ τ) (q : IngressQueue) :
    Except Fault Progress × Engine σ τ × IngressQueue :=
  match q.poll with
  | (.nothing, q) => (.ok .idle, e, q)
  | (.closed, q) => (.ok .closed, e, q)
  | (.packet p, q) =>
    match e.transmit p with
    -- The crash takes the loop with it: the packet stays pending for good.
    | (.error .crash, e) => (.error .crash, e, q)
    | (outcome, e) => (outcome, e, q.handled)

/-- One iteration of the loop. -/
def step (e : Engine σ τ) (q : IngressQueue) :
    Except Fault Progress × Engine σ τ × IngressQueue :=
  match e.losses.first? with
  | some s =>
    let (outcome, e) := (e.takeLoss s).retransmit s
    (outcome, e, q)
  | none => if e.windowOpen then e.transmitNext q else (.ok .windowFull, e, q)

end Engine

end ReliableSender
