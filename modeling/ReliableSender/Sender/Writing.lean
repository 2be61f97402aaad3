/-
  ReliableSender.Sender.Writing
  ─────────────────────────────
  **BRINGING DATA INTO A SENDER.**

  The application offers packets of its own, with or without waiting for
  room, or writes a message and waits until all of its packets are in the
  queue.  A sender that was asked to stop refuses both at once; one whose
  worker is gone refuses when the packet meets the queue, which a message of
  no packets never does.

  Several callers offer at the same time.  An offer is announced first and
  meets the queue later, and in between anything may happen.

  A queue without any room passes a packet from hand to hand, while the
  worker waits for one.
-/
import ReliableSender.Engine.Packetize
import ReliableSender.Sender.Worker

namespace ReliableSender

namespace Sender

variable {σ τ : Type}

/-! ## §1. Offering. -/

/-- Whether a packet could pass from hand to hand. -/
def handsOver (s : Sender σ τ) : Bool :=
  s.queue.capacity == 0 && s.queue.waiting.isEmpty && s.worker.awaitsPacket

/-- What a packet meets at the queue at this moment. -/
def admission (s : Sender σ τ) : Offer :=
  if s.handsOver then .accepted else s.queue.admission

/-- Announce a packet: it is counted from now on. -/
def announceOffer (s : Sender σ τ) (p : DataPacket) : Sender σ τ :=
  { s with queue := s.queue.announce, offers := s.offers ++ [p] }

/-- Carry out the verdict on one of the announced packets. -/
def concludeOffer (s : Sender σ τ) (n : Nat) (verdict : Offer) : Sender σ τ :=
  match s.offers[n]? with
  | some p =>
    { s with queue := s.queue.conclude p verdict, offers := s.offers.eraseIdx n }
  | none => s

theorem concludeOffer_of_some {s : Sender σ τ} {n : Nat} {p : DataPacket}
    (h : s.offers[n]? = some p) (verdict : Offer) :
    s.concludeOffer n verdict
      = { s with queue := s.queue.conclude p verdict, offers := s.offers.eraseIdx n } := by
  unfold concludeOffer
  rw [h]

theorem concludeOffer_of_none {s : Sender σ τ} {n : Nat} (h : s.offers[n]? = none)
    (verdict : Offer) : s.concludeOffer n verdict = s := by
  unfold concludeOffer
  rw [h]

/-- Offer a packet without waiting for room. -/
def offer (s : Sender σ τ) (p : DataPacket) : Offer × Sender σ τ :=
  if s.engine.stopped then (.closed, s)
  else (s.admission, (s.announceOffer p).concludeOffer s.offers.length s.admission)

/-! ## §2. Waiting for room. -/

section

variable [Sink σ]

/-- The worker acts, at most so many times, until a packet would not meet a full
queue. -/
def waitForRoom : Nat → Sender σ τ → Sender σ τ
  | 0, s => s
  | n + 1, s => if s.admission == .full then waitForRoom n s.advanceWorker else s

/-- Offer a packet and wait for room as long as the worker takes for so many of its
actions. -/
def offerWithin (patience : Nat) (s : Sender σ τ) (p : DataPacket) : Offer × Sender σ τ :=
  if s.engine.stopped then (.closed, s)
  else
    let later := waitForRoom patience (s.announceOffer p)
    (later.admission, later.concludeOffer s.offers.length later.admission)

/-- Without patience there is no waiting. -/
@[simp] theorem offerWithin_zero (s : Sender σ τ) (p : DataPacket) :
    s.offerWithin 0 p = s.offer p := by
  rfl

end

/-! ## §3. Writing. -/

/-- Cut a message into packets, which are offered one after the other. -/
def startWrite (s : Sender σ τ) (now : Moment) (message : Bytes) : Sender σ τ :=
  let (packets, engine) := s.engine.fragment now message
  { s with engine, writer := .offering packets.length packets }

/-- A write that was let in takes its turn, once no other is under way: the packets of a
message stay together. -/
def enterWrite (s : Sender σ τ) (now : Moment) (message : Bytes) : Sender σ τ :=
  if s.writer.isUnderWay then s else s.startWrite now message

/-- Begin to write a message, unless a write is under way.  Only here is the stop flag
looked at. -/
def beginWrite (s : Sender σ τ) (now : Moment) (message : Bytes) : Sender σ τ :=
  if s.writer.isUnderWay then s
  else if s.engine.stopped then { s with writer := .returned (.error .stopped) }
  else s.startWrite now message

/-- The next action of the write that is under way. -/
def advanceWriter (s : Sender σ τ) : Sender σ τ :=
  match s.writer with
  | .idle | .returned _ => s
  | .offering total [] => { s with writer := .returned (.ok total) }
  | .offering total (p :: rest) =>
    { s with queue := s.queue.announce, writer := .waiting total p rest }
  | .waiting total p rest =>
    match s.admission with
    -- The packet stays announced for as long as it waits.
    | .full => s
    | .accepted =>
      { s with queue := s.queue.conclude p .accepted, writer := .offering total rest }
    | .closed =>
      { s with
        queue := s.queue.conclude p .closed
        writer := .returned (.error .stopped) }

/-- Whether no write can go on until something happens. -/
def writerQuiet (s : Sender σ τ) : Bool :=
  match s.writer with
  | .idle | .returned _ => true
  | .offering _ _ => false
  | .waiting _ _ _ => s.admission == .full

/-- Take the result of a write that is over. -/
def takeWritten (s : Sender σ τ) : Option (Except SenderError Nat) × Sender σ τ :=
  match s.writer with
  | .returned result => (some result, { s with writer := .idle })
  | _ => (none, s)

/-! ## §4. Coming to rest. -/

variable [Sink σ]

/-- The worker and the writer act in turn, at most so many times, until neither can
go on. -/
def settleWithin : Nat → Sender σ τ → Sender σ τ
  | 0, s => s
  | n + 1, s =>
    if s.workerQuiet && s.writerQuiet then s else settleWithin n s.advanceWriter.advanceWorker

/-- More turns than the worker and the writer have work for: an iteration for every
loss and every packet on its way, and a few more to end. -/
def turns (s : Sender σ τ) : Nat :=
  (Iteration.length + 4) * (s.engine.losses.size + s.queue.queued + s.writer.remaining + 3)

/-- Let the worker and the writer go on for as long as they can. -/
def settle (s : Sender σ τ) : Sender σ τ := settleWithin s.turns s

end Sender

end ReliableSender
