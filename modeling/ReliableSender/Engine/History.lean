/-
  ReliableSender.Engine.History
  ─────────────────────────────
  **WHAT CAN HAPPEN TO AN ENGINE, IN ANY ORDER.**

  A history is a list of events.  The loop acts by itself, the peer and the
  application send signals, and packets are offered; the events of a
  history fall between the actions of an iteration as they like.
-/
import ReliableSender.Engine.Feedback
import ReliableSender.Engine.Iteration
import ReliableSender.Engine.Packetize

namespace ReliableSender

/-! ## §1. Signals. -/

/-- What reaches an engine from outside its loop. -/
inductive Signal (σ : Type) where
  | acknowledge (now : Moment) (k : Nat)
  | negativeAcknowledge (now : Moment) (lost : List Nat)
  | expire
  | receive (now : Moment) (p : ControlPacket)
  | keepAlive (now : Moment)
  | setFlowWindow (window : Nat)
  | setDestination (id : UInt32)
  /-- A packet is stamped for the application. -/
  | packetize (now : Moment) (payload : Bytes)
  /-- A sequence number is given away. -/
  | nextSequence
  | requestStop
  /-- The transport changes by itself. -/
  | modifySink (f : σ → σ)

namespace Engine

variable {σ τ : Type} [Sink σ] [SilenceTimer τ]

/-- What a signal leaves of an engine. -/
def handle (e : Engine σ τ) : Signal σ → Engine σ τ
  | .acknowledge now k => (e.acknowledge now k).2
  | .negativeAcknowledge now lost => (e.negativeAcknowledge now lost).2
  | .expire => e.expire
  | .receive now p => (e.receive now p).2
  | .keepAlive now => (e.sendKeepAlive now).2
  | .setFlowWindow window => e.setFlowWindow window
  | .setDestination id => e.setDestination id
  | .packetize now payload => (e.packetize now payload).2
  | .nextSequence => e.nextSequence.2
  | .requestStop => e.requestStop
  | .modifySink f => e.modifySink f

end Engine

/-! ## §2. Histories. -/

namespace Iteration

variable {σ τ : Type} [Sink σ] [SilenceTimer τ]

/-- An event of a history. -/
inductive Event (σ : Type) where
  /-- The loop's next action; a finished iteration gives way to a new one. -/
  | act
  /-- A packet is offered to the queue. -/
  | offer (p : DataPacket)
  /-- Nobody offers packets any more. -/
  | close
  | signal (s : Signal σ)

/-- The loop's next action. -/
def act (i : Iteration σ τ) : Iteration σ τ :=
  match i.stage with
  | .done _ => { i with stage := .start }
  | _ => i.advance

/-- What an event leaves. -/
def apply (i : Iteration σ τ) : Event σ → Iteration σ τ
  | .act => i.act
  | .offer p => { i with queue := (i.queue.offer p).2 }
  | .close => { i with queue := i.queue.dropProducer }
  | .signal s => { i with engine := i.engine.handle s }

/-- What a history leaves. -/
def replay (i : Iteration σ τ) (history : List (Event σ)) : Iteration σ τ :=
  history.foldl apply i

theorem replay_concat (i : Iteration σ τ) (history : List (Event σ)) (ev : Event σ) :
    i.replay (history ++ [ev]) = (i.replay history).apply ev := by
  unfold replay
  rw [List.foldl_append]
  rfl

/-- Where every history begins. -/
def fresh (config : Config) (sink : σ) (timer : τ) : Iteration σ τ where
  engine := .ofConfig config sink timer
  queue := { capacity := config.queueCapacity }

end Iteration

end ReliableSender
