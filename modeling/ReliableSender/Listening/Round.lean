/-
  ReliableSender.Listening.Round
  ──────────────────────────────
  **ONE ROUND OF LISTENING, ACTION BY ACTION.**

  While the listener handles what arrived and looks at the clock, the
  worker and the application go on.  What they do falls between any two
  actions of a round as it likes, but not into one:

      waiting → heard p → adopting p → handling p → counting    — a control packet
      waiting → counting                                        — anything else
      counting → timing → expiring → rewinding → waiting

  A round is over early if nothing is in flight or the clock has not run
  out.  Run without interruption, the actions of a round are `attend` and
  then `watch`.  A listener that was told to end is one that hears nothing
  more.
-/
import ReliableSender.Listening
import ReliableSender.Sender.History

namespace ReliableSender

/-! ## §1. The listener. -/

/-- How far a round has come. -/
inductive Round where
  | waiting
  /-- A control packet arrived; the clock has not noticed. -/
  | heard (p : ControlPacket)
  /-- The clock is reset; the window is not adopted yet. -/
  | adopting (p : ControlPacket)
  | handling (p : ControlPacket)
  /-- What arrived is dealt with. -/
  | counting
  /-- Packets were in flight. -/
  | timing
  /-- And the clock had run out. -/
  | expiring
  /-- Everything in flight counts as lost; the clock still shows the silence. -/
  | rewinding
  deriving DecidableEq, Repr

/-- A listener, with the sender that it listens for. -/
structure Listener (σ : Type) where
  sender : Sender σ SilenceClock
  round : Round := .waiting

namespace Listener

variable {σ : Type} [Sink σ]

/-- Take what arrived.  A listener in the middle of a round takes nothing. -/
def hear (l : Listener σ) (a : Arrival) : Listener σ :=
  match l.round with
  | .waiting => { l with round := a.control?.elim .counting .heard }
  | _ => l

/-- The next action of a round. -/
def advance (l : Listener σ) (now : Moment) : Listener σ :=
  match l.round with
  | .waiting => l
  | .heard p =>
    { l with sender := l.sender.modifyEngine (·.resetTimer now), round := .adopting p }
  | .adopting p =>
    { l with sender := l.sender.modifyEngine (·.adoptWindow p), round := .handling p }
  | .handling p =>
    { l with sender := l.sender.modifyEngine fun e => (e.receive now p).2, round := .counting }
  | .counting =>
    -- Nobody asks the clock as long as nothing is in flight.
    { l with round := if l.sender.engine.unacknowledged = 0 then .waiting else .timing }
  | .timing =>
    { l with round := if l.sender.engine.timer.expired now then .expiring else .waiting }
  | .expiring => { l with sender := l.sender.modifyEngine (·.expire), round := .rewinding }
  | .rewinding =>
    { l with sender := l.sender.modifyEngine (·.resetTimer now), round := .waiting }

/-! ## §2. Histories. -/

/-- An event of a history. -/
inductive Event (σ : Type) where
  /-- A wait for a datagram is over. -/
  | hear (a : Arrival)
  /-- The listener's next action. -/
  | act (now : Moment)
  /-- Something else happens to the sender. -/
  | other (ev : Sender.Event σ)

/-- What an event leaves. -/
def apply (l : Listener σ) : Event σ → Listener σ
  | .hear a => l.hear a
  | .act now => l.advance now
  | .other ev => { l with sender := l.sender.apply ev }

/-- What a history leaves. -/
def replay (l : Listener σ) (history : List (Event σ)) : Listener σ := history.foldl apply l

theorem replay_append (l : Listener σ) (history later : List (Event σ)) :
    l.replay (history ++ later) = (l.replay history).replay later := by
  unfold replay
  exact List.foldl_append

theorem replay_concat (l : Listener σ) (history : List (Event σ)) (ev : Event σ) :
    l.replay (history ++ [ev]) = (l.replay history).apply ev := by
  rw [replay_append]
  rfl

/-- Where every history begins: the clock runs from now on. -/
def fresh (config : Config) (sink : σ) (interval : Nat) : Listener σ where
  sender := .fresh config sink { interval }

/-! ## §3. A round is a history. -/

/-- Handling what arrived is some actions in a row. -/
theorem attend_eq_replay {l : Listener σ} (hl : l.round = .waiting) (now : Moment)
    (a : Arrival) :
    ∃ n ≤ 3, l.replay (.hear a :: List.replicate n (.act now))
      = { sender := l.sender.modifyEngine fun e => (e.attend now a).2, round := .counting } := by
  obtain ⟨sender, round⟩ := l
  obtain rfl : round = .waiting := hl
  show ∃ n ≤ 3, ({ sender, round := a.control?.elim .counting .heard } : Listener σ).replay
    (List.replicate n (.act now)) = _
  unfold Engine.attend
  cases a.control? with
  | none => exact ⟨0, Nat.zero_le 3, rfl⟩
  | some p => exact ⟨3, Nat.le_refl 3, rfl⟩

/-- Looking at the clock is four actions in a row, fewer if the round is over before. -/
theorem watch_eq_replay (s : Sender σ SilenceClock) (now : Moment) :
    ({ sender := s, round := .counting } : Listener σ).replay (List.replicate 4 (.act now))
      = { sender := s.modifyEngine (·.watch now), round := .waiting } := by
  show ((({ sender := s, round := .counting } : Listener σ).advance now).replay
    (List.replicate 3 (.act now))) = _
  unfold Engine.watch Engine.isOverdue
  by_cases hnone : s.engine.unacknowledged = 0
  · simp [replay, apply, advance, Sender.modifyEngine, hnone]
  · cases hexpired : s.engine.timer.expired now <;>
      simp [replay, apply, advance, Sender.modifyEngine, hnone, hexpired, List.replicate_succ]

/-- **A round is a history.**  What arrived is handled, and then the clock is looked at, at a
moment of its own. -/
theorem round_eq_replay {l : Listener σ} (hl : l.round = .waiting) (now later : Moment)
    (a : Arrival) :
    ∃ n ≤ 3, l.replay (.hear a :: List.replicate n (.act now) ++ List.replicate 4 (.act later))
      = { sender := l.sender.modifyEngine fun e => (e.attend now a).2.watch later,
          round := .waiting } := by
  obtain ⟨n, hn, hattend⟩ := attend_eq_replay hl now a
  refine ⟨n, hn, ?_⟩
  rw [replay_append, hattend, watch_eq_replay]
  rfl

end Listener

end ReliableSender
