/-
  ReliableSender.Sender.History
  ─────────────────────────────
  **WHAT CAN HAPPEN TO A RUNNING SENDER, IN ANY ORDER.**

  The worker, a write and every offer each take their next action when the
  history says so; everything else is a call of the application or a signal
  to the engine.
-/
import ReliableSender.Engine.History
import ReliableSender.Sender.Writing

namespace ReliableSender

namespace Sender

variable {σ τ : Type} [Sink σ] [SilenceTimer τ]

/-- An event of a history. -/
inductive Event (σ : Type) where
  /-- The worker's next action. -/
  | work
  /-- The next action of the write under way. -/
  | writeOn
  /-- A write begins. -/
  | write (now : Moment) (message : Bytes)
  /-- A write that found no stop flag, and waited for others, takes its turn. -/
  | enter (now : Moment) (message : Bytes)
  /-- An offer that found no stop flag announces its packet. -/
  | announce (p : DataPacket)
  /-- One of the announced packets meets the queue; it waits if there is no room. -/
  | attempt (n : Nat)
  /-- One of the announced packets is taken back because there is no room. -/
  | abandon (n : Nat)
  | signal (s : Signal σ)
  /-- Somebody asks how the worker ended. -/
  | join

/-- What an event leaves. -/
def apply (s : Sender σ τ) : Event σ → Sender σ τ
  | .work => s.advanceWorker
  | .writeOn => s.advanceWriter
  | .write now message => s.beginWrite now message
  | .enter now message => s.enterWrite now message
  | .announce p => s.announceOffer p
  | .attempt n => if s.admission = .full then s else s.concludeOffer n s.admission
  | .abandon n => s.concludeOffer n .full
  | .signal x => s.modifyEngine fun e => e.handle x
  | .join => s.join?.elim s Prod.snd

/-- What a history leaves. -/
def replay (s : Sender σ τ) (history : List (Event σ)) : Sender σ τ :=
  history.foldl apply s

theorem replay_append (s : Sender σ τ) (history later : List (Event σ)) :
    s.replay (history ++ later) = (s.replay history).replay later := by
  unfold replay
  exact List.foldl_append

/-- Where every history begins. -/
def fresh (config : Config) (sink : σ) (timer : τ) : Sender σ τ :=
  spawn (.ofConfig config sink timer)

/-! ## §2. An offer is a history. -/

/-- Waiting for room is some of the worker's actions in a row. -/
theorem waitForRoom_eq_replay (patience : Nat) (s : Sender σ τ) :
    ∃ n ≤ patience, waitForRoom patience s = s.replay (List.replicate n .work) := by
  induction patience generalizing s with
  | zero => exact ⟨0, Nat.le_refl 0, rfl⟩
  | succ patience ih =>
    unfold waitForRoom
    by_cases hfull : (s.admission == .full) = true
    · rw [if_pos hfull]
      obtain ⟨n, hn, hs⟩ := ih s.advanceWorker
      exact ⟨n + 1, Nat.succ_le_succ hn, hs⟩
    · rw [if_neg hfull]
      exact ⟨0, Nat.zero_le _, rfl⟩

omit [SilenceTimer τ] in
/-- The worker leaves the announced packets alone. -/
theorem offers_advanceWorker (s : Sender σ τ) : s.advanceWorker.offers = s.offers := by
  unfold advanceWorker
  split <;> rfl

omit [SilenceTimer τ] in
theorem offers_waitForRoom (patience : Nat) (s : Sender σ τ) :
    (waitForRoom patience s).offers = s.offers := by
  induction patience generalizing s with
  | zero => rfl
  | succ patience ih =>
    unfold waitForRoom
    split
    · rw [ih, offers_advanceWorker]
    · rfl

/-- **An offer is a history.**  It is announced, the worker acts for as long as it waits,
and then it meets the queue or is taken back. -/
theorem offerWithin_eq_replay (patience : Nat) (s : Sender σ τ) (p : DataPacket)
    (hs : s.engine.stopped = false) :
    ∃ n ≤ patience, (s.offerWithin patience p).2
      = s.replay (.announce p :: List.replicate n .work
          ++ [.attempt s.offers.length, .abandon s.offers.length]) := by
  obtain ⟨n, hn, hwait⟩ := waitForRoom_eq_replay patience (s.announceOffer p)
  have hoffers := offers_waitForRoom patience (s.announceOffer p)
  have hconclude : (s.offerWithin patience p).2
      = (waitForRoom patience (s.announceOffer p)).concludeOffer s.offers.length
          (waitForRoom patience (s.announceOffer p)).admission := by
    unfold offerWithin
    rw [hs]
    rfl
  refine ⟨n, hn, ?_⟩
  rw [replay_append, hconclude]
  show _ = ((s.announceOffer p).replay (List.replicate n .work)).replay _
  rw [← hwait]
  generalize waitForRoom patience (s.announceOffer p) = later at hoffers ⊢
  show _ = (later.apply (.attempt s.offers.length)).apply (.abandon s.offers.length)
  show _ = (if later.admission = .full then later
    else later.concludeOffer s.offers.length later.admission).concludeOffer s.offers.length .full
  by_cases hfull : later.admission = .full
  · rw [if_pos hfull, hfull]
  · rw [if_neg hfull]
    -- The packet is concluded already, so nothing is left to take back.
    have hsome : later.offers[s.offers.length]? = some p := by
      rw [hoffers]
      exact List.getElem?_concat_length
    rw [concludeOffer_of_some hsome]
    refine (concludeOffer_of_none ?_ _).symm
    show (later.offers.eraseIdx s.offers.length)[s.offers.length]? = none
    rw [hoffers]
    show ((s.offers ++ [p]).eraseIdx s.offers.length)[s.offers.length]? = none
    rw [List.eraseIdx_append_of_length_le (Nat.le_refl _), Nat.sub_self]
    simp

end Sender

end ReliableSender
