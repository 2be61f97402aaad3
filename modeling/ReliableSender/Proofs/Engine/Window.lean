/-
  ReliableSender.Proofs.Engine.Window
  ───────────────────────────────────
  **THE FLOW WINDOW BOUNDS WHAT IS IN FLIGHT.**

  The loop counts what is in flight, then reads the window, then transmits.
  Between these three moments anything may happen: feedback comes in, the
  window shrinks or grows.  The count may be out of date by the time it is
  compared, but only in one direction, since the loop alone adds packets.

      Stage.Admits           — what each stage knows of the number in flight
      gated_replay           — it knows so in every history
      window_bounds_flight   — the bound, and what a step does at the gate
-/
import ReliableSender.Proofs.Engine.Overtaken
import ReliableSender.Proofs.Engine.Steps

namespace ReliableSender

/-! ## §1. Who changes the number in flight. -/

namespace Iteration

variable {σ τ : Type} [Sink σ] [SilenceTimer τ]

/-- Only the transmission of new data adds to what is in flight. -/
theorem unacknowledged_apply (i : Iteration σ τ) (ev : Event σ) :
    (i.apply ev).engine.unacknowledged ≤ i.engine.unacknowledged
      ∨ ev = .act ∧ (∃ p, i.Sends p)
        ∧ (i.apply ev).engine.unacknowledged = i.engine.unacknowledged + 1 := by
  unfold Engine.unacknowledged
  have hc := i.bufferChange ev
  generalize (i.apply ev).engine.buffer = b at hc ⊢
  generalize (i.apply ev).engine.sentBound = bound at hc
  cases hc with
  | sends hp => exact Or.inr ⟨rfl, ⟨_, hp⟩, rfl⟩
  | acknowledges => exact Or.inl (SendBuffer.unacknowledged_removeUpTo_le _ _)
  | keeps => exact Or.inl (Nat.le_refl _)

end Iteration

namespace Engine

variable {σ τ : Type} [Sink σ]

/-- A step that does not end with a transmission of new data leaves the buffer alone. -/
theorem step_buffer {e : Engine σ τ} {q : IngressQueue}
    (h : ∀ s, (e.step q).1 ≠ .ok (.sent s)) : (e.step q).2.1.buffer = e.buffer := by
  have hs := e.steps q
  generalize e.step q = r at h hs ⊢
  cases hs with
  | skips | windowFull | pollsNothing => rfl
  | resends _ _ hr => cases hr <;> rfl
  | transmits _ _ _ ht | crashes _ _ _ ht =>
    cases ht with
    | duplicate | failed => rfl
    | sent => exact absurd rfl (h _)

/-- At a full window a step does nothing at all. -/
theorem step_windowFull {e : Engine σ τ} (q : IngressQueue) (hl : e.hasLosses = false)
    (hfull : e.session.flowWindow ≤ e.unacknowledged) :
    e.step q = (.ok .windowFull, e, q) := by
  have hshut : e.windowOpen = false := decide_eq_false (Nat.not_lt.mpr hfull)
  unfold step
  rw [first?_eq_none hl, hshut]
  rfl

/-- At an open window a step sends and buffers the packet that waits longest, if its number
is free and the sink takes it. -/
theorem step_sent {e : Engine σ τ} {q : IngressQueue} {p : DataPacket} {rest : List DataPacket}
    (hl : e.hasLosses = false) (hroom : e.unacknowledged < e.session.flowWindow)
    (hq : q.waiting = p :: rest) (hfree : e.isUnacknowledged p.sequence = false)
    (hout : (Sink.attempt (.data p) e.sink).1 = .ok ()) :
    e.step q = (.ok (.sent p.sequence),
      { e with
        buffer := e.buffer.push p
        sink := (Sink.attempt (.data p) e.sink).2 }.recordSent p,
      { q with waiting := rest }.handled) := by
  have hopen : e.windowOpen = true := decide_eq_true hroom
  have hinsert : e.buffer.contains p.sequence = false := hfree
  rcases ha : Sink.attempt (.data p) e.sink with ⟨result, sink⟩
  rw [ha] at hout
  obtain rfl : result = .ok () := hout
  have htransmit : e.transmit p
      = (.ok (.sent p.sequence), { e with buffer := e.buffer.push p, sink }.recordSent p) := by
    unfold transmit SendBuffer.insertWith
    rw [hinsert]
    simp only [Bool.false_eq_true, if_false, ha]
  unfold step transmitNext IngressQueue.poll
  rw [first?_eq_none hl, hopen, hq]
  simp only [if_true, htransmit]

end Engine

/-! ## §2. What a stage knows. -/

/-- What a stage knows of the number in flight, given the windows read so far. -/
def Stage.Admits (read : List Nat) (inFlight : Nat) : Stage → Prop
  | .inFlightRead n => inFlight ≤ n
  | .windowRead window | .holding window _ => read.getLast? = some window ∧ inFlight < window
  | .settling _ (.ok (.sent _)) | .done (.ok (.sent _)) =>
    ∃ window, read.getLast? = some window ∧ inFlight ≤ window
  | _ => True

/-- Feedback makes no stage's knowledge wrong. -/
theorem Stage.Admits.mono {read : List Nat} {m n : Nat} {stage : Stage}
    (h : stage.Admits read n) (hle : m ≤ n) : stage.Admits read m := by
  cases stage with
  | inFlightRead k => exact Nat.le_trans hle h
  | windowRead | holding => exact ⟨h.1, Nat.lt_of_le_of_lt hle h.2⟩
  | settling _ outcome | done outcome =>
    rcases outcome with fault | progress
    · trivial
    · cases progress with
      | sent =>
        obtain ⟨window, hlast, hn⟩ := h
        exact ⟨window, hlast, Nat.le_trans hle hn⟩
      | _ => trivial
  | _ => trivial

namespace Iteration

variable {σ τ : Type} [Sink σ] [SilenceTimer τ]

/-- The window that the next action reads. -/
def windowRead? (i : Iteration σ τ) : Option Nat :=
  match i.stage with
  | .inFlightRead _ => some i.engine.session.flowWindow
  | _ => none

/-- The windows that the loop reads in a history. -/
def windowsRead (i : Iteration σ τ) (history : List (Event σ)) : List Nat :=
  gather apply (fun i ev =>
    match ev with
    | .act => i.windowRead?.toList
    | _ => []) i history

/-- What is in flight stays below the windows read, and every stage knows what it should. -/
structure Gated (i : Iteration σ τ) (read : List Nat) : Prop where
  bounded : i.engine.unacknowledged ≤ largest read
  known : i.stage.Admits read i.engine.unacknowledged

omit [Sink σ] [SilenceTimer τ] in
/-- What is not in flight any more makes no difference. -/
theorem Gated.fewer {i i' : Iteration σ τ} {read : List Nat} (hi : i.Gated read)
    (hstage : i'.stage = i.stage) (hle : i'.engine.unacknowledged ≤ i.engine.unacknowledged) :
    i'.Gated read := by
  refine ⟨Nat.le_trans hle hi.bounded, ?_⟩
  rw [hstage]
  exact hi.known.mono hle

omit [Sink σ] [SilenceTimer τ] in
/-- An action that reads no window and sends nothing new. -/
theorem Gated.keep {i i' : Iteration σ τ} {read : List Nat} (hi : i.Gated read)
    (hread : i.windowRead? = none)
    (hsame : i'.engine.unacknowledged = i.engine.unacknowledged)
    (hknown : i'.stage.Admits read i.engine.unacknowledged) :
    i'.Gated (read ++ i.windowRead?.toList) := by
  rw [hread]
  show i'.Gated (read ++ [])
  rw [List.append_nil]
  exact ⟨Nat.le_trans (Nat.le_of_eq hsame) hi.bounded, hsame.symm ▸ hknown⟩

omit [SilenceTimer τ] in
theorem gated_act {i : Iteration σ τ} {read : List Nat} (hi : i.Gated read) :
    i.act.Gated (read ++ i.windowRead?.toList) := by
  have hnone : (∀ n, i.stage ≠ .inFlightRead n) → i.windowRead? = none := by
    intro hn
    unfold windowRead?
    split
    · rename_i n hs
      exact absurd hs (hn n)
    · rfl
  have hknown := hi.known
  unfold act
  split
  · rename_i outcome hs
    exact hi.keep (hnone (by simp [hs])) rfl trivial
  · rename_i hgoing
    have hadv := i.advances
    generalize i.advance = i' at hadv ⊢
    cases hadv with
    | seesLoss hs | seesNone hs | takesLoss hs | skipsLoss hs | findsLoss hs =>
      exact hi.keep (hnone (by simp [hs])) rfl trivial
    | @resends p hs =>
      have hresend := i.engine.resends p
      generalize i.engine.resend p = r at hresend ⊢
      cases hresend <;> exact hi.keep (hnone (by simp [hs])) rfl trivial
    | countsFlight hs => exact hi.keep (hnone (by simp [hs])) rfl (Nat.le_refl _)
    | @readsWindow n hs hroom =>
      -- The count is as old as the stage, and what is in flight has not grown since.
      rw [hs] at hknown
      have hread : i.windowRead? = some i.engine.session.flowWindow := by
        unfold windowRead?
        rw [hs]
      rw [hread]
      refine ⟨?_, List.getLast?_concat, Nat.lt_of_le_of_lt hknown hroom⟩
      show i.engine.unacknowledged ≤ largest (read ++ [i.engine.session.flowWindow])
      rw [largest_append]
      exact Nat.le_trans hi.bounded (Nat.le_max_left _ _)
    | @windowFull n hs hfull =>
      refine ⟨?_, trivial⟩
      show i.engine.unacknowledged ≤ largest (read ++ i.windowRead?.toList)
      rw [largest_append]
      exact Nat.le_trans hi.bounded (Nat.le_max_left _ _)
    | @pollsNothing window outcome hs hempty hverdict =>
      refine hi.keep (hnone (by simp [hs])) rfl ?_
      show Stage.Admits read _ (.done (.ok outcome))
      rw [hverdict]
      split <;> trivial
    | pollsPacket hs =>
      rw [hs] at hknown
      exact hi.keep (hnone (by simp [hs])) rfl hknown
    | @transmits window p hs halive =>
      rw [hs] at hknown
      have ht := i.engine.transmits p
      generalize i.engine.transmit p = r at ht halive ⊢
      cases ht with
      | duplicate | failed => exact hi.keep (hnone (by simp [hs])) rfl trivial
      | sent =>
        -- One more is in flight, and that is what the window had room for.
        obtain ⟨hlast, hlt⟩ := hknown
        rw [hnone (by simp [hs])]
        show Gated _ (read ++ [])
        rw [List.append_nil]
        refine ⟨?_, window, hlast, hlt⟩
        exact Nat.le_trans hlt (le_largest (List.mem_of_getLast? hlast))
    | @crashes window p hs hcrash =>
      have ht := i.engine.transmits p
      generalize i.engine.transmit p = r at ht hcrash ⊢
      cases ht with
      | duplicate | sent => exact absurd hcrash (by simp)
      | failed => exact hi.keep (hnone (by simp [hs])) rfl trivial
    | @settles window outcome hs =>
      refine hi.keep (hnone (by simp [hs])) rfl ?_
      rw [hs] at hknown
      rcases outcome with fault | progress
      · trivial
      · cases progress with
        | sent => exact hknown
        | _ => trivial
    | @rests outcome hs => exact absurd hs (hgoing outcome)

/-! ## §3. Along a history. -/

theorem gated_apply {i : Iteration σ τ} {read : List Nat} (ev : Event σ) (hi : i.Gated read) :
    (i.apply ev).Gated (read ++ match ev with
      | .act => i.windowRead?.toList
      | _ => []) := by
  cases ev with
  | act => exact gated_act hi
  | offer | close | signal =>
    rw [List.append_nil]
    refine hi.fewer rfl ?_
    rcases i.unacknowledged_apply _ with hle | ⟨hact, _⟩
    · exact hle
    · exact absurd hact (by simp)

theorem gated_replay (config : Config) (sink : σ) (timer : τ) (history : List (Event σ)) :
    ((fresh config sink timer).replay history).Gated
      ((fresh config sink timer).windowsRead history) := by
  induction history using List.reverseRecOn with
  | nil => exact ⟨Nat.le_refl 0, trivial⟩
  | append_singleton history ev ih =>
    unfold windowsRead
    rw [replay_concat, gather_concat]
    exact gated_apply ev ih

/-- **The flow window.**  Whatever comes in between, the number in flight right after a
transmission of new data, and still when that iteration ends, is at most the window that the
iteration read; so it is never above the largest window read.  No other event and no other
step adds to it.  Without losses, a step at a full window does nothing, and a step at an open
one sends the packet that waits longest, if its number is free and the sink takes it. -/
theorem window_bounds_flight (config : Config) (sink : σ) (timer : τ)
    (history : List (Event σ)) :
    let start : Iteration σ τ := fresh config sink timer
    let i := start.replay history
    let read := start.windowsRead history
    (∀ p, i.Sends p →
        ∃ window, read.getLast? = some window ∧ i.act.engine.unacknowledged ≤ window)
      ∧ (∀ s, i.stage = .done (.ok (.sent s)) →
          ∃ window, read.getLast? = some window ∧ i.engine.unacknowledged ≤ window)
      ∧ i.engine.unacknowledged ≤ largest read
      ∧ (∀ ev, (ev = .act → ∀ p, ¬ i.Sends p) →
          (i.apply ev).engine.unacknowledged ≤ i.engine.unacknowledged)
      ∧ ∀ (e : Engine σ τ) (q : IngressQueue),
          ((∀ s, (e.step q).1 ≠ .ok (.sent s)) →
            (e.step q).2.1.unacknowledged = e.unacknowledged)
          ∧ (e.hasLosses = false → e.session.flowWindow ≤ e.unacknowledged →
              e.step q = (.ok .windowFull, e, q))
          ∧ ∀ p rest, e.hasLosses = false → e.unacknowledged < e.session.flowWindow →
              q.waiting = p :: rest → e.isUnacknowledged p.sequence = false →
              (Sink.attempt (.data p) e.sink).1 = .ok () →
              (e.step q).1 = .ok (.sent p.sequence) := by
  intro start i read
  have hgated : i.Gated read := gated_replay config sink timer history
  refine ⟨fun p hp => ?_, fun s hs => ?_, hgated.bounded, fun ev hev => ?_, fun e q => ?_⟩
  · -- The transmission is an action of the history that is longer by one event.
    have hafter : (i.apply .act).Gated (read ++ i.windowRead?.toList) := gated_apply .act hgated
    unfold Sends attempt? at hp
    split at hp
    · rename_i window q hs
      obtain ⟨hlast, hlt⟩ : read.getLast? = some window ∧ i.engine.unacknowledged < window := by
        have hknown := hgated.known
        rw [hs] at hknown
        exact hknown
      refine ⟨window, hlast, ?_⟩
      rcases i.unacknowledged_apply .act with hle | ⟨_, _, hmore⟩
      · exact Nat.le_of_lt (Nat.lt_of_le_of_lt hle hlt)
      · exact Nat.le_trans (Nat.le_of_eq hmore) hlt
    · exact absurd hp (by simp)
  · have hknown := hgated.known
    rw [hs] at hknown
    exact hknown
  · rcases i.unacknowledged_apply ev with hle | ⟨hact, ⟨p, hp⟩, _⟩
    · exact hle
    · exact absurd hp (hev hact p)
  · refine ⟨fun hsent => ?_, Engine.step_windowFull q, fun p rest hl hroom hq hfree hout => ?_⟩
    · exact congrArg SendBuffer.unacknowledged (Engine.step_buffer hsent)
    · rw [Engine.step_sent hl hroom hq hfree hout]

/-- The window of two packets is closed after it was read; the packet is sent all the same,
and one packet is in flight. -/
theorem window_closed_before_sending :
    let start : Iteration ChannelSink NoTimer := fresh { session := { flowWindow := 2 } } {} {}
    let history : List (Event ChannelSink) :=
      [.offer { sequence := 0 }, .act, .act, .act, .act, .signal (.setFlowWindow 0)]
    let i := start.replay history
    i.engine.session.flowWindow = 0 ∧ i.act.engine.unacknowledged = 1
      ∧ i.Sends { sequence := 0 }
      ∧ ∃ window, (start.windowsRead history).getLast? = some window
          ∧ i.act.engine.unacknowledged ≤ window := by
  intro start history i
  have hsends : i.Sends { sequence := 0 } := by rfl
  have hbound := window_bounds_flight { session := { flowWindow := 2 } } ({} : ChannelSink)
    ({} : NoTimer) history
  exact ⟨by decide, by decide, hsends, hbound.1 _ hsends⟩

end Iteration

end ReliableSender
