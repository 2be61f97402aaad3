/-
  ReliableSender.Proofs.Engine.Overtaken
  ──────────────────────────────────────
  **WHICH NUMBERS AN ACKNOWLEDGMENT LEAVES BEHIND.**

  An acknowledgment of `k` looks for packets in `[lastAck, k)` only.  That
  is all there is to find as long as every number is transmitted before an
  acknowledgment covers it.  Acknowledgments come unchecked from the
  network, so one may come first and overtake the transmission; then the
  packet is buffered below the bound, and no acknowledgment reaches it again.

      stuck_iff_overtaken — a number is buffered below the acknowledged bound
                            exactly if an acknowledgment overtook it

  Everything else about acknowledgments follows from this one equivalence.
-/
import ReliableSender.Proofs.Chronicle
import ReliableSender.Proofs.Engine.Effects
import ReliableSender.Transport.Channel

namespace ReliableSender

namespace Iteration

variable {σ τ : Type} [Sink σ] [SilenceTimer τ]

/-! ## §1. The buffer along a history. -/

/-- The history transmits the number `s` as new data when everything below a bound
above `s` has been acknowledged. -/
def Overtaken (i : Iteration σ τ) (history : List (Event σ)) (s : Nat) : Prop :=
  Sometime (fun before ev => ev matches .act
    ∧ ∃ p, (i.replay before).Sends p ∧ p.sequence = s
        ∧ s < (i.replay before).engine.lastAck) history

omit [SilenceTimer τ] in
/-- A new iteration begins with the engine as it is. -/
theorem act_engine (i : Iteration σ τ) : i.act.engine = i.advance.engine := by
  unfold act
  split
  · rename_i outcome hs
    unfold advance
    rw [hs]
  · rfl

/-- What one event does to the buffer. -/
inductive BufferChange (i : Iteration σ τ) : Event σ → SendBuffer × Nat → Prop where
  | sends {p : DataPacket} (sends : i.Sends p)
      (free : i.engine.buffer.contains p.sequence = false) :
      BufferChange i .act (i.engine.buffer.push p, max i.engine.sentBound (p.sequence + 1))
  | acknowledges {x : Signal σ} {k : Nat} (number : x.acknowledgment? = some k) :
      BufferChange i (.signal x) ((i.engine.buffer.removeUpTo k).2, i.engine.sentBound)
  | keeps {ev : Event σ} (silent : ev matches .act → ∀ p, ¬ i.Sends p) :
      BufferChange i ev (i.engine.buffer, i.engine.sentBound)

theorem bufferChange (i : Iteration σ τ) (ev : Event σ) :
    BufferChange i ev ((i.apply ev).engine.buffer, (i.apply ev).engine.sentBound) := by
  cases ev with
  | act =>
    show BufferChange i .act (i.act.engine.buffer, i.act.engine.sentBound)
    rw [i.act_engine]
    rcases i.advance_buffer with ⟨p, hp, hfree, hb, hs⟩ | ⟨hn, hb, hs⟩
    · rw [hb, hs]
      exact .sends hp hfree
    · rw [hb, hs]
      exact .keeps fun _ => hn
  | offer p => exact .keeps (by simp)
  | close => exact .keeps (by simp)
  | signal x =>
    show BufferChange i (.signal x) ((i.engine.handle x).buffer, (i.engine.handle x).sentBound)
    rw [Engine.handle_buffer, Engine.handle_sentBound]
    cases hx : x.acknowledgment? with
    | none => exact .keeps (by simp)
    | some k => exact .acknowledges hx

/-- What holds of the buffer at every moment. -/
structure BufferSound (i : Iteration σ τ) : Prop where
  counted : i.engine.buffer.Counted
  /-- Only transmitted numbers are buffered. -/
  transmitted : ∀ s ∈ i.engine.buffer.keys, s < i.engine.sentBound

theorem bufferSound_apply {i : Iteration σ τ} (ev : Event σ) (hi : i.BufferSound) :
    (i.apply ev).BufferSound := by
  suffices h : (i.apply ev).engine.buffer.Counted
      ∧ ∀ s ∈ (i.apply ev).engine.buffer.keys, s < (i.apply ev).engine.sentBound from
    ⟨h.1, h.2⟩
  have hc := i.bufferChange ev
  generalize (i.apply ev).engine.buffer = b at hc ⊢
  generalize (i.apply ev).engine.sentBound = bound at hc ⊢
  cases hc with
  | sends hp hfree =>
    refine ⟨SendBuffer.counted_push hfree hi.counted, fun s hs => ?_⟩
    rcases (SendBuffer.mem_keys_push hfree).mp hs with rfl | hs
    · omega
    · have := hi.transmitted s hs
      omega
  | @acknowledges x k hk =>
    refine ⟨SendBuffer.counted_removeUpTo k hi.counted, fun s hs => ?_⟩
    exact hi.transmitted s (SendBuffer.mem_keys_removeUpTo.mp hs).1
  | keeps => exact ⟨hi.counted, hi.transmitted⟩

theorem bufferSound_replay (config : Config) (sink : σ) (timer : τ)
    (history : List (Event σ)) : ((fresh config sink timer).replay history).BufferSound := by
  induction history using List.reverseRecOn with
  | nil =>
    refine ⟨rfl, fun s hs => ?_⟩
    exact absurd hs List.not_mem_nil
  | append_singleton history ev ih =>
    rw [replay_concat]
    exact bufferSound_apply ev ih

/-! ## §2. Stuck numbers. -/

/-- **A number is buffered below the acknowledged bound exactly if it was overtaken.**
No acknowledgment puts a number there, and none takes one away from there. -/
theorem stuck_iff_overtaken (config : Config) (sink : σ) (timer : τ)
    (history : List (Event σ)) (s : Nat) :
    (s ∈ ((fresh config sink timer).replay history).engine.buffer.keys
        ∧ s < ((fresh config sink timer).replay history).engine.lastAck)
      ↔ (fresh config sink timer).Overtaken history s := by
  induction history using List.reverseRecOn with
  | nil =>
    refine ⟨fun h => ?_, fun h => absurd h not_sometime_nil⟩
    exact absurd h.1 List.not_mem_nil
  | append_singleton history ev ih =>
    unfold Overtaken at ih ⊢
    rw [sometime_concat, ← ih, replay_concat]
    unfold Engine.lastAck
    have hc := ((fresh config sink timer).replay history).bufferChange ev
    generalize (fresh config sink timer).replay history = i at hc ⊢
    generalize (i.apply ev).engine.buffer = b at hc ⊢
    generalize (i.apply ev).engine.sentBound = bound at hc
    cases hc with
    | @sends p hp hfree =>
      -- The only way to get below the bound: the number is new, and the bound is above it.
      rw [SendBuffer.mem_keys_push hfree, SendBuffer.lastAck_push]
      constructor
      · rintro ⟨rfl | hs, hlt⟩
        · exact Or.inr ⟨rfl, p, hp, rfl, hlt⟩
        · exact Or.inl ⟨hs, hlt⟩
      · rintro (⟨hs, hlt⟩ | ⟨-, q, hq, rfl, hlt⟩)
        · exact ⟨Or.inr hs, hlt⟩
        · -- An action sends one packet at most.
          have he : p = q := by
            have := hp.symm.trans hq
            simpa using congrArg Prod.fst (Option.some.inj this)
          exact ⟨Or.inl (by rw [he]), hlt⟩
    | @acknowledges x k hk =>
      -- What the bound passes is removed; what was below it already is out of reach.
      rw [SendBuffer.mem_keys_removeUpTo, SendBuffer.lastAck_removeUpTo]
      constructor
      · rintro ⟨⟨hs, hout⟩, hlt⟩
        exact Or.inl ⟨hs, by omega⟩
      · rintro (⟨hs, hlt⟩ | ⟨hact, -⟩)
        · exact ⟨⟨hs, by omega⟩, by omega⟩
        · exact absurd hact (by simp)
    | keeps hsilent =>
      constructor
      · exact Or.inl
      · rintro (h | ⟨hact, q, hq, -⟩)
        · exact h
        · exact absurd hq (hsilent hact q)

/-! ## §3. The acknowledged bound only grows. -/

theorem lastAck_le_apply (i : Iteration σ τ) (ev : Event σ) :
    i.engine.lastAck ≤ (i.apply ev).engine.lastAck := by
  unfold Engine.lastAck
  have hc := i.bufferChange ev
  generalize (i.apply ev).engine.buffer = b at hc ⊢
  generalize (i.apply ev).engine.sentBound = bound at hc
  cases hc with
  | sends => exact Nat.le_refl _
  | acknowledges =>
    rw [SendBuffer.lastAck_removeUpTo]
    exact Nat.le_max_left _ _
  | keeps => exact Nat.le_refl _

theorem lastAck_le_replay (i : Iteration σ τ) (history : List (Event σ)) :
    i.engine.lastAck ≤ (i.replay history).engine.lastAck := by
  induction history generalizing i with
  | nil => exact Nat.le_refl _
  | cons ev history ih => exact Nat.le_trans (i.lastAck_le_apply ev) (ih (i.apply ev))

theorem le_lastAck_of_acknowledge (i : Iteration σ τ) (before later : List (Event σ))
    (now : Moment) (k : Nat) :
    k ≤ (i.replay (before ++ .signal (.acknowledge now k) :: later)).engine.lastAck := by
  have hsplit : i.replay (before ++ .signal (.acknowledge now k) :: later)
      = ((i.replay before).apply (.signal (.acknowledge now k))).replay later := by
    unfold replay
    rw [List.foldl_append]
    rfl
  rw [hsplit]
  refine Nat.le_trans ?_ (lastAck_le_replay _ later)
  show k ≤ ((i.replay before).engine.handle (.acknowledge now k)).buffer.lastAck
  rw [Engine.handle_buffer]
  show k ≤ ((i.replay before).engine.buffer.removeUpTo k).2.lastAck
  rw [SendBuffer.lastAck_removeUpTo]
  exact Nat.le_max_right _ _

/-! ## §4. What an acknowledgment leaves behind. -/

/-- At any moment after an acknowledgment of `k`, the numbers below `k` in the buffer
are the overtaken ones. -/
theorem isUnacknowledged_iff_overtaken (config : Config) (sink : σ) (timer : τ)
    (before later : List (Event σ)) (now : Moment) {s k : Nat} (hs : s < k) :
    ((fresh config sink timer).replay
        (before ++ .signal (.acknowledge now k) :: later)).engine.isUnacknowledged s = true
      ↔ (fresh config sink timer).Overtaken
          (before ++ .signal (.acknowledge now k) :: later) s := by
  have hk := le_lastAck_of_acknowledge (fresh config sink timer) before later now k
  rw [← stuck_iff_overtaken]
  unfold Engine.isUnacknowledged
  rw [SendBuffer.contains_eq_true_iff]
  exact ⟨fun h => ⟨h, by omega⟩, fun h => h.1⟩

theorem overtaken_concat_signal (i : Iteration σ τ) (history : List (Event σ))
    (x : Signal σ) (s : Nat) :
    i.Overtaken (history ++ [.signal x]) s ↔ i.Overtaken history s := by
  unfold Overtaken
  rw [sometime_concat]
  refine ⟨fun h => h.resolve_right fun hx => ?_, Or.inl⟩
  exact absurd hx.1 (by simp)

/-- The moment right after the acknowledgment. -/
theorem isUnacknowledged_acknowledge_iff (config : Config) (sink : σ) (timer : τ)
    (history : List (Event σ)) (now : Moment) {s k : Nat} (hs : s < k) :
    ((((fresh config sink timer).replay history).engine.acknowledge now k).2).isUnacknowledged s
        = true
      ↔ (fresh config sink timer).Overtaken history s := by
  have h := isUnacknowledged_iff_overtaken config sink timer history [] now hs
  rw [replay_concat, overtaken_concat_signal] at h
  exact h

/-- An acknowledgment above all transmitted numbers empties the buffer exactly if no number
was overtaken. -/
theorem unacknowledged_acknowledge_eq_zero_iff (config : Config) (sink : σ) (timer : τ)
    (history : List (Event σ)) (now : Moment) {k : Nat}
    (hbound : ((fresh config sink timer).replay history).engine.sentBound ≤ k) :
    (((fresh config sink timer).replay history).engine.acknowledge now k).2.unacknowledged = 0
      ↔ ∀ s, ¬ (fresh config sink timer).Overtaken history s := by
  have hsound := bufferSound_replay config sink timer history
  have hanswered := bufferSound_apply (.signal (.acknowledge now k)) hsound
  have hleft := fun s (hs : s < k) =>
    isUnacknowledged_acknowledge_iff config sink timer history now hs
  -- Whatever is in the buffer was transmitted, so it is below the bound.
  have hsent : ∀ s ∈ ((((fresh config sink timer).replay history).engine.acknowledge
      now k).2).buffer.keys, s < k := by
    intro s hs
    have hlt := hanswered.transmitted s hs
    have hsame := ((fresh config sink timer).replay history).engine.handle_sentBound
      (.acknowledge now k)
    exact Nat.lt_of_lt_of_le hlt (Nat.le_trans (Nat.le_of_eq hsame) hbound)
  have hempty := hanswered.counted.eq_zero_iff
  constructor
  · intro hzero s hover
    have hstuck := (stuck_iff_overtaken config sink timer history s).mpr hover
    have hs : s < k := Nat.lt_of_lt_of_le (hsound.transmitted s hstuck.1) hbound
    exact hempty.mp hzero s (SendBuffer.contains_eq_true_iff.mp ((hleft s hs).mpr hover))
  · intro hnone
    refine hempty.mpr fun s hs => ?_
    exact hnone s ((hleft s (hsent s hs)).mp (SendBuffer.contains_eq_true_iff.mpr hs))

/-- **What is left below an acknowledgment.**  A number below `k` survives the
acknowledgment of `k` exactly if an earlier acknowledgment overtook its transmission, and
so it is at every later moment: no iteration begun then sends another number below `k`
again.  An acknowledgment above all transmitted numbers ends with nothing in flight exactly
if no number was overtaken, and then the window is open unless it is 0. -/
theorem acknowledge_leaves_overtaken (config : Config) (sink : σ) (timer : τ)
    (history : List (Event σ)) (now : Moment) (k : Nat) :
    let start : Iteration σ τ := fresh config sink timer
    let answered := ((start.replay history).engine.acknowledge now k).2
    (∀ s, s < k → (answered.isUnacknowledged s = true ↔ start.Overtaken history s))
      ∧ ((start.replay history).engine.sentBound ≤ k →
          (answered.unacknowledged = 0 ↔ ∀ s, ¬ start.Overtaken history s)
          ∧ ((∀ s, ¬ start.Overtaken history s) → 0 < answered.session.flowWindow →
              answered.windowOpen = true))
      ∧ ∀ later s, s < k →
          let whole := history ++ .signal (.acknowledge now k) :: later
          ((start.replay whole).engine.isUnacknowledged s = true ↔ start.Overtaken whole s)
          ∧ (((start.replay whole).engine.step (start.replay whole).queue).1
                = .ok (.retransmitted s) → start.Overtaken whole s) := by
  intro start answered
  refine ⟨fun s hs => ?_, fun hbound => ?_, fun later s hs => ?_⟩
  · exact isUnacknowledged_acknowledge_iff config sink timer history now hs
  · have hzero : answered.unacknowledged = 0 ↔ ∀ s, ¬ start.Overtaken history s :=
      unacknowledged_acknowledge_eq_zero_iff config sink timer history now hbound
    refine ⟨hzero, fun hnone hwindow => ?_⟩
    have h0 : answered.buffer.unacknowledged = 0 := hzero.mpr hnone
    unfold Engine.windowOpen
    rw [h0]
    exact decide_eq_true hwindow
  · have hiff := isUnacknowledged_iff_overtaken config sink timer history later now hs
    refine ⟨hiff, fun hstep => hiff.mp ?_⟩
    exact Engine.isUnacknowledged_of_step_retransmitted hstep

/-- **An acknowledgment can overtake a transmission.**  The peer acknowledges 5 before
packet 0 is sent; the acknowledgment of 6 then leaves packet 0 in the buffer, and with a
window of one packet the window stays shut. -/
theorem overtaken_packet_stays :
    let config : Config := { session := { flowWindow := 1 } }
    let start : Iteration ChannelSink NoTimer := fresh config {} {}
    let history : List (Event ChannelSink) :=
      [.signal (.acknowledge 0 5), .offer { sequence := 0 },
        .act, .act, .act, .act, .act, .act, .act]
    let answered := ((start.replay history).engine.acknowledge 0 6).2
    (start.replay history).engine.sentBound ≤ 6
      ∧ answered.isUnacknowledged 0 = true ∧ answered.unacknowledged = 1
      ∧ answered.windowOpen = false := by
  decide

end Iteration

end ReliableSender
