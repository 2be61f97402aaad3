/-
  ReliableSender.Proofs.Engine.Drain
  ──────────────────────────────────
  **ALL LOSSES ARE SERVED, WHATEVER THE SINK SAYS.**

  A step that finds a loss serves the lowest one and nothing else: it looks
  its packet up, hands it to the sink if it is still buffered, and goes on
  to the next loss in the next step, also after a refusal.  As many steps as
  there are losses therefore empty the list, in ascending order and with one
  attempt for each buffered packet, and the queue is never asked.

      Verdict         — what is told of a loss, by the buffer and the sink
      Drains          — what `n` steps leave of an engine with `n` losses
      drains          — one loss after the other
      losses_drained  — the whole way, and what a silence adds to it
-/
import ReliableSender.Proofs.Engine.Steps
import ReliableSender.Transport.Channel

namespace ReliableSender

/-! ## §1. Handing packets to a sink. -/

/-- What is left of a sink that these data packets were handed to, one after the other,
whether it took them or not. -/
def Sink.afterAttempts {σ : Type} [Sink σ] (ps : List DataPacket) (sink : σ) : σ :=
  ps.foldl (fun sink p => (Sink.attempt (.data p) sink).2) sink

theorem Sink.afterAttempts_append {σ : Type} [Sink σ] (ps qs : List DataPacket) (sink : σ) :
    Sink.afterAttempts (ps ++ qs) sink = Sink.afterAttempts qs (Sink.afterAttempts ps sink) :=
  List.foldl_append

namespace Engine

variable {σ τ : Type} [Sink σ]

/-! ## §2. One loss. -/

/-- What is told of a loss: it depends on the buffer, and then on the sink. -/
inductive Verdict (b : SendBuffer) (sink : σ) (s : Nat) : Except Fault Progress → Prop where
  | skipped (gone : b.get? s = none) : Verdict b sink s (.ok (.skipped s))
  | retransmitted {p : DataPacket} (kept : b.get? s = some p)
      (taken : (Sink.attempt (.data p) sink).1 = .ok ()) :
      Verdict b sink s (.ok (.retransmitted s))
  | refused {p : DataPacket} {cause : TransportError} (kept : b.get? s = some p)
      (refused : (Sink.attempt (.data p) sink).1 = .error (.transport cause)) :
      Verdict b sink s (.ok (.retransmitFailed s))
  | crashed {p : DataPacket} (kept : b.get? s = some p)
      (crash : (Sink.attempt (.data p) sink).1 = .error .crash) :
      Verdict b sink s (.error .crash)

/-- Each result of a step that serves a loss, and exactly when it is the one. -/
structure Told (b : SendBuffer) (sink : σ) (s : Nat) (r : Except Fault Progress) : Prop where
  /-- The packet is buffered, and the sink takes it. -/
  retransmitted : r = .ok (.retransmitted s)
    ↔ ∃ p, b.get? s = some p ∧ (Sink.attempt (.data p) sink).1 = .ok ()
  /-- The packet is buffered, and the sink refuses it. -/
  retransmitFailed : r = .ok (.retransmitFailed s)
    ↔ ∃ p cause, b.get? s = some p
      ∧ (Sink.attempt (.data p) sink).1 = .error (.transport cause)
  /-- The packet is not buffered. -/
  skipped : r = .ok (.skipped s) ↔ b.get? s = none
  crashed : r = .error .crash
    ↔ ∃ p, b.get? s = some p ∧ (Sink.attempt (.data p) sink).1 = .error .crash

theorem Verdict.told {b : SendBuffer} {sink : σ} {s : Nat} {r : Except Fault Progress}
    (h : Verdict b sink s r) : Told b sink s r := by
  cases h with
  | skipped gone => constructor <;> simp [gone]
  | retransmitted kept taken => constructor <;> simp [kept, taken]
  | refused kept refused => constructor <;> simp [kept, refused]
  | crashed kept crash => constructor <;> simp [kept, crash]

/-- A loss that was taken out of the list is served: the sink is handed its packet, if there
is one, and one of two counters goes up. -/
theorem retransmit_serves (e : Engine σ τ) (s : Nat) :
    ∃ retransmitted skipped, (e.retransmit s).2
        = { e with
            sink := Sink.afterAttempts (e.buffer.get? s).toList e.sink
            statistics := { e.statistics with retransmitted, skipped } }
      ∧ Verdict e.buffer e.sink s (e.retransmit s).1 := by
  unfold retransmit
  cases hg : e.buffer.get? s with
  | none => exact ⟨e.statistics.retransmitted, e.statistics.skipped + 1, rfl, .skipped hg⟩
  | some p =>
    obtain ⟨-, rfl⟩ := SendBuffer.mem_of_get? hg
    have hsink : Sink.afterAttempts (some p).toList e.sink
        = (Sink.attempt (.data p) e.sink).2 := rfl
    have hr := e.resends p
    rw [hsink]
    simp only
    generalize e.resend p = r at hr ⊢
    cases hr with
    | again hout =>
      rw [hout]
      exact ⟨e.statistics.retransmitted + 1, e.statistics.skipped, rfl,
        .retransmitted hg (congrArg Prod.fst hout)⟩
    | refused hrefused =>
      rw [hrefused]
      exact ⟨e.statistics.retransmitted, e.statistics.skipped, rfl,
        .refused hg (congrArg Prod.fst hrefused)⟩
    | crashes hcrash =>
      rw [hcrash]
      exact ⟨e.statistics.retransmitted, e.statistics.skipped, rfl,
        .crashed hg (congrArg Prod.fst hcrash)⟩

/-- A step that finds a loss serves it, without a look at the window or the queue. -/
theorem step_of_first {e : Engine σ τ} {s : Nat} (h : e.losses.first? = some s)
    (q : IngressQueue) :
    e.step q = (((e.takeLoss s).retransmit s).1, ((e.takeLoss s).retransmit s).2, q) := by
  unfold step
  rw [h]

/-! ## §3. One loss after the other. -/

/-- What `n` steps leave of an engine with at least `n` losses. -/
structure Drains (e : Engine σ τ) (q : IngressQueue) (n : Nat) : Prop where
  /-- The lowest `n` losses have been taken out. -/
  losses : (e.afterSteps q n).1.losses.entries = e.losses.entries.drop n
  /-- Those of their packets that are buffered were handed to the sink, lowest first, and
  nothing else was. -/
  sink : (e.afterSteps q n).1.sink = Sink.afterAttempts (e.demanded n) e.sink
  queue : (e.afterSteps q n).2 = q
  /-- The queue plays no part in it. -/
  anyQueue : ∀ q', (e.afterSteps q' n).1 = (e.afterSteps q n).1
  /-- Two counters apart, everything else is as it was. -/
  others : ∃ losses sink retransmitted skipped, (e.afterSteps q n).1
    = { e with
        losses
        sink
        statistics := { e.statistics with retransmitted, skipped } }

theorem Drains.buffer {e : Engine σ τ} {q : IngressQueue} {n : Nat} (h : e.Drains q n) :
    (e.afterSteps q n).1.buffer = e.buffer := by
  obtain ⟨losses, sink, retransmitted, skipped, he⟩ := h.others
  rw [he]

/-- The next loss is the lowest one. -/
theorem Drains.first {e : Engine σ τ} {q : IngressQueue} {n s : Nat} (h : e.Drains q n)
    (hs : e.losses.entries[n]? = some s) : (e.afterSteps q n).1.losses.first? = some s := by
  unfold LossList.first?
  rw [h.losses, List.head?_drop, hs]

/-- One more loss is served. -/
theorem Drains.succ {e : Engine σ τ} {q : IngressQueue} {n : Nat} (h : e.Drains q n)
    (hn : n < e.losses.size) : e.Drains q (n + 1) := by
  obtain ⟨s, hs⟩ : ∃ s, e.losses.entries[n]? = some s := ⟨_, List.getElem?_eq_getElem hn⟩
  have hfirst := h.first hs
  have hbuffer := h.buffer
  obtain ⟨hlosses, hsink, hqueue, hany, losses, sink, retransmitted, skipped, he⟩ := h
  obtain ⟨rest, hrest, htaken⟩ := takeLoss_first hfirst
  obtain ⟨retransmitted', skipped', hserved, -⟩ :=
    ((e.afterSteps q n).1.takeLoss s).retransmit_serves s
  -- Over any queue the next step is the same, and leaves the queue alone.
  have hnext : ∀ q', (e.afterSteps q' (n + 1)).1
      = (((e.afterSteps q n).1.takeLoss s).retransmit s).2 := by
    intro q'
    show ((e.afterSteps q' n).1.step (e.afterSteps q' n).2).2.1 = _
    rw [hany q', step_of_first hfirst]
  refine ⟨?_, ?_, ?_, fun q' => (hnext q').trans (hnext q).symm, ?_⟩
  · rw [hnext q, hserved]
    show ((e.afterSteps q n).1.takeLoss s).losses.entries = e.losses.entries.drop (n + 1)
    rw [htaken, ← List.tail_drop, ← hlosses, hrest, List.tail_cons]
  · rw [hnext q, hserved, demanded_succ hs, Sink.afterAttempts_append, ← hsink, ← hbuffer]
    rfl
  · show ((e.afterSteps q n).1.step (e.afterSteps q n).2).2.2 = q
    rw [step_of_first hfirst, hqueue]
  · rw [hnext q, hserved, he]
    exact ⟨_, _, _, _, rfl⟩

/-- **One loss after the other is served**, as long as there is one. -/
theorem drains {e : Engine σ τ} {n : Nat} (q : IngressQueue) (hn : n ≤ e.losses.size) :
    e.Drains q n := by
  induction n with
  | zero => exact ⟨rfl, rfl, rfl, fun _ => rfl, _, _, _, _, rfl⟩
  | succ n ih => exact (ih (Nat.le_of_succ_le hn)).succ hn

/-- What is told of the loss whose turn it is. -/
theorem Drains.told {e : Engine σ τ} {q : IngressQueue} {n s : Nat} (h : e.Drains q n)
    (hs : e.losses.entries[n]? = some s) :
    Told e.buffer (e.afterSteps q n).1.sink s (e.outcomeAfter q n) := by
  obtain ⟨-, -, -, hverdict⟩ := ((e.afterSteps q n).1.takeLoss s).retransmit_serves s
  have hbuffer : ((e.afterSteps q n).1.takeLoss s).buffer = e.buffer := h.buffer
  rw [hbuffer] at hverdict
  show Told _ _ s ((e.afterSteps q n).1.step (e.afterSteps q n).2).1
  rw [step_of_first (h.first hs)]
  exact hverdict.told

/-! ## §4. All of them. -/

omit [Sink σ] in
/-- Each loss has its own turn. -/
theorem existsUnique_turn {e : Engine σ τ} {s : Nat} (h : s ∈ e.losses) :
    ∃! n : Nat, e.losses.entries[n]? = some s := by
  have hnodup : e.losses.entries.Nodup := e.losses.ascending.imp Nat.ne_of_lt
  obtain ⟨n, hn, hs⟩ := List.mem_iff_getElem.mp h
  refine ⟨n, (List.getElem?_eq_getElem hn).trans (congrArg some hs), fun m hm => ?_⟩
  obtain ⟨hlt, hsame⟩ := List.getElem?_eq_some_iff.mp hm
  exact (List.Nodup.getElem_inj_iff hnodup).mp (hsame.trans hs.symm)

omit [Sink σ] in
/-- After a silence all of the buffer is called for. -/
theorem demanded_expire (e : Engine σ τ) :
    e.expire.demanded e.expire.losses.size = e.buffer.entries := by
  rw [demanded_size]
  refine List.filter_eq_self.mpr fun p hp => List.contains_iff_mem.mpr ?_
  exact LossList.mem_insertAll.mpr (Or.inr (SendBuffer.mem_keys.mpr ⟨p, hp, rfl⟩))

/-- **All losses are served, whatever the sink says.**  As many steps as there are losses
empty the list, and no fewer.  Step `n` is about the loss in place `n`, the places are in
ascending order, and what is told of a loss depends on whether it is buffered and on what the
sink says of its packet.  The sink is handed the packets that are called for and no other,
and the rest of the engine and the queue, whatever it holds, stay as they were.  After a
silence each buffered packet has its turn, and is handed to the sink once. -/
theorem losses_drained (e : Engine σ τ) (q : IngressQueue) :
    Ascending e.losses.entries
      ∧ (∀ n ≤ e.losses.size, e.Drains q n
          ∧ (e.afterSteps q n).1.hasLosses = decide (n < e.losses.size))
      ∧ (∀ n s, e.losses.entries[n]? = some s →
          Told e.buffer (e.afterSteps q n).1.sink s (e.outcomeAfter q n))
      ∧ (e.afterSteps q e.losses.size).1.sink
          = Sink.afterAttempts
              (e.buffer.entries.filter fun p => e.losses.entries.contains p.sequence) e.sink
      ∧ (∀ p ∈ e.buffer.entries, ∃! n : Nat, e.expire.losses.entries[n]? = some p.sequence)
      ∧ (e.expire.afterSteps q e.expire.losses.size).1.sink
          = Sink.afterAttempts e.buffer.entries e.sink := by
  refine ⟨e.losses.ascending, fun n hn => ?_, fun n s hs => ?_, ?_, fun p hp => ?_, ?_⟩
  · exact ⟨drains q hn, hasLosses_of_drop (drains q hn).losses⟩
  · obtain ⟨hn, -⟩ := List.getElem?_eq_some_iff.mp hs
    exact (drains q (Nat.le_of_lt hn)).told hs
  · rw [(drains q (Nat.le_refl _)).sink, demanded_size]
  · have hkey : p.sequence ∈ e.buffer.keys := SendBuffer.mem_keys.mpr ⟨p, hp, rfl⟩
    exact existsUnique_turn (LossList.mem_insertAll.mpr (Or.inr hkey))
  · rw [(drains q (Nat.le_refl _)).sink, demanded_expire]
    rfl

/-- Losses 1 and 5 are reported, 5 twice, and only 1 is buffered; the sink refuses all data. -/
example :
    let e : Engine FaultySink NoTimer :=
      { Engine.ofConfig {} { refuseData := true } {} with
        buffer := ({} : SendBuffer).push { sequence := 1 }
        losses := (({} : LossList).insertAll [5, 1, 5]).2 }
    let q : IngressQueue := { capacity := 1, waiting := [{ sequence := 2 }] }
    (List.range 3).map (e.outcomeAfter q)
      = [.ok (.retransmitFailed 1), .ok (.skipped 5), .error (.transport .refused)] := by
  cbv

end Engine

end ReliableSender
