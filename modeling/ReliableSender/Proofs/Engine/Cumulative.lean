/-
  ReliableSender.Proofs.Engine.Cumulative
  ───────────────────────────────────────
  **OF SEVERAL ACKNOWLEDGMENTS THE LARGEST COUNTS.**

  An acknowledgment removes the stretch between the one before it and
  itself.  The stretches of a series lie end to end, so together they are
  the stretch of the largest number, in whatever order the numbers come, how
  often each of them comes, and whatever becomes of the answers.

      replay_acknowledgments   — all that a series changes
      removed_acknowledgments  — the packets that it removes, each once
      acknowledgments_collapse — a series against its largest number
-/
import ReliableSender.Proofs.Engine.Reconciliation

namespace ReliableSender

/-! ## §1. Largest numbers. -/

/-- Which of some numbers is the largest depends on which numbers they are. -/
theorem largest_eq_of_max? {ms ns : List Nat} {m : Nat} (hmax : ns.max? = some m)
    (hsame : ∀ n, n ∈ ms ↔ n ∈ ns) : largest ms = m := by
  obtain ⟨hmem, hbound⟩ := List.max?_eq_some_iff.mp hmax
  refine Nat.le_antisymm (largest_le fun n hn => hbound n ((hsame n).mp hn)) ?_
  exact le_largest ((hsame m).mpr hmem)

namespace Iteration

variable {σ τ : Type} [Sink σ] [SilenceTimer τ]

/-! ## §2. A series of acknowledgments. -/

/-- Acknowledgments of some numbers, each at its moment. -/
def acknowledgments (acks : List (Moment × Nat)) : List (Event σ) :=
  acks.map fun ack => .signal (.acknowledge ack.1 ack.2)

/-- **All that a series of acknowledgments changes**: the buffer, the sink, and two counters,
of which the one counts the series. -/
theorem replay_acknowledgments (i : Iteration σ τ) (acks : List (Moment × Nat)) :
    ∃ sink ack2s, i.replay (acknowledgments acks)
      = { i with
          engine := { i.engine with
            buffer := (i.engine.buffer.removeUpTo (largest (acks.map Prod.snd))).2
            sink
            statistics := { i.engine.statistics with
              acks := i.engine.statistics.acks + UInt64.ofNat acks.length
              ack2s } } } := by
  induction acks using List.reverseRecOn with
  | nil =>
    have hbuffer : (i.engine.buffer.removeUpTo
        (largest (([] : List (Moment × Nat)).map Prod.snd))).2 = i.engine.buffer :=
      i.engine.buffer.removeUpTo_zero
    have hcount : i.engine.statistics.acks + UInt64.ofNat ([] : List (Moment × Nat)).length
        = i.engine.statistics.acks := UInt64.add_zero _
    rw [hbuffer, hcount]
    exact ⟨i.engine.sink, i.engine.statistics.ack2s, rfl⟩
  | append_singleton acks ack ih =>
    obtain ⟨sink, ack2s, hbefore⟩ := ih
    obtain ⟨ack2s', hanswered, -⟩ :=
      (i.replay (acknowledgments acks)).engine.acknowledge_answered ack.1 ack.2
    have hsplit : acknowledgments (σ := σ) (acks ++ [ack])
        = acknowledgments acks ++ [.signal (.acknowledge ack.1 ack.2)] := List.map_append
    have hlargest : largest ((acks ++ [ack]).map Prod.snd)
        = max (largest (acks.map Prod.snd)) ack.2 := by
      rw [List.map_append, largest_append]
      exact congrArg _ (largest_singleton ack.2)
    have hcount : i.engine.statistics.acks + UInt64.ofNat (acks ++ [ack]).length
        = i.engine.statistics.acks + UInt64.ofNat acks.length + 1 := by
      rw [List.length_append, UInt64.ofNat_add, UInt64.add_assoc]
      rfl
    rw [hsplit, replay_concat, hlargest, hcount, ← SendBuffer.removeUpTo_removeUpTo]
    show ∃ sink ack2s, { i.replay (acknowledgments acks) with
      engine := ((i.replay (acknowledgments acks)).engine.acknowledge ack.1 ack.2).2 } = _
    rw [hanswered, hbefore]
    exact ⟨_, ack2s', rfl⟩

/-- What was buffered is removed by a series of acknowledgments, or still buffered. -/
theorem entries_acknowledgments (i : Iteration σ τ) (acks : List (Moment × Nat)) :
    i.engine.buffer.entries.Perm
      (gather apply removed i (acknowledgments acks)
        ++ (i.replay (acknowledgments acks)).engine.buffer.entries) := by
  induction acks generalizing i with
  | nil => exact List.Perm.refl _
  | cons ack acks ih =>
    have hnow : i.engine.buffer.entries.Perm
        (i.removed (.signal (.acknowledge ack.1 ack.2))
          ++ (i.apply (.signal (.acknowledge ack.1 ack.2))).engine.buffer.entries) :=
      i.packets_balance (.signal (.acknowledge ack.1 ack.2))
    have hlater := ih (i.apply (.signal (.acknowledge ack.1 ack.2)))
    refine hnow.trans ((hlater.append_left _).trans (List.Perm.of_eq ?_))
    exact (List.append_assoc _ _ _).symm

/-- **The packets that a series of acknowledgments removes** are those of its largest number,
each of them once. -/
theorem removed_acknowledgments (i : Iteration σ τ) (acks : List (Moment × Nat)) (now : Moment) :
    (gather apply removed i (acknowledgments acks)).Perm
      (i.removed (.signal (.acknowledge now (largest (acks.map Prod.snd))))) := by
  have hseries := i.entries_acknowledgments acks
  have hone := i.entries_acknowledgments [(now, largest (acks.map Prod.snd))]
  -- Both leave the same packets, so they remove the same ones.
  have hleft : (i.replay (acknowledgments acks)).engine.buffer
      = (i.replay (acknowledgments [(now, largest (acks.map Prod.snd))])).engine.buffer := by
    obtain ⟨sink, ack2s, hmany⟩ := i.replay_acknowledgments acks
    obtain ⟨sink', ack2s', hsingle⟩ :=
      i.replay_acknowledgments [(now, largest (acks.map Prod.snd))]
    rw [hmany, hsingle, List.map_singleton, largest_singleton]
  rw [hleft] at hseries
  refine ((List.perm_append_right_iff _).mp (hseries.symm.trans hone)).trans (List.Perm.of_eq ?_)
  exact List.append_nil _

/-! ## §3. A series and its largest number. -/

/-- **A series of acknowledgments comes to its largest number.**  In any order, with any
repetitions, and whatever becomes of the answers, acknowledgments of some numbers leave the
buffer, with the count in flight and the acknowledged bound, as one acknowledgment of the
largest of them does; they remove the same packets, so in total as many; and apart from the
sink and the counters of acknowledgments and answers they change nothing else. -/
theorem acknowledgments_collapse (i : Iteration σ τ) {ks : List Nat} {m : Nat}
    (hmax : ks.max? = some m) {acks : List (Moment × Nat)}
    (hsame : ∀ k, k ∈ acks.map Prod.snd ↔ k ∈ ks) (now : Moment) :
    let many := i.replay (acknowledgments acks)
    let one := i.apply (.signal (.acknowledge now m))
    let removedByMany := gather apply removed i (acknowledgments acks)
    many.engine.buffer = one.engine.buffer
      ∧ many.engine.lastAck = max i.engine.lastAck m
      ∧ removedByMany.Perm (i.removed (.signal (.acknowledge now m)))
      ∧ removedByMany.length = (i.engine.buffer.removeUpTo m).1
      ∧ ∃ sink ack2s, many
          = { i with
              engine := { i.engine with
                buffer := one.engine.buffer
                sink
                statistics := { i.engine.statistics with
                  acks := i.engine.statistics.acks + UInt64.ofNat acks.length
                  ack2s } } } := by
  intro many one removedByMany
  have hlargest : largest (acks.map Prod.snd) = m := largest_eq_of_max? hmax hsame
  obtain ⟨sink, ack2s, hmany⟩ := i.replay_acknowledgments acks
  obtain ⟨ack2s', hanswered, -⟩ := i.engine.acknowledge_answered now m
  rw [hlargest] at hmany
  have hone : one.engine.buffer = (i.engine.buffer.removeUpTo m).2 := by
    show (i.engine.acknowledge now m).2.buffer = _
    rw [hanswered]
  have hbuffer : many.engine.buffer = one.engine.buffer := by
    rw [hone]
    exact congrArg (·.engine.buffer) hmany
  have hperm : removedByMany.Perm (i.removed (.signal (.acknowledge now m))) := by
    have hremoved := i.removed_acknowledgments acks now
    rw [hlargest] at hremoved
    exact hremoved
  refine ⟨hbuffer, ?_, hperm, ?_, sink, ack2s, ?_⟩
  · show many.engine.buffer.lastAck = _
    rw [hbuffer, hone, SendBuffer.lastAck_removeUpTo]
    rfl
  · rw [hperm.length_eq, SendBuffer.fst_removeUpTo, List.countP_eq_length_filter]
    rfl
  · rw [hone]
    exact hmany

/-- The bound is 1, and packet 0 came late, so it stays.  The answers are refused. -/
theorem acknowledged_out_of_order :
    let b := (((({} : SendBuffer).removeUpTo 1).2.push { sequence := 0 }).push
      { sequence := 1 }).push { sequence := 3 }
    let i : Iteration FaultySink NoTimer :=
      { engine := { Engine.ofConfig {} { refuseControl := true } {} with buffer := b }
        queue := { capacity := 4 } }
    let ks := [1, 2, 3]
    let acks : List (Moment × Nat) := [(4, 3), (5, 1), (6, 3), (7, 2)]
    let many := i.replay (acknowledgments acks)
    let one := i.apply (.signal (.acknowledge 0 3))
    ks.max? = some 3 ∧ (∀ k, k ∈ acks.map Prod.snd ↔ k ∈ ks)
      ∧ many.engine.buffer = one.engine.buffer ∧ many.engine.buffer.keys = [0, 3]
      ∧ many.engine.lastAck = 3 ∧ many.engine.statistics.acks = 4
      ∧ (gather apply removed i (acknowledgments acks)).length = 1 := by
  intro b i ks acks many one
  have hmax : ks.max? = some 3 := by decide
  have hsame : ∀ k, k ∈ acks.map Prod.snd ↔ k ∈ ks := by
    intro k
    simp only [acks, ks, List.map_cons, List.map_nil, List.mem_cons, List.not_mem_nil, or_false]
    omega
  have hkeys : one.engine.buffer.keys = [0, 3] := by decide
  have hbound : max i.engine.lastAck 3 = 3 := by decide
  have hcount : (i.engine.buffer.removeUpTo 3).1 = 1 := by decide
  obtain ⟨hbuffer, hlast, -, hremoved, sink, ack2s, hmany⟩ :=
    acknowledgments_collapse i hmax hsame 0
  refine ⟨hmax, hsame, hbuffer, ?_, hlast.trans hbound, ?_, hremoved.trans hcount⟩
  · rw [hbuffer]
    exact hkeys
  · exact (congrArg (·.engine.statistics.acks) hmany).trans rfl

end Iteration

end ReliableSender
