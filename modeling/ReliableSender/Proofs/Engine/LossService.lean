/-
  ReliableSender.Proofs.Engine.LossService
  ────────────────────────────────────────
  **EVERY LOSS IS LOOKED UP, ONCE FOR EACH TIME IT WAS NEW.**

  Reports and silences come while the loop serves a loss: between the look
  at the list and the removal, or between the removal and the look at the
  buffer.  The removal comes before the look at the buffer, so a report in
  between puts the number back into the list, and the loop comes by again.
  Had the packet been looked up first, the removal would undo the report.

      added ++ unserved = lookedUp ++ unserved'

  is what each event keeps, as an account of numbers with how often they
  occur.

      balance        — the account of one event
      accounts       — the account of a history
      losses_served  — what is reported is looked up, and never more often
                       than it was new

  A silence reads the buffer and fills the list in two looks.  With something
  in between, it fills the list with the numbers of an older buffer, and that
  is a loss report of these numbers.
-/
import ReliableSender.Proofs.Engine.FeedbackOrder

namespace ReliableSender

/-! ## §1. New numbers in the list. -/

namespace LossList

/-- The numbers that are not in the list yet, each once. -/
def lacking (l : LossList) (lost : List Nat) : List Nat :=
  (distinct lost).filter (· ∉ l.entries)

theorem mem_lacking {l : LossList} {lost : List Nat} {s : Nat} :
    s ∈ l.lacking lost ↔ s ∈ lost ∧ s ∉ l := by
  unfold lacking
  rw [List.mem_filter, mem_distinct, decide_eq_true_eq]
  rfl

theorem lacking_nil (l : LossList) : l.lacking [] = [] := by
  refine List.eq_nil_iff_forall_not_mem.mpr fun s hs => ?_
  exact absurd (mem_lacking.mp hs).1 List.not_mem_nil

theorem nodup_lacking (l : LossList) (lost : List Nat) : (l.lacking lost).Nodup :=
  ((ascending_distinct lost).imp Nat.ne_of_lt).filter _

theorem nodup_entries (l : LossList) : l.entries.Nodup := l.ascending.imp Nat.ne_of_lt

/-- A list with the members of another, and some that it lacked. -/
theorem entries_perm_lacking {l l' : LossList} {lost : List Nat}
    (h : ∀ s, s ∈ l' ↔ s ∈ l ∨ s ∈ lost) : l'.entries.Perm (l.lacking lost ++ l.entries) := by
  have hapart : (l.lacking lost ++ l.entries).Nodup := by
    refine List.nodup_append'.mpr ⟨l.nodup_lacking lost, l.nodup_entries, fun s hs hmem => ?_⟩
    exact (mem_lacking.mp hs).2 hmem
  refine (List.perm_ext_iff_of_nodup l'.nodup_entries hapart).mpr fun s => ?_
  rw [List.mem_append, mem_lacking]
  have hs : s ∈ l'.entries ↔ s ∈ l ∨ s ∈ lost := h s
  rw [hs]
  by_cases hl : s ∈ l
  · exact iff_of_true (Or.inl hl) (Or.inr hl)
  · exact ⟨fun h => Or.inl ⟨h.resolve_left hl, hl⟩, fun h => h.elim (fun h => Or.inr h.1) Or.inl⟩

end LossList

/-! ## §2. What an event reports, adds and looks up. -/

/-- The loss that was taken out of the list and not looked up yet. -/
def Stage.taken : Stage → List Nat
  | .lossTaken s => [s]
  | _ => []

namespace Engine

variable {σ τ : Type}

/-- The numbers that feedback puts into the loss list. -/
def presumed (e : Engine σ τ) : Feedback → List Nat
  | .lossReport _ lost => lost
  | .silence => e.buffer.keys
  | .acknowledgment _ _ => []

variable [Sink σ] [SilenceTimer τ]

theorem mem_losses_feed_iff {e : Engine σ τ} {x : Feedback} {s : Nat} :
    s ∈ (e.feed x).losses ↔ s ∈ e.losses ∨ s ∈ e.presumed x := by
  rw [mem_losses_feed]
  cases x <;> simp [presumed, Feedback.lost]

/-- Without feedback the loss list stays as it is. -/
theorem handle_losses {e : Engine σ τ} {x : Signal σ} (hx : x.feedback? = none) :
    (e.handle x).losses = e.losses := by
  cases x with
  | acknowledge | negativeAcknowledge | expire => exact absurd hx (by simp [Signal.feedback?])
  | receive now p =>
    rcases p with ⟨timestamp, destination, _ | a | report | number | _⟩
    case ack | nak => exact absurd hx (by simp [Signal.feedback?])
    all_goals rfl
  | keepAlive now =>
    obtain ⟨statistics, he⟩ := e.sendKeepAlive_eq now
    show (e.sendKeepAlive now).2.losses = e.losses
    rw [he]
  | setFlowWindow | setDestination | packetize | nextSequence | requestStop | modifySink => rfl

end Engine

namespace Iteration

variable {σ τ : Type} [Sink σ] [SilenceTimer τ]

/-- The numbers that an event reports lost. -/
def reported (i : Iteration σ τ) : Event σ → List Nat
  | .signal x => x.feedback?.elim [] i.engine.presumed
  | .act | .offer _ | .close => []

/-- The numbers that are new in the loss list after an event. -/
def added (i : Iteration σ τ) (ev : Event σ) : List Nat :=
  i.engine.losses.lacking (i.reported ev)

/-- The number that an event looks up in the buffer. -/
def lookedUp (i : Iteration σ τ) : Event σ → List Nat
  | .act => i.stage.taken
  | .offer _ | .close | .signal _ => []

/-- The numbers that are still to be looked up. -/
def unserved (i : Iteration σ τ) : List Nat := i.stage.taken ++ i.engine.losses.entries

omit [Sink σ] [SilenceTimer τ] in
theorem mem_unserved {i : Iteration σ τ} {s : Nat} :
    s ∈ i.unserved ↔ i.stage = .lossTaken s ∨ s ∈ i.engine.losses := by
  unfold unserved
  rw [List.mem_append]
  have htaken : s ∈ i.stage.taken ↔ i.stage = .lossTaken s := by
    cases i.stage <;> simp [Stage.taken, eq_comm]
  rw [htaken]
  rfl

/-- The number that the loop has seen in the list is there until the loop takes it out. -/
def SeesLoss (i : Iteration σ τ) : Prop :=
  ∀ s, i.stage = .lossSeen s → s ∈ i.engine.losses

/-! ## §3. The account of one event. -/

omit [SilenceTimer τ] in
/-- An action takes the lowest number out of the list, or looks up the number that was
taken, or leaves both alone. -/
theorem balance_advance {i : Iteration σ τ} (hi : i.SeesLoss) :
    i.unserved.Perm (i.stage.taken ++ i.advance.unserved) ∧ i.advance.SeesLoss := by
  have hadv := i.advances
  unfold unserved
  generalize i.advance = i' at hadv ⊢
  cases hadv with
  | @seesLoss s hs hfirst =>
    rw [hs]
    refine ⟨List.Perm.refl _, fun t ht => ?_⟩
    obtain rfl := Stage.lossSeen.inj ht
    exact List.mem_of_mem_head? hfirst
  | @takesLoss s hs =>
    -- The number moves from the list into the hand of the loop; only one copy was there.
    rw [hs]
    exact ⟨List.perm_cons_erase (hi s hs), fun t ht => absurd ht (by simp)⟩
  | skipsLoss hs | findsLoss hs =>
    -- This is the look at the buffer, whatever it finds.
    rw [hs]
    exact ⟨List.Perm.refl _, fun t ht => absurd ht (by simp)⟩
  | @resends p hs =>
    rw [hs]
    have hr := i.engine.resends p
    generalize i.engine.resend p = r at hr ⊢
    cases hr <;> exact ⟨List.Perm.refl _, fun t ht => absurd ht (by simp)⟩
  | @transmits window p hs | @crashes window p hs =>
    rw [hs]
    have ht := i.engine.transmits p
    generalize i.engine.transmit p = r at *
    cases ht <;> exact ⟨List.Perm.refl _, fun t ht => absurd ht (by simp)⟩
  | rests hs =>
    rw [hs]
    exact ⟨List.Perm.refl _, fun t ht => absurd (hs.symm.trans ht) (by simp)⟩
  -- The other actions are about new data.
  | seesNone hs | countsFlight hs | readsWindow hs | windowFull hs | pollsNothing hs
  | pollsPacket hs | settles hs =>
    rw [hs]
    exact ⟨List.Perm.refl _, fun t ht => absurd ht (by simp)⟩

/-- **The account of one event.**  What it adds is to be looked up, and what it looks up is
not any more. -/
theorem balance {i : Iteration σ τ} (hi : i.SeesLoss) (ev : Event σ) :
    (i.added ev ++ i.unserved).Perm (i.lookedUp ev ++ (i.apply ev).unserved)
      ∧ (i.apply ev).SeesLoss := by
  cases ev with
  | offer | close =>
    show (i.engine.losses.lacking [] ++ i.unserved).Perm _ ∧ _
    rw [LossList.lacking_nil]
    exact ⟨List.Perm.refl _, hi⟩
  | act =>
    show (i.engine.losses.lacking [] ++ i.unserved).Perm _ ∧ _
    rw [LossList.lacking_nil, List.nil_append]
    show i.unserved.Perm (i.stage.taken ++ i.act.unserved) ∧ i.act.SeesLoss
    unfold act
    split
    · rename_i outcome hs
      unfold unserved
      rw [hs]
      exact ⟨List.Perm.refl _, fun s h => absurd h (by simp)⟩
    · exact balance_advance hi
  | signal x =>
    -- A signal leaves the stage as it is; only feedback reaches the list.
    have hmem : ∀ s, s ∈ (i.engine.handle x).losses
        ↔ s ∈ i.engine.losses ∨ s ∈ i.reported (.signal x) := by
      intro s
      show _ ↔ _ ∨ s ∈ x.feedback?.elim [] i.engine.presumed
      cases hx : x.feedback? with
      | none => rw [Engine.handle_losses hx, Option.elim_none, List.mem_nil_iff, or_false]
      | some y => rw [i.engine.handle_eq_feed hx, Engine.mem_losses_feed_iff, Option.elim_some]
    have hentries := LossList.entries_perm_lacking hmem
    refine ⟨?_, fun s hs => (hmem s).mpr (Or.inl (hi s hs))⟩
    calc List.Perm (i.added (.signal x) ++ (i.stage.taken ++ i.engine.losses.entries))
          (i.stage.taken ++ (i.added (.signal x) ++ i.engine.losses.entries)) :=
          List.perm_append_comm_assoc _ _ _
      List.Perm _ (i.stage.taken ++ (i.engine.handle x).losses.entries) :=
          hentries.symm.append_left _

/-! ## §4. The account of a history. -/

variable (config : Config) (sink : σ) (timer : τ)

/-- **The account of a history.**  Each addition was looked up, or is still to be. -/
theorem accounts (history : List (Event σ)) :
    (gather apply added (fresh config sink timer) history).Perm
        (gather apply lookedUp (fresh config sink timer) history
          ++ ((fresh config sink timer).replay history).unserved)
      ∧ ((fresh config sink timer).replay history).SeesLoss := by
  have hstart : (fresh config sink timer).SeesLoss := fun s hs => absurd hs (by simp [fresh])
  have hempty : (fresh config sink timer).unserved = [] := rfl
  obtain ⟨hperm, hsees⟩ := balance_foldl SeesLoss added lookedUp unserved
    (fun i hi ev => balance hi ev) hstart history
  rw [hempty, List.append_nil] at hperm
  exact ⟨hperm, hsees⟩

/-- What is to be looked up stays so until it is looked up. -/
theorem unserved_until_lookedUp {history : List (Event σ)} {s : Nat}
    (hs : s ∈ ((fresh config sink timer).replay history).unserved) (after : List (Event σ)) :
    s ∈ ((fresh config sink timer).replay (history ++ after)).unserved
      ∨ Sometime (fun between x =>
          s ∈ ((fresh config sink timer).replay (history ++ between)).lookedUp x) after := by
  induction after using List.reverseRecOn with
  | nil =>
    rw [List.append_nil]
    exact Or.inl hs
  | append_singleton after x ih =>
    rw [sometime_concat]
    rcases ih with ih | ih
    · rw [← List.append_assoc, replay_concat]
      obtain ⟨hstep, _⟩ := balance (accounts config sink timer (history ++ after)).2 x
      have hafter := hstep.mem_iff.mp (List.mem_append_right _ ih)
      rcases List.mem_append.mp hafter with hlooked | hwaits
      · exact Or.inr (Or.inr hlooked)
      · exact Or.inl hwaits
    · exact Or.inr (Or.inl ih)

/-- **Every loss is looked up, once for each time it was new.**  Whatever comes between the
actions of the loop, a number that was reported lost is in the list ever after, or was taken
out to be looked up next, or has been looked up since the report.  And no number is looked up
more often than it was new in the list. -/
theorem losses_served (history : List (Event σ)) :
    (∀ before ev after s, history = before ++ ev :: after →
        s ∈ ((fresh config sink timer).replay before).reported ev →
        s ∈ ((fresh config sink timer).replay history).engine.losses
          ∨ ((fresh config sink timer).replay history).stage = .lossTaken s
          ∨ Sometime (fun between x =>
              s ∈ ((fresh config sink timer).replay (before ++ ev :: between)).lookedUp x) after)
      ∧ ∀ s, (gather apply lookedUp (fresh config sink timer) history).count s
          ≤ (gather apply added (fresh config sink timer) history).count s := by
  refine ⟨fun before ev after s hsplit hs => ?_, fun s => ?_⟩
  · -- The report puts the number among those to be looked up.
    have hreport : s ∈ ((fresh config sink timer).replay (before ++ [ev])).unserved := by
      rw [replay_concat]
      obtain ⟨hstep, _⟩ := balance (accounts config sink timer before).2 ev
      generalize (fresh config sink timer).replay before = i at hs hstep ⊢
      have hbefore : s ∈ i.added ev ++ i.unserved := by
        by_cases hl : s ∈ i.engine.losses
        · exact List.mem_append_right _ (mem_unserved.mpr (Or.inr hl))
        · exact List.mem_append_left _ (LossList.mem_lacking.mpr ⟨hs, hl⟩)
      -- The event is a signal, and no action that looks something up.
      have hnone : i.lookedUp ev = [] := by
        cases ev with
        | act => exact absurd hs List.not_mem_nil
        | offer | close | signal => rfl
      rw [hnone, List.nil_append] at hstep
      exact hstep.mem_iff.mp hbefore
    have hlater := unserved_until_lookedUp config sink timer hreport after
    have hjoin : ∀ rest, before ++ [ev] ++ rest = before ++ ev :: rest := by
      intro rest
      rw [List.append_assoc]
      rfl
    simp only [hjoin, ← hsplit] at hlater
    rcases hlater with hwaits | hlooked
    · rcases mem_unserved.mp hwaits with htaken | hlisted
      · exact Or.inr (Or.inl htaken)
      · exact Or.inl hlisted
    · exact Or.inr (Or.inr hlooked)
  · have hcount := ((accounts config sink timer history).1).count_eq s
    rw [List.count_append] at hcount
    omega

/-- Packet 0 is reported lost a second time after the loop took it out of the list and before
it looks it up: the number is new again, and waits for a second look. -/
theorem report_after_removal_served :
    let start : Iteration ChannelSink NoTimer := .fresh {} {} {}
    let before : List (Event ChannelSink) :=
      .offer { sequence := 0 } :: List.replicate 7 .act
        ++ [.signal (.negativeAcknowledge 0 [0]), .act, .act]
    let report : Event ChannelSink := .signal (.negativeAcknowledge 0 [0])
    let i := start.replay (before ++ [report, .act])
    (start.replay before).stage = .lossTaken 0 ∧ 0 ∈ (start.replay before).reported report
      ∧ (0 ∈ i.engine.losses ∨ i.stage = .lossTaken 0
        ∨ Sometime (fun between x =>
            0 ∈ (start.replay (before ++ report :: between)).lookedUp x) [.act])
      ∧ (gather apply lookedUp start (before ++ [report, .act])).count 0 = 1
      ∧ (gather apply added start (before ++ [report, .act])).count 0 = 2 := by
  intro start before report i
  have hreported : 0 ∈ (start.replay before).reported report := List.mem_singleton.mpr rfl
  obtain ⟨hserved, _⟩ :=
    losses_served {} ({} : ChannelSink) ({} : NoTimer) (before ++ [report, .act])
  exact ⟨by cbv, hreported, hserved before report [.act] 0 rfl hreported, by cbv, by cbv⟩

end Iteration

end ReliableSender
