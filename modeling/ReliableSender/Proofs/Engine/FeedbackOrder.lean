/-
  ReliableSender.Proofs.Engine.FeedbackOrder
  ──────────────────────────────────────────
  **THE ORDER IN WHICH FEEDBACK ARRIVES DOES NOT SHOW.**

  The network delivers acknowledgments and loss reports in any order, and a
  timeout falls anywhere between them.  A timeout presumes lost what is in
  flight at that moment, so the loss list depends on the order.  What is
  sent again does not: two loss lists differ in numbers only that are not
  buffered any more, and serving those sends nothing.

      feedAll_eq          — what all feedback leaves, the loss list apart
      mem_losses_feedAll  — which buffered numbers it leaves in the loss list
      feedback_order      — two orders call for the same packets, in the same order
-/
import ReliableSender.Proofs.Chronicle
import ReliableSender.Proofs.Engine.Steps
import ReliableSender.Transport.Channel
import Mathlib

namespace ReliableSender

/-! ## §1. Feedback. -/

/-- What the peer says of the data, and that it says nothing. -/
inductive Feedback where
  /-- Everything below `k` has arrived. -/
  | acknowledgment (now : Moment) (k : Nat)
  | lossReport (now : Moment) (lost : List Nat)
  | silence

namespace Feedback

/-- Everything below has arrived. -/
def bound : Feedback → Nat
  | acknowledgment _ k => k
  | _ => 0

/-- The numbers that are reported lost. -/
def lost : Feedback → List Nat
  | lossReport _ lost => lost
  | _ => []

/-- A number counts as lost, if it is buffered. -/
def Presumes (x : Feedback) (s : Nat) : Prop := s ∈ x.lost ∨ x = silence

/-- The packet that answers. -/
def answer? (destination : UInt32) : Feedback → Option Packet
  | acknowledgment now k =>
    some (.control { timestamp := now.timestamp, destination, body := .ack2 k })
  | _ => none

/-- Count the arrival. -/
def count (s : Statistics) : Feedback → Statistics
  | acknowledgment _ _ => s.countAck
  | lossReport _ _ => s.countNak
  | silence => s.countExpiration

/-- A report is a sign of life. -/
def resetTimer {τ : Type} [SilenceTimer τ] (t : τ) : Feedback → τ
  | lossReport now _ => SilenceTimer.reset now t
  | _ => t

/-- Arrivals are counted alike in any order. -/
theorem count_comm (s : Statistics) (x y : Feedback) :
    count (count s x) y = count (count s y) x := by
  cases x <;> cases y <;> rfl

/-- The counter of answers is apart from those of arrivals. -/
theorem count_ack2s (s : Statistics) (x : Feedback) (ack2s : UInt64) :
    count { s with ack2s } x = { count s x with ack2s } := by
  cases x <;> rfl

end Feedback

/-- The feedback that a signal carries. -/
def Signal.feedback? {σ : Type} : Signal σ → Option Feedback
  | .acknowledge now k => some (.acknowledgment now k)
  | .negativeAcknowledge now lost => some (.lossReport now lost)
  | .expire => some .silence
  | .receive now p =>
    match p.body with
    | .ack a => some (.acknowledgment now a.number)
    | .nak report => some (.lossReport now report.sequences)
    | _ => none
  | _ => none

namespace Engine

variable {σ τ : Type} [Sink σ] [SilenceTimer τ]

/-- What feedback leaves of an engine. -/
def feed (e : Engine σ τ) : Feedback → Engine σ τ
  | .acknowledgment now k => (e.acknowledge now k).2
  | .lossReport now lost => (e.negativeAcknowledge now lost).2
  | .silence => e.expire

/-- What feedback leaves, one after the other. -/
def feedAll (e : Engine σ τ) (xs : List Feedback) : Engine σ τ := xs.foldl feed e

theorem feedAll_concat (e : Engine σ τ) (xs : List Feedback) (x : Feedback) :
    e.feedAll (xs ++ [x]) = (e.feedAll xs).feed x := by
  unfold feedAll
  rw [List.foldl_append]
  rfl

theorem handle_eq_feed {x : Signal σ} {y : Feedback} (e : Engine σ τ)
    (h : x.feedback? = some y) : e.handle x = e.feed y := by
  cases x with
  | acknowledge | negativeAcknowledge | expire =>
    obtain rfl := Option.some.inj h
    rfl
  | receive now p =>
    rcases p with ⟨timestamp, destination, _ | a | report | number | _⟩
    case ack | nak =>
      obtain rfl := Option.some.inj h
      rfl
    all_goals exact absurd h (by simp [Signal.feedback?])
  | _ => exact absurd h (by simp [Signal.feedback?])

theorem foldl_handle {xs : List (Signal σ)} (e : Engine σ τ)
    (h : ∀ x ∈ xs, x.feedback?.isSome = true) :
    xs.foldl handle e = e.feedAll (xs.filterMap Signal.feedback?) := by
  induction xs generalizing e with
  | nil => rfl
  | cons x xs ih =>
    obtain ⟨y, hy⟩ := Option.isSome_iff_exists.mp (h x List.mem_cons_self)
    have hrest := ih (e.feed y) fun z hz => h z (List.mem_cons_of_mem x hz)
    rw [List.filterMap_cons_some hy, List.foldl_cons, e.handle_eq_feed hy, hrest]
    rfl

/-! ## §2. What feedback leaves. -/

omit [SilenceTimer τ] in
/-- An acknowledgment is answered, and the answer counted if the sink takes it. -/
theorem acknowledge_answered (e : Engine σ τ) (now : Moment) (k : Nat) :
    ∃ ack2s, (e.acknowledge now k).2
      = { e with
          buffer := (e.buffer.removeUpTo k).2
          sink := (Sink.attempt (e.control now (.ack2 k)) e.sink).2
          statistics := { e.statistics.countAck with ack2s } }
      ∧ ack2s = e.statistics.ack2s
        + if (Sink.attempt (e.control now (.ack2 k)) e.sink).1 = .ok () then 1 else 0 := by
  -- Dropping what is acknowledged changes neither the sink nor the address.
  have hsend : (e.dropAcknowledged k).sendControl now (.ack2 k)
      = ((Sink.attempt (e.control now (.ack2 k)) e.sink).1,
        { e.dropAcknowledged k with
          sink := (Sink.attempt (e.control now (.ack2 k)) e.sink).2 }) := rfl
  unfold acknowledge
  rw [hsend]
  rcases Sink.attempt (e.control now (.ack2 k)) e.sink with ⟨fault | _, sink⟩
  · exact ⟨e.statistics.ack2s, rfl, (UInt64.add_zero _).symm⟩
  · exact ⟨e.statistics.ack2s + 1, rfl, rfl⟩

/-- What one piece of feedback leaves, the loss list apart. -/
theorem feed_eq (e : Engine σ τ) (x : Feedback) :
    ∃ losses sink ack2s, e.feed x
      = { e with
          buffer := (e.buffer.removeUpTo x.bound).2
          losses
          sink
          timer := x.resetTimer e.timer
          statistics := { x.count e.statistics with ack2s } } := by
  cases x with
  | acknowledgment now k =>
    obtain ⟨ack2s, he, _⟩ := e.acknowledge_answered now k
    exact ⟨_, _, ack2s, he⟩
  | lossReport now lost =>
    have hbuffer : (e.buffer.removeUpTo (Feedback.lossReport now lost).bound).2 = e.buffer :=
      e.buffer.removeUpTo_zero
    rw [hbuffer]
    exact ⟨_, _, e.statistics.ack2s, rfl⟩
  | silence =>
    have hbuffer : (e.buffer.removeUpTo Feedback.silence.bound).2 = e.buffer :=
      e.buffer.removeUpTo_zero
    rw [hbuffer]
    exact ⟨_, _, e.statistics.ack2s, rfl⟩

/-- Which losses one piece of feedback leaves. -/
theorem mem_losses_feed {e : Engine σ τ} {x : Feedback} {s : Nat} :
    s ∈ (e.feed x).losses
      ↔ s ∈ e.losses ∨ s ∈ x.lost ∨ x = .silence ∧ s ∈ e.buffer.keys := by
  cases x with
  | acknowledgment now k =>
    obtain ⟨ack2s, he, _⟩ := e.acknowledge_answered now k
    have hlosses : (e.feed (.acknowledgment now k)).losses = e.losses := by
      show (e.acknowledge now k).2.losses = e.losses
      rw [he]
    rw [hlosses]
    refine ⟨Or.inl, fun h => ?_⟩
    rcases h with h | h | ⟨h, _⟩
    · exact h
    · exact absurd h List.not_mem_nil
    · exact absurd h (by simp)
  | lossReport now lost =>
    show s ∈ (e.losses.insertAll lost).2 ↔ s ∈ e.losses ∨ s ∈ lost ∨ _
    rw [LossList.mem_insertAll]
    refine ⟨fun h => ?_, fun h => ?_⟩
    · exact h.imp_right Or.inl
    · rcases h with h | h | ⟨h, _⟩
      · exact Or.inl h
      · exact Or.inr h
      · exact absurd h (by simp)
  | silence =>
    show s ∈ (e.losses.insertAll e.buffer.keys).2 ↔ _
    rw [LossList.mem_insertAll]
    refine ⟨fun h => h.imp_right fun h => Or.inr ⟨rfl, h⟩, fun h => ?_⟩
    rcases h with h | h | ⟨_, h⟩
    · exact Or.inl h
    · exact absurd h List.not_mem_nil
    · exact Or.inr h

/-- **What feedback leaves, the loss list apart.**  The largest acknowledgment decides what
is buffered, and each arrival is counted. -/
theorem feedAll_eq (e : Engine σ τ) (xs : List Feedback) :
    ∃ losses sink ack2s, e.feedAll xs
      = { e with
          buffer := (e.buffer.removeUpTo (largest (xs.map Feedback.bound))).2
          losses
          sink
          timer := xs.foldl Feedback.resetTimer e.timer
          statistics := { xs.foldl Feedback.count e.statistics with ack2s } } := by
  induction xs using List.reverseRecOn with
  | nil =>
    have hbuffer : (e.buffer.removeUpTo (largest (([] : List Feedback).map Feedback.bound))).2
        = e.buffer := e.buffer.removeUpTo_zero
    rw [hbuffer]
    exact ⟨e.losses, e.sink, e.statistics.ack2s, rfl⟩
  | append_singleton xs x ih =>
    obtain ⟨losses, sink, ack2s, he⟩ := ih
    obtain ⟨losses', sink', ack2s', hx⟩ := (e.feedAll xs).feed_eq x
    have hlargest : largest ((xs ++ [x]).map Feedback.bound)
        = max (largest (xs.map Feedback.bound)) x.bound := by
      rw [List.map_append, largest_append]
      exact congrArg (max _) (largest_singleton x.bound)
    have hbuffer : ((e.feedAll xs).buffer.removeUpTo x.bound).2
        = (e.buffer.removeUpTo (largest ((xs ++ [x]).map Feedback.bound))).2 := by
      rw [he, SendBuffer.removeUpTo_removeUpTo, hlargest]
    have hcount : (x.count (e.feedAll xs).statistics)
        = { (xs ++ [x]).foldl Feedback.count e.statistics with ack2s } := by
      rw [he, List.foldl_append]
      exact Feedback.count_ack2s _ x ack2s
    have htimer : x.resetTimer (e.feedAll xs).timer
        = (xs ++ [x]).foldl Feedback.resetTimer e.timer := by
      rw [he, List.foldl_append]
      rfl
    refine ⟨losses', sink', ack2s', ?_⟩
    rw [feedAll_concat, hx, hbuffer, hcount, htimer, he]

theorem feedAll_buffer (e : Engine σ τ) (xs : List Feedback) :
    (e.feedAll xs).buffer = (e.buffer.removeUpTo (largest (xs.map Feedback.bound))).2 := by
  obtain ⟨losses, sink, ack2s, he⟩ := e.feedAll_eq xs
  rw [he]

/-- **Which losses feedback leaves, as far as they are buffered.**  Those that were there,
those that were reported, and all of them after a silence. -/
theorem mem_losses_feedAll {e : Engine σ τ} {xs : List Feedback} {s : Nat}
    (hs : s ∈ (e.feedAll xs).buffer.keys) :
    s ∈ (e.feedAll xs).losses ↔ s ∈ e.losses ∨ ∃ x ∈ xs, x.Presumes s := by
  induction xs using List.reverseRecOn with
  | nil => exact ⟨Or.inl, fun h => h.resolve_right (by simp)⟩
  | append_singleton xs x ih =>
    -- What is buffered at the end was buffered all the time.
    have hbefore : s ∈ (e.feedAll xs).buffer.keys := by
      obtain ⟨losses, sink, ack2s, hx⟩ := (e.feedAll xs).feed_eq x
      rw [feedAll_concat, hx] at hs
      exact (SendBuffer.mem_keys_removeUpTo.mp hs).1
    rw [feedAll_concat, mem_losses_feed, ih hbefore]
    constructor
    · rintro ((h | ⟨y, hy, h⟩) | h | ⟨h, _⟩)
      · exact Or.inl h
      · exact Or.inr ⟨y, List.mem_append_left _ hy, h⟩
      · exact Or.inr ⟨x, List.mem_concat_self, Or.inl h⟩
      · exact Or.inr ⟨x, List.mem_concat_self, Or.inr h⟩
    · rintro (h | ⟨y, hy, h⟩)
      · exact Or.inl (Or.inl h)
      · rcases List.mem_append.mp hy with hy | hy
        · exact Or.inl (Or.inr ⟨y, hy, h⟩)
        · obtain rfl := List.mem_singleton.mp hy
          exact Or.inr (h.imp_right fun h => ⟨h, hbefore⟩)

/-! ## §3. Answers. -/

/-- The answers that feedback calls for. -/
def dueAnswers (e : Engine σ τ) (xs : List Feedback) : List Packet :=
  xs.filterMap (Feedback.answer? e.session.destination)

/-- The sink takes every answer. -/
def AnswersAll (e : Engine σ τ) (xs : List Feedback) : Prop :=
  Always (fun before x => ∀ p, x.answer? e.session.destination = some p →
    (Sink.attempt p (e.feedAll before).sink).1 = .ok ()) xs

/-- Feedback, and the engine that it leaves, has put answers on the wire and nothing else. -/
structure Answers (e fed : Engine (Wiretap σ) τ) (xs : List Feedback) (answers : List Packet) :
    Prop where
  wire : fed.sink.taken = e.sink.taken ++ answers
  due : answers.Sublist (e.dueAnswers xs)
  complete : e.AnswersAll xs → answers = e.dueAnswers xs
  counted : fed.statistics.ack2s = e.statistics.ack2s + UInt64.ofNat answers.length

/-- One piece of feedback is answered as it asks for, or the sink refuses the answer. -/
theorem feed_answer (e : Engine (Wiretap σ) τ) (x : Feedback) :
    ∃ answers, (e.feed x).sink.taken = e.sink.taken ++ answers
      ∧ (answers = (x.answer? e.session.destination).toList
        ∨ answers = [] ∧ ∃ p, x.answer? e.session.destination = some p
            ∧ (Sink.attempt p e.sink).1 ≠ .ok ())
      ∧ (e.feed x).statistics.ack2s = e.statistics.ack2s + UInt64.ofNat answers.length := by
  cases x with
  | acknowledgment now k =>
    obtain ⟨ack2s, he, hack2s⟩ := e.acknowledge_answered now k
    have htaken := Wiretap.attempt_taken (e.control now (.ack2 k)) e.sink
    have hfeed : e.feed (.acknowledgment now k) = (e.acknowledge now k).2 := rfl
    rw [hfeed, he, hack2s]
    cases hr : (Sink.attempt (e.control now (.ack2 k)) e.sink).1 with
    | ok =>
      rw [hr] at htaken
      refine ⟨[e.control now (.ack2 k)], htaken, Or.inl rfl, ?_⟩
      rw [if_pos rfl]
      rfl
    | error fault =>
      rw [hr] at htaken
      refine ⟨[], htaken.trans (List.append_nil _).symm,
        Or.inr ⟨rfl, e.control now (.ack2 k), rfl, ?_⟩, ?_⟩
      · rw [hr]
        simp
      · rw [if_neg (by simp)]
        rfl
  | lossReport | silence =>
    exact ⟨[], (List.append_nil _).symm, Or.inl rfl, (UInt64.add_zero _).symm⟩

theorem answers_feedAll (e : Engine (Wiretap σ) τ) (xs : List Feedback) :
    ∃ answers, e.Answers (e.feedAll xs) xs answers := by
  induction xs using List.reverseRecOn with
  | nil =>
    exact ⟨[], (List.append_nil _).symm, List.Sublist.refl _, fun _ => rfl,
      (UInt64.add_zero _).symm⟩
  | append_singleton xs x ih =>
    obtain ⟨answers, hwire, hdue, hcomplete, hcounted⟩ := ih
    obtain ⟨more, hwire', hmore, hcounted'⟩ := (e.feedAll xs).feed_answer x
    have haddress : (e.feedAll xs).session.destination = e.session.destination := by
      obtain ⟨losses, sink, ack2s, he⟩ := e.feedAll_eq xs
      rw [he]
    rw [haddress] at hmore
    have hsplit : e.dueAnswers (xs ++ [x])
        = e.dueAnswers xs ++ (x.answer? e.session.destination).toList :=
      List.filterMap_append
    refine ⟨answers ++ more, ?_, ?_, fun hall => ?_, ?_⟩
    · rw [feedAll_concat, hwire', hwire, List.append_assoc]
    · rw [hsplit]
      refine hdue.append ?_
      rcases hmore with rfl | ⟨rfl, _⟩
      · exact List.Sublist.refl _
      · exact List.nil_sublist _
    · obtain ⟨hbefore, hlast⟩ := always_concat.mp hall
      rw [hsplit, hcomplete hbefore]
      rcases hmore with rfl | ⟨_, p, hp, hrefused⟩
      · rfl
      · exact absurd (hlast p hp) hrefused
    · rw [feedAll_concat, hcounted', hcounted, List.length_append, UInt64.ofNat_add,
        UInt64.add_assoc]

/-! ## §4. What is sent again. -/

/-- The engine and the queue once all losses are served. -/
def served (e : Engine σ τ) (q : IngressQueue) : Engine σ τ × IngressQueue :=
  e.afterSteps q e.losses.size

/-- The sink takes what serving the losses sends. -/
def ServedFreely (e : Engine σ τ) (q : IngressQueue) : Prop :=
  ∀ m < e.losses.size, isRefusal (e.outcomeAfter q m) = false

/-- What the losses call for that feedback leaves. -/
theorem demanded_feedAll (e : Engine σ τ) (xs : List Feedback) :
    (∀ p, p ∈ (e.feedAll xs).demanded (e.feedAll xs).losses.size
        ↔ p ∈ (e.feedAll xs).buffer.entries
          ∧ (p.sequence ∈ e.losses ∨ ∃ x ∈ xs, x.Presumes p.sequence))
      ∧ AscendingBy DataPacket.sequence
          ((e.feedAll xs).demanded (e.feedAll xs).losses.size) := by
  rw [demanded_size]
  refine ⟨fun p => ?_, (e.feedAll xs).buffer.ascending.filter _⟩
  rw [List.mem_filter, List.contains_iff_mem]
  refine and_congr_right fun hp => ?_
  exact mem_losses_feedAll (SendBuffer.mem_keys.mpr ⟨p, hp, rfl⟩)

/-- In any order, the same feedback calls for the same packets, in the same order. -/
theorem demanded_perm (e : Engine σ τ) {xs ys : List Feedback} (h : xs.Perm ys) :
    (e.feedAll xs).demanded (e.feedAll xs).losses.size
      = (e.feedAll ys).demanded (e.feedAll ys).losses.size := by
  have hbuffer : (e.feedAll xs).buffer = (e.feedAll ys).buffer := by
    rw [feedAll_buffer, feedAll_buffer, largest_perm (h.map Feedback.bound)]
  rw [demanded_size, demanded_size, ← hbuffer]
  refine List.filter_congr fun p hp => ?_
  have hx : p.sequence ∈ (e.feedAll xs).buffer.keys := SendBuffer.mem_keys.mpr ⟨p, hp, rfl⟩
  have hy : p.sequence ∈ (e.feedAll ys).buffer.keys := hbuffer ▸ hx
  rw [Bool.eq_iff_iff, List.contains_iff_mem, List.contains_iff_mem]
  calc p.sequence ∈ (e.feedAll xs).losses
      ↔ p.sequence ∈ e.losses ∨ ∃ x ∈ xs, x.Presumes p.sequence := mem_losses_feedAll hx
    _ ↔ p.sequence ∈ e.losses ∨ ∃ x ∈ ys, x.Presumes p.sequence := by simp only [h.mem_iff]
    _ ↔ p.sequence ∈ (e.feedAll ys).losses := (mem_losses_feedAll hy).symm

attribute [ext] LossList

/-- What is left once all losses are served, in terms of what there was before the feedback. -/
theorem served_feedAll {e : Engine (Wiretap σ) τ} {q : IngressQueue} {xs : List Feedback}
    (h : (e.feedAll xs).ServedFreely q) :
    ∃ sink skipped ack2s, ((e.feedAll xs).served q).1
      = { e with
          buffer := (e.buffer.removeUpTo (largest (xs.map Feedback.bound))).2
          losses := {}
          sink
          timer := xs.foldl Feedback.resetTimer e.timer
          statistics := { xs.foldl Feedback.count e.statistics with
            skipped
            ack2s
            retransmitted := (xs.foldl Feedback.count e.statistics).retransmitted
              + UInt64.ofNat ((e.feedAll xs).demanded (e.feedAll xs).losses.size).length } } := by
  have hserves : (e.feedAll xs).Serves q (e.feedAll xs).losses.size := serves (Nat.le_refl _) h
  have hempty : ((e.feedAll xs).served q).1.losses = {} := by
    refine LossList.ext (hserves.losses.trans ?_)
    exact List.drop_eq_nil_of_le (Nat.le_refl _)
  obtain ⟨losses, sink, skipped, hserved⟩ := hserves.others
  obtain ⟨losses', sink', ack2s, hfed⟩ := e.feedAll_eq xs
  unfold served at hempty ⊢
  generalize ((e.feedAll xs).demanded (e.feedAll xs).losses.size).length = resent at *
  rw [hserved] at hempty ⊢
  obtain rfl : losses = {} := hempty
  rw [hfed]
  exact ⟨sink, skipped, ack2s, rfl⟩

/-- What feedback comes to, from its arrival until all losses are served. -/
structure Resolves (e fed : Engine (Wiretap σ) τ) (q : IngressQueue) (xs : List Feedback)
    (answers : List Packet) (resent : List DataPacket) : Prop where
  answered : e.Answers fed xs answers
  /-- The loss list becomes empty with the last of these steps. -/
  waiting : ∀ m ≤ fed.losses.size,
    (fed.afterSteps q m).1.hasLosses = decide (m < fed.losses.size)
  /-- Each of these steps sends a packet again, or skips. -/
  attempts : fed.attempts q fed.losses.size = resent.map (.ok <| .retransmitted ·.sequence)
  wire : (fed.served q).1.sink.taken = fed.sink.taken ++ resent.map .data
  queue : (fed.served q).2 = q
  losses : (fed.served q).1.losses = {}
  /-- The timer has been reset by each report, as they arrived. -/
  timer : (fed.served q).1.timer = xs.foldl Feedback.resetTimer e.timer
  /-- Sent again is what is still buffered and counts as lost, lowest first. -/
  members : ∀ p, p ∈ resent ↔ p ∈ fed.buffer.entries
    ∧ (p.sequence ∈ e.losses ∨ ∃ x ∈ xs, x.Presumes p.sequence)
  lowestFirst : AscendingBy DataPacket.sequence resent

theorem resolves {e : Engine (Wiretap σ) τ} {q : IngressQueue} {xs : List Feedback}
    (h : (e.feedAll xs).ServedFreely q) :
    ∃ answers, e.Resolves (e.feedAll xs) q xs answers
      ((e.feedAll xs).demanded (e.feedAll xs).losses.size) := by
  obtain ⟨answers, hanswers⟩ := e.answers_feedAll xs
  have hserves : ∀ m ≤ (e.feedAll xs).losses.size, (e.feedAll xs).Serves q m := fun m hm =>
    serves hm fun n hn => h n (Nat.lt_of_lt_of_le hn hm)
  have hall := hserves _ (Nat.le_refl _)
  obtain ⟨hmembers, hascending⟩ := e.demanded_feedAll xs
  obtain ⟨sink, skipped, ack2s, hleft⟩ := served_feedAll h
  refine ⟨answers, hanswers, fun m hm => (hserves m hm).hasLosses, hall.attempts, hall.wire,
    hall.queue, ?_, ?_, hmembers, hascending⟩
  · rw [hleft]
  · rw [hleft]

/-- The engines differ at most in the sink, the timer and the counters of skipped losses and
of answers. -/
def Alike (e e' : Engine σ τ) : Prop :=
  ∃ sink timer skipped ack2s,
    e' = { e with sink, timer, statistics := { e.statistics with skipped, ack2s } }

/-- **The order of feedback.**  Two orders of the same feedback, if the sink takes what is
sent again, come to the same: the same packets go out, lowest first, until no loss is left,
and apart from the answers, which follow the order, and the skipped losses, the engines end
up alike. -/
theorem feedback_order (e : Engine (Wiretap σ) τ) (q : IngressQueue)
    {xs ys : List (Signal (Wiretap σ))} (hperm : xs.Perm ys)
    (hfeedback : ∀ x ∈ xs, x.feedback?.isSome = true)
    (hx : (xs.foldl handle e).ServedFreely q) (hy : (ys.foldl handle e).ServedFreely q) :
    ∃ answersX answersY resent,
      e.Resolves (xs.foldl handle e) q (xs.filterMap Signal.feedback?) answersX resent
      ∧ e.Resolves (ys.foldl handle e) q (ys.filterMap Signal.feedback?) answersY resent
      ∧ (e.dueAnswers (xs.filterMap Signal.feedback?)).Perm
          (e.dueAnswers (ys.filterMap Signal.feedback?))
      ∧ Alike ((xs.foldl handle e).served q).1 ((ys.foldl handle e).served q).1 := by
  have hfeedback' : ∀ y ∈ ys, y.feedback?.isSome = true := fun y hy =>
    hfeedback y (hperm.mem_iff.mpr hy)
  have hpermed := hperm.filterMap Signal.feedback?
  rw [e.foldl_handle hfeedback] at hx ⊢
  rw [e.foldl_handle hfeedback'] at hy ⊢
  generalize xs.filterMap Signal.feedback? = us at *
  generalize ys.filterMap Signal.feedback? = vs at *
  obtain ⟨answersX, hansX⟩ := resolves hx
  obtain ⟨answersY, hansY⟩ := resolves hy
  rw [← e.demanded_perm hpermed] at hansY
  refine ⟨answersX, answersY, _, hansX, hansY, hpermed.filterMap _, ?_⟩
  obtain ⟨sink, skipped, ack2s, hleftX⟩ := served_feedAll hx
  obtain ⟨sink', skipped', ack2s', hleftY⟩ := served_feedAll hy
  have hcount : us.foldl Feedback.count e.statistics = vs.foldl Feedback.count e.statistics :=
    hpermed.foldl_eq' (fun x _ y _ s => Feedback.count_comm s x y) _
  have hbound := largest_perm (hpermed.map Feedback.bound)
  refine ⟨sink', vs.foldl Feedback.resetTimer e.timer, skipped', ack2s', ?_⟩
  rw [hleftY, hleftX, ← e.demanded_perm hpermed, ← hcount, ← hbound]

/-- Packets 0, 1 and 2 are in flight; the peer acknowledges 0, reports 2 and 5 lost, and is
silent.  If the silence comes first, 0 counts as lost too, and is skipped later. -/
theorem silence_first_or_last :
    let e : Engine (Wiretap ChannelSink) NoTimer :=
      { Engine.ofConfig {} { sink := {} } {} with
        buffer := (((({} : SendBuffer).push { sequence := 0 }).push { sequence := 1 }).push
          { sequence := 2 })
        sentBound := 3 }
    let q : IngressQueue := { capacity := 4 }
    let xs : List (Signal (Wiretap ChannelSink)) :=
      [.acknowledge 0 1, .negativeAcknowledge 0 [5, 2], .expire]
    let ys : List (Signal (Wiretap ChannelSink)) :=
      [.expire, .negativeAcknowledge 0 [5, 2], .acknowledge 0 1]
    (xs.foldl handle e).losses.entries = [1, 2, 5]
      ∧ (ys.foldl handle e).losses.entries = [0, 1, 2, 5]
      ∧ (xs.Perm ys ∧ (∀ x ∈ xs, x.feedback?.isSome = true)
        ∧ (xs.foldl handle e).ServedFreely q ∧ (ys.foldl handle e).ServedFreely q)
      ∧ ∃ answersX answersY resent,
          e.Resolves (xs.foldl handle e) q (xs.filterMap Signal.feedback?) answersX resent
          ∧ e.Resolves (ys.foldl handle e) q (ys.filterMap Signal.feedback?) answersY resent
          ∧ Alike ((xs.foldl handle e).served q).1 ((ys.foldl handle e).served q).1 := by
  intro e q xs ys
  have hperm : xs.Perm ys := (List.reverse_perm xs).symm
  have hfeedback : ∀ x ∈ xs, x.feedback?.isSome = true := by
    simp [xs, Signal.feedback?]
  have hlossesX : (xs.foldl handle e).losses.entries = [1, 2, 5] := by cbv
  have hlossesY : (ys.foldl handle e).losses.entries = [0, 1, 2, 5] := by cbv
  have hx : (xs.foldl handle e).ServedFreely q := by
    intro m hm
    have hlt : m < 3 := Nat.lt_of_lt_of_eq hm (congrArg List.length hlossesX)
    interval_cases m <;> cbv
  have hy : (ys.foldl handle e).ServedFreely q := by
    intro m hm
    have hlt : m < 4 := Nat.lt_of_lt_of_eq hm (congrArg List.length hlossesY)
    interval_cases m <;> cbv
  obtain ⟨answersX, answersY, resent, hX, hY, _, halike⟩ :=
    feedback_order e q hperm hfeedback hx hy
  exact ⟨hlossesX, hlossesY, ⟨hperm, hfeedback, hx, hy⟩,
    answersX, answersY, resent, hX, hY, halike⟩

end Engine

end ReliableSender
