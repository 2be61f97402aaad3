/-
  ReliableSender.Proofs.Transport.Wiretap
  ───────────────────────────────────────
  **WHAT HAS BEEN ON THE WIRE.**

  A sink keeps of its deliveries what it likes.  A `Wiretap` is any sink
  with a list of the packets it has delivered beside it; it answers as the
  sink does, and the sink never sees the list.

      attempt_wiretap     — the sink is undisturbed, and deliveries are noted
      firstTransmissions  — the data packets whose number was not delivered before
-/
import ReliableSender.Proofs.Engine.Effects

namespace ReliableSender

/-! ## §1. Tapping a sink. -/

/-- A sink and the packets it has delivered, oldest first. -/
structure Wiretap (σ : Type) where
  sink : σ
  taken : List Packet := []

namespace Wiretap

variable {σ : Type} [Sink σ]

def send (p : Packet) (w : Wiretap σ) : Delivery × Wiretap σ :=
  match Sink.send p w.sink with
  | (.delivered octets, sink) => (.delivered octets, { sink, taken := w.taken ++ [p] })
  | (.failed cause, sink) => (.failed cause, { w with sink })
  | (.crashed, sink) => (.crashed, { w with sink })

instance : Sink (Wiretap σ) := ⟨send⟩

/-- The packets on the wire after a delivery was tried. -/
def noted (p : Packet) (taken : List Packet) : Except Fault Unit → List Packet
  | .ok _ => taken ++ [p]
  | .error _ => taken

/-- The sink is undisturbed, and deliveries are noted. -/
theorem attempt_wiretap (p : Packet) (w : Wiretap σ) :
    Sink.attempt p w = ((Sink.attempt p w.sink).1,
      { sink := (Sink.attempt p w.sink).2
        taken := noted p w.taken (Sink.attempt p w.sink).1 }) := by
  have hsend : Sink.send p w = send p w := rfl
  unfold Sink.attempt
  rw [hsend]
  unfold send
  rcases Sink.send p w.sink with ⟨octets | cause | _, sink⟩ <;> rfl

theorem attempt_taken (p : Packet) (w : Wiretap σ) :
    (Sink.attempt p w).2.taken = noted p w.taken (Sink.attempt p w).1 := by
  rw [attempt_wiretap]

theorem taken_of_ok {p : Packet} {w w' : Wiretap σ} (h : Sink.attempt p w = (.ok (), w')) :
    w'.taken = w.taken ++ [p] := by
  have htaken := attempt_taken p w
  rw [h] at htaken
  exact htaken

theorem taken_of_error {p : Packet} {w w' : Wiretap σ} {fault : Fault}
    (h : Sink.attempt p w = (.error fault, w')) : w'.taken = w.taken := by
  have htaken := attempt_taken p w
  rw [h] at htaken
  exact htaken

/-- A delivery is noted if it succeeds. -/
theorem attempt_taken_if (p : Packet) (w : Wiretap σ) :
    (Sink.attempt p w).2.taken
      = w.taken ++ if (Sink.attempt p w).1 = .ok () then [p] else [] := by
  rw [attempt_taken]
  cases (Sink.attempt p w).1 with
  | ok =>
    rw [if_pos rfl]
    rfl
  | error fault =>
    rw [if_neg (by simp), List.append_nil]
    rfl

/-- The record only grows. -/
theorem taken_attempt (p : Packet) (w : Wiretap σ) :
    w.taken <+: (Sink.attempt p w).2.taken := by
  rw [attempt_taken]
  cases (Sink.attempt p w).1 with
  | ok => exact List.prefix_append _ _
  | error => exact List.prefix_refl _

end Wiretap

/-! ## §2. First transmissions. -/

/-- Add a data packet whose number does not occur yet. -/
def noteFirst (firsts : List DataPacket) : Packet → List DataPacket
  | .data p =>
    if p.sequence ∈ firsts.map DataPacket.sequence then firsts else firsts ++ [p]
  | .control _ => firsts

/-- The data packets on the wire that carry their number for the first time. -/
def firstTransmissions (taken : List Packet) : List DataPacket := taken.foldl noteFirst []

theorem firstTransmissions_concat (taken : List Packet) (p : Packet) :
    firstTransmissions (taken ++ [p]) = noteFirst (firstTransmissions taken) p := by
  unfold firstTransmissions
  rw [List.foldl_append]
  rfl

/-- A control packet is no first transmission. -/
theorem firstTransmissions_noted_control (p : ControlPacket) (taken : List Packet)
    (result : Except Fault Unit) :
    firstTransmissions (Wiretap.noted (.control p) taken result) = firstTransmissions taken := by
  cases result with
  | error => rfl
  | ok => exact firstTransmissions_concat taken (.control p)

/-- Neither is a packet whose number has been delivered. -/
theorem firstTransmissions_noted_again {p : DataPacket} {taken : List Packet}
    (h : p.sequence ∈ (firstTransmissions taken).map DataPacket.sequence)
    (result : Except Fault Unit) :
    firstTransmissions (Wiretap.noted (.data p) taken result) = firstTransmissions taken := by
  cases result with
  | error => rfl
  | ok =>
    show firstTransmissions (taken ++ [.data p]) = _
    rw [firstTransmissions_concat]
    exact if_pos h

/-- A delivered packet with a new number is one. -/
theorem firstTransmissions_concat_new {p : DataPacket} {taken : List Packet}
    (h : p.sequence ∉ (firstTransmissions taken).map DataPacket.sequence) :
    firstTransmissions (taken ++ [.data p]) = firstTransmissions taken ++ [p] := by
  rw [firstTransmissions_concat]
  exact if_neg h

/-! ## §3. Signals. -/

/-- The signal leaves the record of what was delivered alone. -/
def Signal.KeepsRecord {σ : Type} : Signal (Wiretap σ) → Prop
  | .modifySink f => ∀ w, (f w).taken = w.taken
  | _ => True

namespace Engine

variable {σ τ : Type} [Sink σ] [SilenceTimer τ]

/-- No signal transmits data. -/
theorem handle_firstTransmissions (e : Engine (Wiretap σ) τ) {x : Signal (Wiretap σ)}
    (hx : x.KeepsRecord) :
    firstTransmissions (e.handle x).sink.taken = firstTransmissions e.sink.taken := by
  have hcontrol : ∀ p : ControlPacket,
      firstTransmissions (Sink.attempt (.control p) e.sink).2.taken
        = firstTransmissions e.sink.taken := by
    intro p
    rw [Wiretap.attempt_taken]
    exact firstTransmissions_noted_control p _ _
  have h := e.handles x
  generalize e.handle x = e' at h ⊢
  cases h with
  | acknowledges hk => exact hcontrol _
  | answers => exact hcontrol _
  | modifies => exact congrArg firstTransmissions (hx e.sink)
  | _ => rfl

end Engine

end ReliableSender
