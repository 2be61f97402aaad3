/-
  ReliableSender.Proofs.Listening.Turns
  ─────────────────────────────────────
  **WHAT AN ACTION OF THE LISTENER DOES, AND WHAT A HISTORY OF THEM SHOWS.**

      heard     — the control packets that arrived, in that order
      contacts  — the moments at which the clock was told of one
      firings   — the moments at which everything in flight was presumed lost

  `Turns` says of every event what it does to the listener and what it adds
  to the three lists.  The rest of the sender keeps the flow window and the
  clock, unless it sets them on purpose.
-/
import ReliableSender.Listening.Round
import ReliableSender.Proofs.Chronicle
import ReliableSender.Proofs.Sender.Outstanding

namespace ReliableSender

/-! ## §1. What the rest of the sender does. -/

/-- Whether a signal sets the flow window or the silence clock. -/
def Signal.interferes {σ : Type} : Signal σ → Bool
  | .setFlowWindow _ | .negativeAcknowledge _ _ => true
  | .receive _ p =>
    match p.body with
    | .nak _ => true
    | _ => false
  | _ => false

namespace Engine

variable {σ τ : Type} [Sink σ]

/-- An acknowledgment concerns the buffer, the sink and the statistics. -/
theorem acknowledge_session_timer (e : Engine σ τ) (now : Moment) (k : Nat) :
    (e.acknowledge now k).2.session = e.session ∧ (e.acknowledge now k).2.timer = e.timer := by
  obtain ⟨statistics, he⟩ := e.acknowledge_eq now k
  rw [he]
  exact ⟨rfl, rfl⟩

variable [SilenceTimer τ]

/-- Handling a control packet leaves the session alone, and resets the timer if at all. -/
theorem receive_session_timer (e : Engine σ τ) (now : Moment) (p : ControlPacket) :
    (e.receive now p).2.session = e.session
      ∧ ((e.receive now p).2.timer = e.timer
        ∨ (e.receive now p).2.timer = SilenceTimer.reset now e.timer) := by
  unfold receive
  cases p.body with
  | ack a =>
    obtain ⟨hsession, htimer⟩ := e.acknowledge_session_timer now a.number
    exact ⟨hsession, Or.inl htimer⟩
  | nak report => exact ⟨rfl, Or.inr rfl⟩
  | keepAlive | shutdown | ack2 => exact ⟨rfl, Or.inl rfl⟩

theorem handle_window_timer (e : Engine σ τ) {x : Signal σ} (hx : x.interferes = false) :
    (e.handle x).session.flowWindow = e.session.flowWindow ∧ (e.handle x).timer = e.timer := by
  cases x with
  | acknowledge now k =>
    obtain ⟨hsession, htimer⟩ := e.acknowledge_session_timer now k
    exact ⟨congrArg Session.flowWindow hsession, htimer⟩
  | receive now p =>
    rcases p with ⟨timestamp, destination, _ | a | report | number | _⟩
    case ack =>
      obtain ⟨hsession, htimer⟩ := e.acknowledge_session_timer now a.number
      exact ⟨congrArg Session.flowWindow hsession, htimer⟩
    case nak => exact absurd hx (by simp [Signal.interferes])
    all_goals exact ⟨rfl, rfl⟩
  | keepAlive now =>
    obtain ⟨statistics, he⟩ := e.sendKeepAlive_eq now
    show (e.sendKeepAlive now).2.session.flowWindow = _ ∧ (e.sendKeepAlive now).2.timer = _
    rw [he]
    exact ⟨rfl, rfl⟩
  | negativeAcknowledge | setFlowWindow => exact absurd hx (by simp [Signal.interferes])
  | expire | setDestination | packetize | nextSequence | requestStop | modifySink =>
    exact ⟨rfl, rfl⟩

end Engine

namespace Sender

/-- Whether an event sets the flow window or the silence clock. -/
def Event.interferes {σ : Type} : Event σ → Bool
  | .signal x => x.interferes
  | _ => false

/-- The number up to which an event acknowledges. -/
def Event.acknowledgment? {σ : Type} : Event σ → Option Nat
  | .signal x => x.acknowledgment?
  | _ => none

variable {σ τ : Type} [Sink σ] [SilenceTimer τ]

/-- The worker and the writers never touch the window and the clock. -/
theorem apply_window_timer (s : Sender σ τ) {ev : Event σ} (hev : ev.interferes = false) :
    (s.apply ev).engine.session.flowWindow = s.engine.session.flowWindow
      ∧ (s.apply ev).engine.timer = s.engine.timer := by
  have h := s.changes ev
  generalize s.apply ev = s' at h ⊢
  generalize s.gain ev = g at h
  cases h with
  | @transmits _ p | @crashes _ p =>
    obtain ⟨outcome, buffer, sink, statistics, sentBound, he⟩ := s.engine.transmit_eq p
    show (s.engine.transmit p).2.session.flowWindow = _ ∧ (s.engine.transmit p).2.timer = _
    rw [he]
    exact ⟨rfl, rfl⟩
  | @resends p =>
    obtain ⟨outcome, statistics, he⟩ := s.engine.resend_eq p
    show (s.engine.resend p).2.session.flowWindow = _ ∧ (s.engine.resend p).2.timer = _
    rw [he]
    exact ⟨rfl, rfl⟩
  | signals x => exact s.engine.handle_window_timer hev
  | _ => exact ⟨rfl, rfl⟩

/-- Without an acknowledgment no packet leaves the flight. -/
theorem unacknowledged_le_apply (s : Sender σ τ) {ev : Event σ}
    (hev : ev.acknowledgment? = none) :
    s.engine.unacknowledged ≤ (s.apply ev).engine.unacknowledged := by
  have h := bufferChanges (s.changes ev)
  unfold Engine.unacknowledged
  generalize (s.apply ev).engine.buffer = b at h ⊢
  generalize (s.gain ev).attempted = attempted at h
  cases h with
  | sends => exact Nat.le_succ _
  | acknowledges hk => exact absurd (hk.symm.trans hev) (by simp)
  | drops | fails | keeps => exact Nat.le_refl _

end Sender

/-! ## §2. What a history shows. -/

namespace Listener

section History

variable {σ : Type}

/-- The moment of an action of the listener. -/
def Event.moment? : Event σ → Option Moment
  | .act now => some now
  | .hear _ | .other _ => none

/-- What an event is to the rest of the sender. -/
def Event.other? : Event σ → Option (Sender.Event σ)
  | .other ev => some ev
  | .hear _ | .act _ => none

/-- What the clock has read, action by action. -/
def moments (history : List (Event σ)) : List Moment := history.filterMap Event.moment?

/-- What happened to the sender besides. -/
def others (history : List (Event σ)) : List (Sender.Event σ) := history.filterMap Event.other?

theorem moments_concat (history : List (Event σ)) (ev : Event σ) :
    moments (history ++ [ev]) = moments history ++ ev.moment?.toList := by
  unfold moments
  rw [List.filterMap_append]
  cases ev <;> rfl

theorem others_concat (history : List (Event σ)) (ev : Event σ) :
    others (history ++ [ev]) = others history ++ ev.other?.toList := by
  unfold others
  rw [List.filterMap_append]
  cases ev <;> rfl

theorem forall_others_concat {P : Sender.Event σ → Prop} {history : List (Event σ)}
    {ev : Event σ} :
    (∀ x ∈ others (history ++ [ev]), P x)
      ↔ (∀ x ∈ others history, P x) ∧ ∀ x, ev.other? = some x → P x := by
  rw [others_concat, List.forall_mem_append]
  simp only [Option.mem_toList]

end History

variable {σ : Type} [Sink σ]

/-- The control packet that the listener takes in an event. -/
def hearing (l : Listener σ) : Event σ → List ControlPacket
  | .hear a =>
    match l.round with
    | .waiting => a.control?.toList
    | _ => []
  | .act _ | .other _ => []

/-- The moment at which an event tells the clock of a control packet. -/
def contact (l : Listener σ) : Event σ → List Moment
  | .act now =>
    match l.round with
    | .heard _ => [now]
    | _ => []
  | .hear _ | .other _ => []

/-- The moment at which an event presumes lost what is in flight. -/
def firing (l : Listener σ) : Event σ → List Moment
  | .act now =>
    match l.round with
    | .expiring => [now]
    | _ => []
  | .hear _ | .other _ => []

/-- The control packets that arrived in a history. -/
def heard (l : Listener σ) (history : List (Event σ)) : List ControlPacket :=
  gather apply hearing l history

/-- The moments at which the clock was told of them. -/
def contacts (l : Listener σ) (history : List (Event σ)) : List Moment :=
  gather apply contact l history

/-- The moments at which what was in flight was presumed lost. -/
def firings (l : Listener σ) (history : List (Event σ)) : List Moment :=
  gather apply firing l history

theorem heard_concat (l : Listener σ) (history : List (Event σ)) (ev : Event σ) :
    l.heard (history ++ [ev]) = l.heard history ++ (l.replay history).hearing ev :=
  gather_concat apply hearing l history ev

theorem contacts_concat (l : Listener σ) (history : List (Event σ)) (ev : Event σ) :
    l.contacts (history ++ [ev]) = l.contacts history ++ (l.replay history).contact ev :=
  gather_concat apply contact l history ev

theorem firings_concat (l : Listener σ) (history : List (Event σ)) (ev : Event σ) :
    l.firings (history ++ [ev]) = l.firings history ++ (l.replay history).firing ev :=
  gather_concat apply firing l history ev

/-! ## §3. Every step. -/

/-- What an event does to a listener, with the packet it takes, the contact and the firing. -/
inductive Turns (l : Listener σ) :
    Event σ → Listener σ → List ControlPacket → List Moment → List Moment → Prop where
  | hears {a : Arrival} {p : ControlPacket} (round : l.round = .waiting)
      (control : a.control? = some p) :
      Turns l (.hear a) { l with round := .heard p } [p] [] []
  | overhears {a : Arrival} (round : l.round = .waiting) (other : a.control? = none) :
      Turns l (.hear a) { l with round := .counting } [] [] []
  | notes {now : Moment} {p : ControlPacket} (round : l.round = .heard p) :
      Turns l (.act now)
        { l with sender := l.sender.modifyEngine (·.resetTimer now), round := .adopting p }
        [] [now] []
  | adopts {now : Moment} {p : ControlPacket} (round : l.round = .adopting p) :
      Turns l (.act now)
        { l with sender := l.sender.modifyEngine (·.adoptWindow p), round := .handling p }
        [] [] []
  | handles {now : Moment} {p : ControlPacket} (round : l.round = .handling p) :
      Turns l (.act now)
        { l with
          sender := l.sender.modifyEngine fun e => (e.receive now p).2
          round := .counting } [] [] []
  | counts {now : Moment} (round : l.round = .counting)
      (flight : l.sender.engine.unacknowledged ≠ 0) :
      Turns l (.act now) { l with round := .timing } [] [] []
  | findsNone {now : Moment} (round : l.round = .counting) :
      Turns l (.act now) { l with round := .waiting } [] [] []
  | runsOut {now : Moment} (round : l.round = .timing)
      (expired : l.sender.engine.timer.expired now = true) :
      Turns l (.act now) { l with round := .expiring } [] [] []
  | waits {now : Moment} (round : l.round = .timing) :
      Turns l (.act now) { l with round := .waiting } [] [] []
  | fires {now : Moment} (round : l.round = .expiring) :
      Turns l (.act now)
        { l with sender := l.sender.modifyEngine (·.expire), round := .rewinding } [] [] [now]
  | rewinds {now : Moment} (round : l.round = .rewinding) :
      Turns l (.act now)
        { l with sender := l.sender.modifyEngine (·.resetTimer now), round := .waiting }
        [] [] []
  | others (ev : Sender.Event σ) :
      Turns l (.other ev) { l with sender := l.sender.apply ev } [] [] []
  | stays {ev : Event σ} (none : ev.other? = none) : Turns l ev l [] [] []

/-- Every event. -/
theorem turns (l : Listener σ) (ev : Event σ) :
    Turns l ev (l.apply ev) (l.hearing ev) (l.contact ev) (l.firing ev) := by
  cases ev with
  | other ev => exact .others ev
  | hear a =>
    show Turns l _ (l.hear a)
      (match l.round with
        | .waiting => a.control?.toList
        | _ => []) [] []
    unfold hear
    cases hround : l.round with
    | waiting =>
      cases ha : a.control? with
      | none => exact .overhears hround ha
      | some p => exact .hears hround ha
    | _ => exact .stays rfl
  | act now =>
    show Turns l _ (l.advance now) [] (l.contact (.act now)) (l.firing (.act now))
    unfold advance contact firing
    cases hround : l.round with
    | waiting => exact .stays rfl
    | heard p => exact .notes hround
    | adopting p => exact .adopts hround
    | handling p => exact .handles hround
    | counting =>
      by_cases hnone : l.sender.engine.unacknowledged = 0
      · simp only [hnone, if_true]
        exact .findsNone hround
      · simp only [hnone, if_false]
        exact .counts hround hnone
    | timing =>
      cases hexpired : l.sender.engine.timer.expired now with
      | true => exact .runsOut hround hexpired
      | false => exact .waits hround
    | expiring => exact .fires hround
    | rewinding => exact .rewinds hround

end Listener

end ReliableSender
