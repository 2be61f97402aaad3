/-
  ReliableSender.Proofs.Listening.Silence
  ───────────────────────────────────────
  **THE WINDOW FOLLOWS THE PEER, AND LOSS IS PRESUMED ONLY AFTER SILENCE.**

  Between the actions of the listener the rest of the sender does what it
  likes, except that it sets neither the flow window nor the clock.

      flowWindow_replay   — the window is what an acknowledgment told last
      undisturbed_replay  — other arrivals leave no trace in the sender
      showsPast_replay    — the clock shows a moment behind all it must count from
      inFlight_replay     — whoever presumes loss has seen packets in flight
      listening_law       — all of it, over every run

  Times are compared as the clock reads them, in whole milliseconds.
-/
import ReliableSender.Proofs.Listening.Turns
import ReliableSender.Proofs.Packet.Grammar
import ReliableSender.Transport.Channel

namespace ReliableSender

/-! ## §1. The window that was told last. -/

/-- The free buffer space that an acknowledgment reports. -/
def ControlPacket.availableBuffer? (p : ControlPacket) : Option UInt32 :=
  match p.body with
  | .ack a => some a.availableBuffer
  | _ => none

/-- The last free buffer space that is not zero, among what was heard. -/
def lastWindow (initial : Nat) (heard : List ControlPacket) : Nat :=
  ((heard.filterMap ControlPacket.availableBuffer?).filter (· ≠ 0)).getLast?.elim initial
    UInt32.toNat

theorem lastWindow_append (initial : Nat) (ps qs : List ControlPacket) :
    lastWindow initial (ps ++ qs) = lastWindow (lastWindow initial ps) qs := by
  unfold lastWindow
  rw [List.filterMap_append, List.filter_append, List.getLast?_append]
  cases ((qs.filterMap ControlPacket.availableBuffer?).filter (· ≠ 0)).getLast? <;> rfl

/-- A light acknowledgment counts as one of no free space. -/
theorem availableBuffer?_of_light {b : Bytes} {p : ControlPacket} (hack : b.IsControl 2)
    (hlight : b.length < 32) (hp : (Arrival.datagram b).control? = some p) :
    p.availableBuffer? = some 0 := by
  simp only [Arrival.control?] at hp
  rw [Packet.decode_ack hack, if_pos hlight] at hp
  by_cases hnone : b.length < 20
  · rw [if_pos hnone] at hp
    exact absurd hp (by simp)
  · rw [if_neg hnone] at hp
    obtain rfl := Option.some.inj hp
    rfl

namespace Engine

variable {σ τ : Type}

theorem adoptWindow_flowWindow (e : Engine σ τ) (p : ControlPacket) :
    (e.adoptWindow p).session.flowWindow = lastWindow e.session.flowWindow [p] := by
  rcases p with ⟨timestamp, destination, _ | a | report | number | _⟩
  case ack =>
    unfold adoptWindow ControlPacket.window? lastWindow ControlPacket.availableBuffer?
    by_cases hzero : a.availableBuffer = 0
    · simp [hzero]
    · simp [hzero, setFlowWindow, Session.setFlowWindow]
  all_goals rfl

theorem adoptWindow_timer (e : Engine σ τ) (p : ControlPacket) :
    (e.adoptWindow p).timer = e.timer := by
  unfold adoptWindow
  cases p.window? <;> rfl

end Engine

/-! ## §2. The window follows. -/

namespace Round

/-- The packet whose window is still to be adopted. -/
def unadopted : Round → List ControlPacket
  | heard p | adopting p => [p]
  | _ => []

/-- Nothing that the peer told is being handled, and nothing was presumed lost. -/
def isQuiet : Round → Bool
  | waiting | counting | timing | expiring => true
  | _ => false

/-- How many control packets the clock has not been told of. -/
def untold : Round → Nat
  | heard _ => 1
  | _ => 0

/-- Packets have been seen in flight. -/
def hasCounted : Round → Bool
  | timing | expiring => true
  | _ => false

end Round

namespace Listener

variable {σ : Type} [Sink σ]

/-- What was told and what is still to be adopted make one window. -/
theorem Turns.window {l l' : Listener σ} {ev : Event σ} {ps : List ControlPacket}
    {cs fs : List Moment} (h : Turns l ev l' ps cs fs)
    (hev : ∀ x, ev.other? = some x → x.interferes = false) :
    lastWindow l'.sender.engine.session.flowWindow l'.round.unadopted
      = lastWindow l.sender.engine.session.flowWindow (l.round.unadopted ++ ps) := by
  cases h with
  | hears hround _ | overhears hround _ | counts hround _ | findsNone hround
  | runsOut hround _ | waits hround | fires hround | rewinds hround | notes hround =>
    rw [hround]
    rfl
  | @adopts now p hround =>
    rw [hround]
    exact l.sender.engine.adoptWindow_flowWindow p
  | @handles now p hround =>
    rw [hround]
    exact congrArg Session.flowWindow (l.sender.engine.receive_session_timer now p).1
  | others x =>
    rw [List.append_nil]
    show lastWindow (l.sender.apply x).engine.session.flowWindow _ = _
    rw [(l.sender.apply_window_timer (hev x rfl)).1]
  | stays => rw [List.append_nil]

/-- **The window is what an acknowledgment told last**, as soon as it is adopted. -/
theorem flowWindow_replay (config : Config) (sink : σ) (interval : Nat)
    (history : List (Event σ)) (hothers : ∀ x ∈ others history, x.interferes = false) :
    let start := fresh config sink interval
    let l := start.replay history
    lastWindow l.sender.engine.session.flowWindow l.round.unadopted
      = lastWindow config.session.flowWindow (start.heard history) := by
  intro start
  induction history using List.reverseRecOn with
  | nil => rfl
  | append_singleton history ev ih =>
    obtain ⟨hothers, hlast⟩ := forall_others_concat.mp hothers
    have hbefore := ih hothers
    have hstep := ((start.replay history).turns ev).window hlast
    show lastWindow (start.replay (history ++ [ev])).sender.engine.session.flowWindow
      (start.replay (history ++ [ev])).round.unadopted = _
    rw [replay_concat, hstep, heard_concat, lastWindow_append, lastWindow_append, hbefore]

/-! ## §3. Other arrivals leave no trace. -/

/-- An event that takes no control packet and presumes nothing lost is to the sender what
happens to it besides. -/
theorem Turns.undisturbed {l l' : Listener σ} {ev : Event σ} {cs : List Moment}
    (h : Turns l ev l' [] cs []) (hquiet : l.round.isQuiet = true) :
    l'.sender = l.sender.replay ev.other?.toList ∧ l'.round.isQuiet = true := by
  cases h with
  | notes hround | adopts hround | handles hround | rewinds hround =>
    rw [hround] at hquiet
    exact absurd hquiet Bool.false_ne_true
  | stays hother =>
    rw [hother]
    exact ⟨rfl, hquiet⟩
  | overhears | counts | findsNone | runsOut | waits => exact ⟨rfl, rfl⟩
  | others => exact ⟨rfl, hquiet⟩

/-- **Other arrivals leave no trace.**  As long as no control packet arrives and nothing is
presumed lost, the sender is what it would be if nobody listened. -/
theorem undisturbed_replay {l : Listener σ} (hl : l.round = .waiting) (later : List (Event σ))
    (hheard : l.heard later = []) (hfirings : l.firings later = []) :
    (l.replay later).sender = l.sender.replay (others later)
      ∧ (l.replay later).round.isQuiet = true := by
  induction later using List.reverseRecOn with
  | nil =>
    refine ⟨rfl, ?_⟩
    show l.round.isQuiet = true
    rw [hl]
    rfl
  | append_singleton later ev ih =>
    rw [heard_concat, List.append_eq_nil_iff] at hheard
    rw [firings_concat, List.append_eq_nil_iff] at hfirings
    obtain ⟨hsender, hquiet⟩ := ih hheard.1 hfirings.1
    have hturn := (l.replay later).turns ev
    rw [hheard.2, hfirings.2] at hturn
    obtain ⟨hnow, hstill⟩ := hturn.undisturbed hquiet
    rw [replay_concat, others_concat, Sender.replay_append, ← hsender]
    exact ⟨hnow, hstill⟩

end Listener

/-! ## §4. What the clock shows. -/

theorem Moment.milliseconds_le {t now : Moment} (h : t ≤ now) :
    t.milliseconds ≤ now.milliseconds := Nat.div_le_div_right h

namespace Listener

variable {σ : Type}

/-- The listener's clock. -/
def clock (l : Listener σ) : SilenceClock := l.sender.engine.timer

/-- The clock was reset after every contact and, but for the reset that is still to come,
after every firing; and it was not reset in the future. -/
structure ShowsPast (interval : Nat) (l : Listener σ) (cs fs moments : List Moment) : Prop where
  steady : l.clock.interval = interval
  contacts : ∀ t ∈ cs, t.milliseconds ≤ l.clock.lastReset
  firings : l.round ≠ .rewinding → ∀ t ∈ fs, t.milliseconds ≤ l.clock.lastReset
  timed : ∀ t ∈ fs, t ∈ moments
  past : ∀ now, (∀ t ∈ moments, t ≤ now) → l.clock.lastReset ≤ now.milliseconds
  /-- Who is about to presume loss has seen the clock run out. -/
  due : l.round = .expiring → ∀ now, (∀ t ∈ moments, t ≤ now) →
    l.clock.lastReset + interval ≤ now.milliseconds

namespace ShowsPast

variable {interval : Nat} {l l' : Listener σ} {cs fs moments : List Moment}

/-- Without a reset the clock shows what it has shown; `hdue` is for a round that comes to
presume loss by this action. -/
theorem keep (h : ShowsPast interval l cs fs moments) (hclock : l'.clock = l.clock)
    (hrewinding : l.round = .rewinding → l'.round = .rewinding) (more : List Moment)
    (hdue : l'.round = .expiring → ∀ now, (∀ t ∈ moments ++ more, t ≤ now) →
      l.clock.lastReset + interval ≤ now.milliseconds) :
    ShowsPast interval l' cs fs (moments ++ more) where
  steady := hclock ▸ h.steady
  contacts := hclock ▸ h.contacts
  firings hround := hclock ▸ h.firings fun hbefore => hround (hrewinding hbefore)
  timed t ht := List.mem_append_left _ (h.timed t ht)
  past now hnow := hclock ▸ h.past now fun t ht => hnow t (List.mem_append_left _ ht)
  due hround now hnow := hclock ▸ hdue hround now hnow

/-- In particular if the round does not come to presume loss. -/
theorem goesOn (h : ShowsPast interval l cs fs moments) (hclock : l'.clock = l.clock)
    (hrewinding : l.round = .rewinding → l'.round = .rewinding)
    (hexpiring : l'.round = .expiring → l.round = .expiring) (more : List Moment) :
    ShowsPast interval l' cs fs (moments ++ more) :=
  h.keep hclock hrewinding more fun hround now hnow =>
    h.due (hexpiring hround) now fun t ht => hnow t (List.mem_append_left _ ht)

/-- A clock that has run out is due at every later moment. -/
theorem runsOut (h : ShowsPast interval l cs fs moments) (hclock : l'.clock = l.clock)
    (hround : l.round ≠ .rewinding) {now : Moment} (hlatest : ∀ t ∈ moments, t ≤ now)
    (hexpired : l.clock.expired now = true) :
    ShowsPast interval l' cs fs (moments ++ [now]) := by
  refine h.keep hclock (fun hrewinding => absurd hrewinding hround) _ fun _ later hlater => ?_
  have hpassed : l.clock.interval ≤ now.milliseconds - l.clock.lastReset :=
    of_decide_eq_true hexpired
  have hpast := h.past now hlatest
  have hlast := Moment.milliseconds_le (hlater now (List.mem_append_right _ List.mem_cons_self))
  rw [h.steady] at hpassed
  omega

/-- A firing comes behind the last reset, and the reset that follows it is still to come. -/
theorem fires (h : ShowsPast interval l cs fs moments) (hclock : l'.clock = l.clock)
    (hround : l'.round = .rewinding) (now : Moment) :
    ShowsPast interval l' cs (fs ++ [now]) (moments ++ [now]) where
  steady := hclock ▸ h.steady
  contacts := hclock ▸ h.contacts
  firings hother := absurd hround hother
  timed t ht := by
    rcases List.mem_append.mp ht with hold | hnew
    · exact List.mem_append_left _ (h.timed t hold)
    · exact List.mem_append_right _ hnew
  past later hlater := hclock ▸ h.past later fun t ht => hlater t (List.mem_append_left _ ht)
  due hexpiring := by
    rw [hround] at hexpiring
    exact Round.noConfusion hexpiring

/-- A reset at a moment behind all others shows what came before it. -/
theorem reset (h : ShowsPast interval l cs fs moments) {now : Moment}
    (hlatest : ∀ t ∈ moments, t ≤ now) (hclock : l'.clock = SilenceTimer.reset now l.clock)
    (hround : l'.round ≠ .expiring) {cs' : List Moment} (hcs : ∀ t ∈ cs', t = now) :
    ShowsPast interval l' (cs ++ cs') fs (moments ++ [now]) := by
  have hreset : l'.clock.lastReset = now.milliseconds := congrArg SilenceClock.lastReset hclock
  refine ⟨?_, fun t ht => ?_, fun _ t ht => ?_, fun t ht => ?_, fun later hlater => ?_,
    fun hexpiring => absurd hexpiring hround⟩
  · rw [hclock]
    exact h.steady
  · rw [hreset]
    rcases List.mem_append.mp ht with hold | hnew
    · exact Nat.le_trans (h.contacts t hold) (h.past now hlatest)
    · exact Moment.milliseconds_le (Nat.le_of_eq (hcs t hnew))
  · rw [hreset]
    exact Moment.milliseconds_le (hlatest t (h.timed t ht))
  · exact List.mem_append_left _ (h.timed t ht)
  · rw [hreset]
    exact Moment.milliseconds_le (hlater now (List.mem_append_right _ List.mem_cons_self))

/-- At a firing the interval has passed, in whole milliseconds, since the start, every contact
and every firing. -/
theorem apart (h : ShowsPast interval l cs fs moments) (hround : l.round = .expiring)
    {now : Moment} (hlatest : ∀ t ∈ moments, t ≤ now) :
    ∀ t ∈ 0 :: cs ++ fs, t.milliseconds + interval ≤ now.milliseconds := by
  intro t ht
  have hdue := h.due hround now hlatest
  have hshown : t.milliseconds ≤ l.clock.lastReset := by
    rcases List.mem_append.mp ht with ht | hfiring
    · rcases List.mem_cons.mp ht with rfl | hcontact
      · exact Nat.zero_le _
      · exact h.contacts t hcontact
    · refine h.firings ?_ t hfiring
      rw [hround]
      exact Round.noConfusion
  omega

end ShowsPast

variable [Sink σ]

/-- Every event leaves a clock that shows the past, the event's own moment included. -/
theorem Turns.showsPast {interval : Nat} {l l' : Listener σ} {ev : Event σ}
    {ps : List ControlPacket} {cs' fs' cs fs moments : List Moment}
    (h : Turns l ev l' ps cs' fs') (hev : ∀ x, ev.other? = some x → x.interferes = false)
    (hlatest : ∀ now, ev.moment? = some now → ∀ t ∈ moments, t ≤ now)
    (hl : ShowsPast interval l cs fs moments) :
    ShowsPast interval l' (cs ++ cs') (fs ++ fs') (moments ++ ev.moment?.toList) := by
  cases h with
  | hears hround | overhears hround | counts hround | findsNone hround | waits hround =>
    rw [List.append_nil, List.append_nil]
    refine hl.goesOn ?_ ?_ ?_ _
    · rfl
    · simp [hround]
    · simp
  | @adopts now p hround =>
    rw [List.append_nil, List.append_nil]
    refine hl.goesOn ?_ ?_ ?_ _
    · exact l.sender.engine.adoptWindow_timer p
    · simp [hround]
    · simp
  | @handles now p hround =>
    rw [List.append_nil fs]
    rcases (l.sender.engine.receive_session_timer now p).2 with hkept | hreset
    · rw [List.append_nil]
      refine hl.goesOn ?_ ?_ ?_ _
      · exact hkept
      · simp [hround]
      · simp
    · refine hl.reset (hlatest now rfl) ?_ ?_ fun t ht => absurd ht List.not_mem_nil
      · exact hreset
      · simp
  | @notes now p hround =>
    rw [List.append_nil]
    refine hl.reset (hlatest now rfl) ?_ ?_ fun t ht => List.mem_singleton.mp ht
    · rfl
    · simp
  | @rewinds now hround =>
    rw [List.append_nil fs]
    refine hl.reset (hlatest now rfl) ?_ ?_ fun t ht => absurd ht List.not_mem_nil
    · rfl
    · simp
  | @runsOut now hround hexpired =>
    rw [List.append_nil, List.append_nil]
    refine hl.runsOut ?_ ?_ (hlatest now rfl) hexpired
    · rfl
    · simp [hround]
  | @fires now hround =>
    rw [List.append_nil]
    refine hl.fires ?_ ?_ now <;> rfl
  | others x =>
    rw [List.append_nil, List.append_nil]
    refine hl.goesOn ?_ ?_ ?_ _
    · exact (l.sender.apply_window_timer (hev x rfl)).2
    · exact id
    · exact id
  | stays =>
    rw [List.append_nil, List.append_nil]
    exact hl.goesOn rfl id id _

/-- An event that takes a control packet and tells the clock of none leaves it untold. -/
theorem Turns.told {l l' : Listener σ} {ev : Event σ} {ps : List ControlPacket}
    {cs fs : List Moment} (h : Turns l ev l' ps cs fs) :
    ps.length + l.round.untold = cs.length + l'.round.untold := by
  cases h with
  | others | stays => rfl
  | hears hround | overhears hround | notes hround | adopts hround | handles hround
  | counts hround | findsNone hround | runsOut hround | waits hround | fires hround
  | rewinds hround =>
    rw [hround]
    rfl

omit [Sink σ] in
/-- A moment that ends an ascending history is behind all before it. -/
theorem le_of_moments_concat {history : List (Event σ)} {ev : Event σ}
    (h : (moments (history ++ [ev])).Pairwise (· ≤ ·)) :
    (moments history).Pairwise (· ≤ ·)
      ∧ ∀ now, ev.moment? = some now → ∀ t ∈ moments history, t ≤ now := by
  rw [moments_concat, List.pairwise_append] at h
  obtain ⟨hbefore, -, hcross⟩ := h
  exact ⟨hbefore, fun now hnow t ht => hcross t ht now (Option.mem_toList.mpr hnow)⟩

/-- **The clock shows a moment behind all it must count from.** -/
theorem showsPast_replay (config : Config) (sink : σ) (interval : Nat)
    (history : List (Event σ)) (hclock : (moments history).Pairwise (· ≤ ·))
    (hothers : ∀ x ∈ others history, x.interferes = false) :
    let start := fresh config sink interval
    ShowsPast interval (start.replay history) (start.contacts history)
      (start.firings history) (moments history) := by
  intro start
  induction history using List.reverseRecOn with
  | nil =>
    refine ⟨rfl, fun t ht => ?_, fun _ t ht => ?_, fun t ht => ?_, fun now _ => Nat.zero_le _,
      Round.noConfusion⟩
    all_goals exact absurd ht List.not_mem_nil
  | append_singleton history ev ih =>
    obtain ⟨hclock, hlatest⟩ := le_of_moments_concat hclock
    obtain ⟨hothers, hlast⟩ := forall_others_concat.mp hothers
    have hpast := ih hclock hothers
    rw [replay_concat, contacts_concat, firings_concat, moments_concat]
    exact ((start.replay history).turns ev).showsPast hlast hlatest hpast

/-- Between two rounds, and whenever loss may be presumed, the clock has been told of every
control packet that arrived. -/
theorem told_replay (start : Listener σ) (hstart : start.round = .waiting)
    (history : List (Event σ)) :
    (start.heard history).length
      = (start.contacts history).length + (start.replay history).round.untold := by
  induction history using List.reverseRecOn with
  | nil =>
    show 0 = 0 + start.round.untold
    rw [hstart]
    rfl
  | append_singleton history ev ih =>
    have hstep := ((start.replay history).turns ev).told
    rw [heard_concat, contacts_concat, replay_concat, List.length_append, List.length_append]
    omega

/-! ## §5. What is in flight. -/

/-- Packets that were counted stay in flight, as long as nobody else acknowledges. -/
theorem Turns.inFlight {l l' : Listener σ} {ev : Event σ} {ps : List ControlPacket}
    {cs fs : List Moment} (h : Turns l ev l' ps cs fs)
    (hev : ∀ x, ev.other? = some x → x.acknowledgment? = none)
    (hl : l.round.hasCounted = true → l.sender.engine.unacknowledged ≠ 0)
    (hround' : l'.round.hasCounted = true) : l'.sender.engine.unacknowledged ≠ 0 := by
  cases h with
  | counts _ hflight => exact hflight
  | runsOut hround _ =>
    refine hl ?_
    rw [hround]
    rfl
  | others x =>
    have hmore := l.sender.unacknowledged_le_apply (hev x rfl)
    have hbefore : l.sender.engine.unacknowledged ≠ 0 := hl hround'
    show (l.sender.apply x).engine.unacknowledged ≠ 0
    omega
  | stays => exact hl hround'
  | hears | overhears | notes | adopts | handles | findsNone | waits | fires | rewinds =>
    exact absurd hround' Bool.false_ne_true

theorem inFlight_replay (config : Config) (sink : σ) (interval : Nat)
    (history : List (Event σ)) (hothers : ∀ x ∈ others history, x.acknowledgment? = none) :
    let l := (fresh config sink interval).replay history
    l.round.hasCounted = true → l.sender.engine.unacknowledged ≠ 0 := by
  induction history using List.reverseRecOn with
  | nil => exact fun hround => absurd hround Bool.false_ne_true
  | append_singleton history ev ih =>
    obtain ⟨hothers, hlast⟩ := forall_others_concat.mp hothers
    have hbefore := ih hothers
    rw [replay_concat]
    exact (((fresh config sink interval).replay history).turns ev).inFlight hlast hbefore

/-! ## §6. The law of listening. -/

theorem mem_firing {l : Listener σ} {ev : Event σ} {now : Moment} (h : now ∈ l.firing ev) :
    ev = .act now ∧ l.round = .expiring := by
  have hturn := l.turns ev
  generalize l.apply ev = l' at hturn
  generalize l.hearing ev = ps at hturn
  generalize l.contact ev = cs at hturn
  generalize l.firing ev = fs at hturn h
  cases hturn with
  | fires hround =>
    obtain rfl := List.mem_singleton.mp h
    exact ⟨rfl, hround⟩
  | _ => exact absurd h List.not_mem_nil

/-- **Firings are apart** from each other and from all that the clock counts from. -/
theorem firing_apart (config : Config) (sink : σ) (interval : Nat) (before : List (Event σ))
    {ev : Event σ} (hclock : (moments (before ++ [ev])).Pairwise (· ≤ ·))
    (hothers : ∀ x ∈ others before, x.interferes = false) :
    let start := fresh config sink interval
    ∀ now ∈ (start.replay before).firing ev, ∀ t ∈ 0 :: start.contacts before
      ++ start.firings before, t.milliseconds + interval ≤ now.milliseconds := by
  intro start now hnow
  obtain ⟨rfl, hround⟩ := mem_firing hnow
  obtain ⟨hbefore, hlatest⟩ := le_of_moments_concat hclock
  exact (showsPast_replay config sink interval before hbefore hothers).apart hround
    (hlatest now rfl)

theorem firings_apart (config : Config) (sink : σ) (interval : Nat) (history : List (Event σ))
    (hclock : (moments history).Pairwise (· ≤ ·))
    (hothers : ∀ x ∈ others history, x.interferes = false) :
    ((fresh config sink interval).firings history).Pairwise
      fun x y => x.milliseconds + interval ≤ y.milliseconds := by
  induction history using List.reverseRecOn with
  | nil => exact List.Pairwise.nil
  | append_singleton history ev ih =>
    have hbefore := (forall_others_concat.mp hothers).1
    have hlast := firing_apart config sink interval history hclock hbefore
    rw [firings_concat, List.pairwise_append]
    refine ⟨ih (le_of_moments_concat hclock).1 hbefore, ?_, fun x hx y hy =>
      hlast y hy x (List.mem_append_right _ hx)⟩
    -- One event fires once.
    cases ev with
    | act now =>
      unfold firing
      cases ((fresh config sink interval).replay history).round <;> simp
    | hear | other => exact List.Pairwise.nil

/-- **The law of listening.**  The listener's actions fall between whatever else happens to
the sender, at moments that do not go back; nothing else sets the flow window or the clock.

Between two rounds the window is the last free buffer space other than zero that an
acknowledgment told of, or the initial one; a light acknowledgment counts as one of no free
space.  As long as neither a control packet arrives nor loss is presumed, the sender is what
it would be if nobody listened.  Whenever loss is presumed, the clock has been told of every
control packet and, if nobody else acknowledges, packets are in flight.  As the clock reads
the time, in whole milliseconds, the interval has then passed since each control packet,
since all earlier firings and since the start, and two firings are the interval apart. -/
theorem listening_law (config : Config) (sink : σ) (interval : Nat) (history : List (Event σ)) :
    let start : Listener σ := fresh config sink interval
    let l := start.replay history
    (moments history).Pairwise (· ≤ ·) →
    (∀ x ∈ others history, x.interferes = false) →
      (l.round = .waiting → l.sender.engine.session.flowWindow
        = lastWindow config.session.flowWindow (start.heard history))
      ∧ (∀ b p, b.IsControl 2 → b.length < 32 → (Arrival.datagram b).control? = some p →
          p.availableBuffer? = some 0)
      ∧ (∀ later, l.round = .waiting → l.heard later = [] → l.firings later = [] →
          (l.replay later).sender = l.sender.replay (others later))
      ∧ Always (fun before ev => ∀ now ∈ (start.replay before).firing ev,
          (start.contacts before).length = (start.heard before).length
          ∧ (∀ t ∈ 0 :: start.contacts before ++ start.firings before,
              t.milliseconds + interval ≤ now.milliseconds)
          ∧ ((∀ x ∈ others before, x.acknowledgment? = none) →
              (start.replay before).sender.engine.unacknowledged ≠ 0)) history
      ∧ (start.firings history).Pairwise fun x y =>
          x.milliseconds + interval ≤ y.milliseconds := by
  intro start l hclock hothers
  refine ⟨fun hround => ?_, fun b p => availableBuffer?_of_light, fun later hround hheard hnone =>
    (undisturbed_replay hround later hheard hnone).1, fun before ev after hsplit now hnow => ?_,
    firings_apart config sink interval history hclock hothers⟩
  · have hwindow : lastWindow l.sender.engine.session.flowWindow l.round.unadopted = _ :=
      flowWindow_replay config sink interval history hothers
    rw [hround] at hwindow
    exact hwindow
  · obtain ⟨hev, hround⟩ := mem_firing hnow
    -- What holds of the whole history holds of its beginning, with this event at its end.
    have hhistory : history = (before ++ [ev]) ++ after := by rw [hsplit]; simp
    have hclock' : (moments (before ++ [ev])).Pairwise (· ≤ ·) := by
      rw [hhistory] at hclock
      unfold moments at hclock
      rw [List.filterMap_append] at hclock
      exact (List.pairwise_append.mp hclock).1
    have hothers' : ∀ x ∈ others before, x.interferes = false := fun x hx => by
      refine hothers x ?_
      rw [hsplit]
      unfold others
      rw [List.filterMap_append]
      exact List.mem_append_left _ hx
    refine ⟨?_, firing_apart config sink interval before hclock' hothers' now hnow,
      fun hsilent => inFlight_replay config sink interval before hsilent ?_⟩
    · have htold := told_replay start rfl before
      rw [hround] at htold
      exact htold.symm
    · rw [hround]
      rfl

/-- A full and a light acknowledgment arrive while one packet is in flight.  Then the peer is
silent: after a second, and after another one, the packet is presumed lost. -/
theorem presumed_lost_twice :
    let start : Listener ChannelSink := fresh { session := { flowWindow := 2 } } {} 1000
    let sending : List (Event ChannelSink) :=
      [.other (.announce { sequence := 0 }), .other (.attempt 0)] ++ List.replicate 8 (.other .work)
    let full : List (Event ChannelSink) :=
      .hear (.datagram (.ofWords [0x80020000, 1, 0, 0, 0, 0, 0, 5]))
        :: List.replicate 5 (.act 500000)
    let light : List (Event ChannelSink) :=
      .hear (.datagram (.ofWords [0x80020000, 2, 0, 0, 0])) :: List.replicate 5 (.act 600000)
    let silence : List (Event ChannelSink) :=
      .hear .silence :: .act 1600000 :: .other .work :: List.replicate 3 (.act 1600000)
    let fault : List (Event ChannelSink) :=
      .hear (.fault "refused") :: List.replicate 4 (.act 2600000)
    let history := sending ++ full ++ light ++ silence ++ fault
    (moments history).Pairwise (· ≤ ·)
      ∧ (∀ x ∈ others history, x.interferes = false)
      ∧ lastWindow 2 (start.heard history) = 5
      ∧ (start.replay history).sender.engine.session.flowWindow = 5
      ∧ start.firings history = [1600000, 2600000]
      ∧ (start.firings history).Pairwise fun x y => x.milliseconds + 1000 ≤ y.milliseconds := by
  intro start sending full light silence fault history
  have hclock : (moments history).Pairwise (· ≤ ·) := by decide +kernel
  have hothers : ∀ x ∈ others history, x.interferes = false := by decide +kernel
  have hround : (start.replay history).round = .waiting := by decide +kernel
  have hheard : lastWindow 2 (start.heard history) = 5 := by decide +kernel
  have hfirings : start.firings history = [1600000, 2600000] := by decide +kernel
  clear_value history
  obtain ⟨hwindow, -, -, -, hapart⟩ :=
    listening_law { session := { flowWindow := 2 } } ({} : ChannelSink) 1000 history hclock hothers
  exact ⟨hclock, hothers, hheard, (hwindow hround).trans hheard, hfirings, hapart⟩

end Listener

end ReliableSender
