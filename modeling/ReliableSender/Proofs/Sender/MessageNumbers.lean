/-
  ReliableSender.Proofs.Sender.MessageNumbers
  ───────────────────────────────────────────
  **MESSAGE NUMBERS GO ROUND WITHOUT A JUMP.**

  A message takes the low 29 bits of a counter of 32 bits.  The counter goes
  round after 2³² messages and the numbers after 2²⁹, and nobody sees the
  first of these, because 2²⁹ divides 2³²:

      number of message n   =   n mod 2³² mod 2²⁹   =   n mod 2²⁹

  A message is numbered where a packet is stamped for the application and
  where a write is let in, also if it becomes no packet; nothing else touches
  the counter.  Each takes its number in one action, so messages that come at
  the same time are numbered in the order of these actions.

      next_after            — the counter, one message on
      numbers_apply         — an event numbers one message or none
      inStep_replay         — the counter and the messages of a run
      message_numbers_cycle — all together, with the field of the header
-/
import ReliableSender.Proofs.Packet.Appending
import ReliableSender.Proofs.Sender.SentOut

namespace ReliableSender

/-! ## §1. The counter. -/

namespace MessageCounter

/-- The counter when `n` messages have been numbered. -/
def after (n : Nat) : MessageCounter := ⟨UInt32.ofNat n⟩

/-- The number of message `n`, counted from 0. -/
def nth (n : Nat) : UInt32 := UInt32.ofNat (n % 2 ^ 29)

theorem toNat_nth (n : Nat) : (nth n).toNat = n % 2 ^ 29 := by
  unfold nth
  rw [UInt32.toNat_ofNat']
  omega

/-- A number is the counter without its three highest bits. -/
theorem next_eq_and (c : MessageCounter) : c.next.1 = c.count &&& 0x1FFFFFFF := by
  apply UInt32.toNat_inj.mp
  exact (toNat_nth c.count.toNat).trans (toNat_and_messageNumberMax c.count).symm

/-- **One message on.**  The number does not tell how often the counter has gone round. -/
theorem next_after (n : Nat) : (after n).next = (nth n, after (n + 1)) := by
  have hround : messageNumberMax + 1 ∣ 2 ^ 32 := ⟨8, rfl⟩
  have hnumber : (UInt32.ofNat n).toNat % (messageNumberMax + 1) = n % 2 ^ 29 := by
    rw [UInt32.toNat_ofNat', Nat.mod_mod_of_dvd n hround]
    rfl
  unfold next after nth
  rw [hnumber, UInt32.ofNat_add]
  rfl

/-- The largest number and 0 follow each other where the counter goes round. -/
example :
    (after (2 ^ 32 - 1)).next = (UInt32.ofNat messageNumberMax, after 0)
      ∧ (after (2 ^ 32)).next = (0, after 1) := by
  decide

/-- So many messages in a row have different numbers. -/
theorem nodup_nth (first : Nat) {n : Nat} (hn : n ≤ 2 ^ 29) :
    ((List.range' first n).map nth).Nodup := by
  refine List.Nodup.map_on (fun i hi j hj hsame => ?_) List.nodup_range'
  rw [List.mem_range'_1] at hi hj
  -- Two members of the row are less than one round apart.
  have hround : i % 2 ^ 29 = j % 2 ^ 29 := by rw [← toNat_nth, hsame, toNat_nth]
  omega

end MessageCounter

/-! ## §2. The field of the header. -/

namespace DataPacket

/-- The header has a place for the message number and gives it back, and the codec does not
refuse the packet for it. -/
structure NumberFits (p : DataPacket) : Prop where
  within : p.messageNumber.toNat ≤ messageNumberMax
  kept : p.messageWord &&& 0x1FFFFFFF = p.messageNumber
  writable : ∀ n, (Packet.data p).encode ≠ .error (.messageNumberOverflow n)

theorem numberFits_of_le {p : DataPacket} (h : p.messageNumber.toNat ≤ messageNumberMax) :
    p.NumberFits := by
  refine ⟨h, ?_, fun n hencode => ?_⟩
  · have hword := toNat_messageWord h
    unfold messageNumberMax at h
    apply UInt32.toNat_inj.mp
    rw [toNat_and_messageNumberMax, hword]
    -- The other two fields are multiples of the number's range.
    omega
  · have hrefused := Packet.DataPacket.refused_of_fault? (Packet.fault?_of_encode hencode)
    cases hrefused with
    | messageNumber _ exceeds => exact Nat.not_lt.mpr h exceeds

end DataPacket

/-! ## §3. What an event numbers. -/

/-- A message with the number that it has taken and the packets that it became. -/
structure NumberedMessage where
  number : UInt32
  packets : List DataPacket
  deriving DecidableEq, Repr

namespace Engine

variable {σ τ : Type}

/-- On the way from one engine to another these messages are numbered. -/
inductive Numbers (e e' : Engine σ τ) : List NumberedMessage → Prop where
  | none (same : e'.messages = e.messages) : Numbers e e' []
  | one {m : NumberedMessage} (taken : e.messages.next = (m.number, e'.messages))
      (carried : ∀ p ∈ m.packets, p.messageNumber = m.number) : Numbers e e' [m]

theorem numbers_packetize (e : Engine σ τ) (now : Moment) (payload : Bytes) :
    e.Numbers (e.packetize now payload).2
      [⟨e.nextMessage.1, [(e.packetize now payload).1]⟩] := by
  refine .one rfl fun p hp => ?_
  obtain rfl := List.mem_singleton.mp hp
  rfl

theorem numbers_fragment (e : Engine σ τ) (now : Moment) (message : Bytes) :
    e.Numbers (e.fragment now message).2 [⟨e.nextMessage.1, (e.fragment now message).1⟩] :=
  .one rfl fun _ hp => e.fragment_messageNumber now message hp

variable [Sink σ]

theorem numbers_transmit (e : Engine σ τ) (p : DataPacket) : e.Numbers (e.transmit p).2 [] := by
  obtain ⟨outcome, buffer, sink, statistics, sentBound, he⟩ := e.transmit_eq p
  rw [he]
  exact .none rfl

theorem numbers_resend (e : Engine σ τ) (p : DataPacket) : e.Numbers (e.resend p).2 [] := by
  obtain ⟨outcome, statistics, he⟩ := e.resend_eq p
  rw [he]
  exact .none rfl

/-- Of the signals only the one that stamps a packet touches the counter. -/
theorem handle_messages [SilenceTimer τ] (e : Engine σ τ) {x : Signal σ}
    (hx : ∀ now payload, x ≠ .packetize now payload) : (e.handle x).messages = e.messages := by
  have h := e.handles x
  generalize e.handle x = e' at h ⊢
  cases h with
  | packetizes => exact absurd rfl (hx _ _)
  | _ => rfl

end Engine

namespace Sender

variable {σ τ : Type} [Sink σ] [SilenceTimer τ]

/-- The messages that an event numbers: one whose packet is stamped, or one that is let in to be
written. -/
def numbers (s : Sender σ τ) (ev : Event σ) : List NumberedMessage :=
  ((s.stamps ev).map (fun p => [p]) ++ (s.gain ev).written.map Prod.snd).map
    (.mk s.engine.nextMessage.1)

/-- Away from the signals a message is numbered where a write begins, and nowhere else. -/
theorem numbers_changes {s s' : Sender σ τ} {ev : Event σ} {g : Ledger}
    (h : Changes s ev s' g) (hev : ∀ x, ev ≠ .signal x) :
    s.engine.Numbers s'.engine
      ((g.written.map Prod.snd).map (.mk s.engine.nextMessage.1)) := by
  cases h with
  | resends => exact s.engine.numbers_resend _
  | transmits | crashes => exact s.engine.numbers_transmit _
  | @begins _ now message => exact s.engine.numbers_fragment now message
  | signals x => exact absurd rfl (hev x)
  | _ => exact .none rfl

/-- **An event numbers one message or none.** -/
theorem numbers_apply (s : Sender σ τ) (ev : Event σ) :
    s.engine.Numbers (s.apply ev).engine (s.numbers ev) := by
  cases ev with
  | signal x =>
    cases x with
    | packetize now payload => exact s.engine.numbers_packetize now payload
    | _ => exact .none (s.engine.handle_messages fun _ _ h => nomatch h)
  | _ => exact numbers_changes (s.changes _) fun _ h => nomatch h

/-- The messages that a history numbers, in this order. -/
def messages (start : Sender σ τ) (history : List (Event σ)) : List NumberedMessage :=
  gather apply numbers start history

theorem messages_cons (start : Sender σ τ) (ev : Event σ) (history : List (Event σ)) :
    start.messages (ev :: history) = start.numbers ev ++ (start.apply ev).messages history := by
  rfl

theorem messages_concat (start : Sender σ τ) (history : List (Event σ)) (ev : Event σ) :
    start.messages (history ++ [ev])
      = start.messages history ++ (start.replay history).numbers ev :=
  gather_concat apply numbers start history ev

/-- The messages are the packets that were stamped one by one, and the writes that were let
in. -/
theorem packets_messages (start : Sender σ τ) (history : List (Event σ)) :
    ((start.messages history).map NumberedMessage.packets).Perm
      ((start.stamped history).map (fun p => [p])
        ++ (start.ledger history).written.map Prod.snd) := by
  induction history using List.reverseRecOn with
  | nil => exact .refl _
  | append_singleton history ev ih =>
    have hpackets : ((start.replay history).numbers ev).map NumberedMessage.packets
        = ((start.replay history).stamps ev).map (fun p => [p])
          ++ ((start.replay history).gain ev).written.map Prod.snd := by
      unfold numbers
      rw [List.map_map]
      exact List.map_id _
    have hwritten : (start.ledger (history ++ [ev])).written
        = (start.ledger history).written ++ ((start.replay history).gain ev).written := by
      rw [ledger_concat]
      rfl
    rw [messages_concat, stamped_concat, hwritten, List.map_append, List.map_append,
      List.map_append, hpackets]
    -- The packet stamped now only has to pass the earlier writes.
    generalize ((start.replay history).stamps ev).map (fun p => [p]) = newStamped
    generalize ((start.replay history).gain ev).written.map Prod.snd = newWritten
    generalize (start.stamped history).map (fun p => [p]) = oldStamped at ih ⊢
    generalize (start.ledger history).written.map Prod.snd = oldWritten at ih ⊢
    refine (ih.append_right _).trans ?_
    rw [List.append_assoc, List.append_assoc]
    exact (List.perm_append_comm_assoc oldWritten newStamped newWritten).append_left oldStamped

end Sender

/-! ## §4. A run. -/

namespace Engine

variable {σ τ : Type}

/-- The counter stands behind the messages numbered so far, and these have gone round in step
with it. -/
structure InStep (e : Engine σ τ) (messages : List NumberedMessage) : Prop where
  counter : e.messages = .after messages.length
  cycle : messages.map NumberedMessage.number
    = (List.range messages.length).map MessageCounter.nth
  carried : ∀ m ∈ messages, ∀ p ∈ m.packets, p.messageNumber = m.number

theorem InStep.numbers {e e' : Engine σ τ} {messages new : List NumberedMessage}
    (hi : e.InStep messages) (h : e.Numbers e' new) : e'.InStep (messages ++ new) := by
  cases h with
  | none same =>
    rw [List.append_nil]
    exact ⟨same.trans hi.counter, hi.cycle, hi.carried⟩
  | @one m taken carried =>
    -- The message gets the number of its place, which is the count of those before it.
    rw [hi.counter, MessageCounter.next_after] at taken
    obtain ⟨hnumber, hcounter⟩ := Prod.mk.inj taken
    have hlength : (messages ++ [m]).length = messages.length + 1 := List.length_append
    refine ⟨?_, ?_, fun x hx => ?_⟩
    · rw [hlength]
      exact hcounter.symm
    · rw [hlength, List.range_succ, List.map_append, List.map_append, hi.cycle, List.map_singleton,
        List.map_singleton, hnumber]
    · rcases List.mem_append.mp hx with hx | hx
      · exact hi.carried x hx
      · rw [List.mem_singleton.mp hx]
        exact carried

/-- Message `n` has taken number `n`. -/
theorem InStep.number_eq {e : Engine σ τ} {messages : List NumberedMessage}
    (hi : e.InStep messages) {n : Nat} {m : NumberedMessage} (hm : messages[n]? = some m) :
    m.number = MessageCounter.nth n := by
  obtain ⟨hn, rfl⟩ := List.getElem?_eq_some_iff.mp hm
  have hnumber : (messages.map NumberedMessage.number)[n]?
      = ((List.range messages.length).map MessageCounter.nth)[n]? := by rw [hi.cycle]
  rw [List.getElem?_map, List.getElem?_map, hm, List.getElem?_range hn] at hnumber
  exact Option.some.inj hnumber

/-- No two messages of a row that is at most one round long have taken one number. -/
theorem InStep.nodup {e : Engine σ τ} {messages : List NumberedMessage}
    (hi : e.InStep messages) (first : Nat) :
    (((messages.drop first).take (2 ^ 29)).map NumberedMessage.number).Nodup := by
  have hrow : ((List.range messages.length).drop first).take (2 ^ 29)
      = List.range' first (min (2 ^ 29) (messages.length - first)) := by
    rw [List.range_eq_range', List.drop_range', Nat.zero_add, Nat.mul_one,
      List.range'_eq_map_range, ← List.map_take, List.take_range, ← List.range'_eq_map_range]
  rw [List.map_take, List.map_drop, hi.cycle, ← List.map_drop, ← List.map_take, hrow]
  exact MessageCounter.nodup_nth first (Nat.min_le_left _ _)

end Engine

namespace Sender

variable {σ τ : Type} [Sink σ] [SilenceTimer τ]

/-- **The counter and the messages go round in step.** -/
theorem inStep_replay (config : Config) (sink : σ) (timer : τ) (history : List (Event σ)) :
    ((fresh config sink timer).replay history).engine.InStep
      ((fresh config sink timer).messages history) := by
  induction history using List.reverseRecOn with
  | nil => exact ⟨rfl, rfl, fun m hm => absurd hm List.not_mem_nil⟩
  | append_singleton history ev ih =>
    rw [replay_concat, messages_concat]
    exact ih.numbers (numbers_apply _ ev)

/-- **Message numbers cycle without a jump.**  The messages numbered in a run are those of the
packets that were stamped and those that were let in to be written, empty ones included.  Message
`n` has taken the number `n mod 2²⁹`, and all its packets carry it, however often the counter of
32 bits behind the numbers has gone round.  So 2²⁹ messages in a row have different numbers, and
every number fits its field of the header. -/
theorem message_numbers_cycle (config : Config) (sink : σ) (timer : τ)
    (history : List (Event σ)) :
    let start : Sender σ τ := fresh config sink timer
    let messages := start.messages history
    let e := (start.replay history).engine
    (messages.map NumberedMessage.packets).Perm
        ((start.stamped history).map (fun p => [p])
          ++ (start.ledger history).written.map Prod.snd)
      ∧ (∀ (n : Nat) (m : NumberedMessage), messages[n]? = some m →
          m.number.toNat = n % 2 ^ 29 ∧ ∀ p ∈ m.packets, p.messageNumber = m.number)
      ∧ e.messages.count.toNat = messages.length % 2 ^ 32
      ∧ e.nextMessage.1 = e.messages.count &&& 0x1FFFFFFF
      ∧ (∀ first, (((messages.drop first).take (2 ^ 29)).map NumberedMessage.number).Nodup)
      ∧ ∀ m ∈ messages, ∀ p ∈ m.packets, p.NumberFits := by
  intro start messages e
  have hi : e.InStep messages := inStep_replay config sink timer history
  refine ⟨start.packets_messages history, fun n m hm => ⟨?_, ?_⟩, ?_, e.messages.next_eq_and,
    hi.nodup, fun m hm p hp => ?_⟩
  · rw [hi.number_eq hm, MessageCounter.toNat_nth]
  · exact hi.carried m (List.mem_of_getElem? hm)
  · rw [hi.counter]
    exact UInt32.toNat_ofNat'
  · obtain ⟨n, hn⟩ := List.mem_iff_getElem?.mp hm
    refine DataPacket.numberFits_of_le ?_
    rw [hi.carried m hm p hp, hi.number_eq hn, MessageCounter.toNat_nth]
    exact Nat.le_of_lt_succ (Nat.mod_lt n (Nat.succ_pos messageNumberMax))

/-- Packets that are stamped one after the other are messages of one packet each. -/
theorem messages_stamped (s : Sender σ τ) (now : Moment) (payload : Bytes) {i n : Nat}
    (hi : i < n) : ∃ m p,
      (s.messages (List.replicate n (.signal (.packetize now payload))))[i]? = some m
        ∧ m.packets = [p] := by
  induction n generalizing s i with
  | zero => exact absurd hi (Nat.not_lt_zero i)
  | succ n ih =>
    cases i with
    | zero => exact ⟨_, _, rfl, rfl⟩
    | succ i => exact ih (s.apply (.signal (.packetize now payload))) (Nat.lt_of_succ_lt_succ hi)

/-- An empty message takes number 0, and so does the packet that is stamped 2³² messages later,
when the counter has gone round once and the numbers eight times. -/
theorem numbered_across_the_wrap :
    let start : Sender ChannelSink NoTimer := fresh {} {} {}
    let stamp : Event ChannelSink := .signal (.packetize 0 [7])
    let messages := start.messages (.write 0 [] :: List.replicate (2 ^ 32) stamp)
    messages[0]? = some ⟨0, []⟩
      ∧ ∃ (m : NumberedMessage) (p : DataPacket), messages[2 ^ 32]? = some m
        ∧ m.packets = [p] ∧ m.number = 0 ∧ p.messageNumber = 0 ∧ p.NumberFits := by
  intro start stamp messages
  have hempty : start.numbers (.write 0 []) = [⟨0, []⟩] := by decide
  have hmessages : messages
      = ⟨0, []⟩ :: (start.apply (.write 0 [])).messages (List.replicate (2 ^ 32) stamp) := by
    show start.messages (.write 0 [] :: List.replicate (2 ^ 32) stamp) = _
    rw [messages_cons, hempty, List.singleton_append]
  have hlast : 2 ^ 32 - 1 < 2 ^ 32 := by decide
  obtain ⟨m, p, hstamped, hp⟩ := messages_stamped (start.apply (.write 0 [])) 0 [7] hlast
  have hm : messages[2 ^ 32]? = some m := by
    rw [hmessages, List.getElem?_cons, if_neg (by decide)]
    exact hstamped
  have hmem : p ∈ m.packets := by
    rw [hp]
    exact List.mem_cons_self
  obtain ⟨-, hcycle, -, -, -, hfits⟩ := message_numbers_cycle {} ({} : ChannelSink) ({} : NoTimer)
    (.write 0 [] :: List.replicate (2 ^ 32) stamp)
  obtain ⟨hnumber, hcarried⟩ := hcycle (2 ^ 32) m hm
  have hzero : m.number = 0 := UInt32.toNat_inj.mp hnumber
  refine ⟨?_, m, p, hm, hp, hzero, (hcarried p hmem).trans hzero, ?_⟩
  · rw [hmessages, List.getElem?_cons_zero]
  · exact hfits m (List.mem_of_getElem? hm) p hmem

end Sender

end ReliableSender
