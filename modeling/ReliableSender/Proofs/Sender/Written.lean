/-
  ReliableSender.Proofs.Sender.Written
  ────────────────────────────────────
  **WHAT IS WRITTEN CAN BE SENT.**

  An accepted configuration keeps the pieces of a message within what one
  datagram carries, a message number is cut to the 29 bits that the header
  has for it, and a sequence number fits as long as no number above the
  largest has been issued.  So the codec refuses nothing that comes from a
  write.  A worker that ends because of the codec was offered a packet by
  somebody else.

      Fits                      — the limits that the packets of a message keep
      limited_replay            — the packets of all messages of a run keep them
      blamed_replay             — a worker that fails was refused a packet
      sourced_replay            — what is accepted was written or announced
      written_never_unencodable — all together
-/
import ReliableSender.Proofs.Engine.Partition
import ReliableSender.Proofs.Packet.WriteBack
import ReliableSender.Proofs.Sender.Stream
import ReliableSender.Proofs.Sender.Tried
import ReliableSender.Proofs.Transport.Encoding

namespace ReliableSender

/-! ## §1. Packets that fit. -/

namespace DataPacket

/-- A packet that makes one datagram, and is read back from it to the last octet. -/
def Transmittable (p : DataPacket) : Prop :=
  ∃ datagram, (Packet.data p).encode = .ok datagram ∧ datagram.length ≤ 65507
    ∧ Packet.decode datagram = .ok (.data p, [])

/-- The limits of a packet where so many sequence numbers have been issued. -/
structure Fits (p : DataPacket) (issued : Nat) : Prop where
  sequence : p.sequence < issued
  messageNumber : p.messageNumber.toNat ≤ messageNumberMax
  payload : p.payload.length ≤ maxPayloadLength

theorem Fits.mono {p : DataPacket} {m n : Nat} (h : p.Fits m) (hmn : m ≤ n) : p.Fits n :=
  { h with sequence := Nat.lt_of_lt_of_le h.sequence hmn }

theorem length_toBytes (p : DataPacket) : p.toBytes.length = p.encodedLength := by
  unfold toBytes
  rw [List.length_append]
  rfl

/-- A packet within its limits has no fault. -/
theorem Fits.fault? {p : DataPacket} {issued : Nat} (h : p.Fits issued)
    (hissued : issued ≤ sequenceMax + 1) : p.fault? = none := by
  have hsequence : p.sequence ≤ sequenceMax :=
    Nat.le_of_lt_succ (Nat.lt_of_lt_of_le h.sequence hissued)
  unfold DataPacket.fault?
  rw [if_neg (Nat.not_lt.mpr hsequence), if_neg (Nat.not_lt.mpr h.messageNumber),
    if_neg (Nat.not_lt.mpr h.payload)]

theorem Fits.transmittable {p : DataPacket} {issued : Nat} (h : p.Fits issued)
    (hissued : issued ≤ sequenceMax + 1) : p.Transmittable := by
  have hfault := h.fault? hissued
  obtain ⟨hsequence, hnumber⟩ := fault?_eq_none hfault
  refine ⟨p.toBytes, ?_, ?_, decode_toBytes hsequence hnumber⟩
  · have hwritten := Packet.encode_eq (.data p)
    rw [show (Packet.data p).fault? = none from hfault] at hwritten
    exact hwritten
  · rw [length_toBytes]
    show headerSize + p.payload.length ≤ 65507
    have hpayload := h.payload
    unfold maxPayloadLength headerSize at *
    omega

end DataPacket

/-- The header has room for every message number. -/
theorem MessageCounter.next_le (c : MessageCounter) : c.next.1.toNat ≤ messageNumberMax := by
  show (UInt32.ofNat (c.count.toNat % (messageNumberMax + 1))).toNat ≤ messageNumberMax
  have hless := Nat.mod_lt c.count.toNat (Nat.succ_pos messageNumberMax)
  rw [UInt32.toNat_ofNat']
  exact (Nat.mod_le _ _).trans (Nat.le_of_lt_succ hless)

/-- An accepted configuration has pieces of at least one octet that fit a datagram. -/
theorem ConfigInput.maxPayload_of_resolve {input : ConfigInput} {config : Config}
    (h : input.resolve = .ok config) :
    0 < config.maxPayload ∧ config.maxPayload ≤ maxPayloadLength := by
  unfold resolve at h
  cases hfault : fault? input.complete with
  | some fault =>
    rw [hfault] at h
    cases h
  | none =>
    rw [hfault] at h
    obtain rfl := Except.ok.inj h
    -- The capacity of the queue and the timeout are checked before the size of a piece.
    unfold fault? at hfault
    split at hfault
    · cases hfault
    split at hfault
    · cases hfault
    split at hfault
    · cases hfault
    rename_i hsize
    omega

/-! ## §2. Numbers that go on. -/

namespace Engine

variable {σ τ : Type}

/-- An engine later in a run: the configuration is the same, and no number was taken back. -/
structure Continues (e e' : Engine σ τ) : Prop where
  config : e'.config = e.config
  issued : e.sequences.issued ≤ e'.sequences.issued

theorem continues_fragment (e : Engine σ τ) (now : Moment) (message : Bytes) :
    e.Continues (e.fragment now message).2 := by
  rw [(e.partition_fragment now message).counted]
  exact ⟨rfl, Nat.le_add_right _ _⟩

/-- The packets of a message carry issued numbers. -/
theorem lt_issued_of_fragment {e : Engine σ τ} {now : Moment} {message : Bytes} {p : DataPacket}
    (hp : p ∈ (e.fragment now message).1) :
    p.sequence < (e.fragment now message).2.sequences.issued := by
  have hpartition := e.partition_fragment now message
  have hnumber : p.sequence ∈ (e.fragment now message).1.map DataPacket.sequence :=
    List.mem_map_of_mem hp
  rw [hpartition.consecutive, List.mem_range'_1] at hnumber
  rw [hpartition.counted]
  exact hnumber.2

/-- The packets of a message are within their limits. -/
theorem fits_of_fragment {e : Engine σ τ} (hvalid : e.config.maxPayload ≤ maxPayloadLength)
    {now : Moment} {message : Bytes} {p : DataPacket} (hp : p ∈ (e.fragment now message).1) :
    p.Fits (e.fragment now message).2.sequences.issued := by
  have hpartition := e.partition_fragment now message
  refine ⟨lt_issued_of_fragment hp, ?_, ?_⟩
  · rw [hpartition.oneMessage p hp]
    exact e.messages.next_le
  · exact (hpartition.within p hp).trans (Nat.max_le.mpr ⟨hvalid, by decide⟩)

variable [Sink σ]

theorem continues_transmit (e : Engine σ τ) (p : DataPacket) : e.Continues (e.transmit p).2 := by
  obtain ⟨outcome, buffer, sink, statistics, sentBound, he⟩ := e.transmit_eq p
  rw [he]
  exact ⟨rfl, Nat.le_refl _⟩

theorem continues_resend (e : Engine σ τ) (p : DataPacket) : e.Continues (e.resend p).2 := by
  obtain ⟨outcome, statistics, he⟩ := e.resend_eq p
  rw [he]
  exact ⟨rfl, Nat.le_refl _⟩

variable [SilenceTimer τ]

theorem continues_handle (e : Engine σ τ) (x : Signal σ) : e.Continues (e.handle x) := by
  have h := e.handles x
  generalize e.handle x = e' at h ⊢
  cases h with
  | packetizes | numbers => exact ⟨rfl, Nat.le_succ _⟩
  | _ => exact ⟨rfl, Nat.le_refl _⟩

end Engine

namespace Sender

variable {σ τ : Type} [Sink σ] [SilenceTimer τ]

theorem continues_changes {s s' : Sender σ τ} {ev : Event σ} {g : Ledger}
    (h : Changes s ev s' g) : s.engine.Continues s'.engine := by
  cases h with
  | resends => exact s.engine.continues_resend _
  | transmits | crashes => exact s.engine.continues_transmit _
  | @begins _ now message => exact s.engine.continues_fragment now message
  | signals x => exact s.engine.continues_handle x
  | _ => exact ⟨rfl, Nat.le_refl _⟩

/-- All packets of messages keep their limits, and the next message's will. -/
structure Limited (s : Sender σ τ) (l : Ledger) : Prop where
  valid : s.engine.config.maxPayload ≤ maxPayloadLength
  packets : ∀ p ∈ l.packets, p.Fits s.engine.sequences.issued

theorem limited_changes {s s' : Sender σ τ} {ev : Event σ} {l g : Ledger}
    (h : Changes s ev s' g) (hi : s.Limited l) : s'.Limited (l.append g) := by
  have hgoes := continues_changes h
  refine ⟨hgoes.config ▸ hi.valid, fun p hp => ?_⟩
  rw [Ledger.packets_append, List.mem_append] at hp
  rcases hp with hp | hp
  · exact (hi.packets p hp).mono hgoes.issued
  · -- Packets are made where a write begins, and nowhere else.
    cases h with
    | @begins _ now message =>
      have hpackets : Ledger.packets { written := [(message, (s.engine.fragment now message).1)] }
          = (s.engine.fragment now message).1 := List.append_nil _
      rw [hpackets] at hp
      exact Engine.fits_of_fragment hi.valid hp
    | _ => exact absurd hp List.not_mem_nil

/-- **The packets of all messages keep their limits.** -/
theorem limited_replay {config : Config} (hvalid : config.maxPayload ≤ maxPayloadLength)
    (sink : σ) (timer : τ) (history : List (Event σ)) :
    ((fresh config sink timer).replay history).Limited
      ((fresh config sink timer).ledger history) := by
  refine invariant_replay Limited ?_ limited_changes history
  exact ⟨hvalid, fun p hp => absurd hp List.not_mem_nil⟩

end Sender

/-! ## §3. What a worker fails of. -/

/-- What a worker fails of, from the attempt at a packet to its end. -/
def Worker.failure? : Worker → Option TransportError
  | .working (.settling _ (.error (.transport cause)))
  | .working (.done (.error (.transport cause))) => some cause
  | .leaving (.failed cause) | .closing (.failed cause) | .ended (.failed cause) => some cause
  | _ => none

theorem Worker.fault?_of_failure? {w : Worker} {cause : TransportError}
    (h : w.failure? = some cause) : w.fault? = some (.transport cause) := by
  unfold failure? at h
  split at h
  case h_6 => cases h
  all_goals
    obtain rfl := Option.some.inj h
    rfl

namespace Sender

variable {σ τ : Type} [Sink σ] [SilenceTimer τ]

/-- A worker that fails has been refused a packet. -/
def Blamed (s : Sender σ τ) (l : Ledger) : Prop :=
  ∀ cause, s.worker.failure? = some cause →
    ∃ p, (p, .error (.transport cause)) ∈ l.attempted

/-- **A worker that fails has been refused a packet.** -/
theorem blamed_replay (config : Config) (sink : σ) (timer : τ) (history : List (Event σ)) :
    ((fresh config sink timer).replay history).Blamed
      ((fresh config sink timer).ledger history) := by
  intro cause hcause
  obtain ⟨p, hp⟩ :=
    (fault_iff config sink timer history _).mp (Worker.fault?_of_failure? hcause)
  exact ⟨p, mem_attempted_of_refused hp⟩

end Sender

/-! ## §4. Where a packet comes from. -/

namespace Sender

variable {σ τ : Type}

/-- What is on its way into the queue, or was accepted there, was made for a message or
announced by somebody. -/
structure Sourced (s : Sender σ τ) (l : Ledger) (history : List (Event σ)) : Prop where
  offers : ∀ p ∈ s.offers, .announce p ∈ history
  unsent : ∀ p ∈ s.writer.unsent, p ∈ l.packets
  accepted : ∀ p ∈ l.accepted, p ∈ l.packets ∨ .announce p ∈ history

/-- An event brings in what it announces, makes or accepts. -/
theorem Sourced.extend {s s' : Sender σ τ} {l g : Ledger} {history : List (Event σ)}
    {ev : Event σ} (hi : s.Sourced l history)
    (ho : ∀ p ∈ s'.offers, p ∈ s.offers ∨ ev = .announce p)
    (hu : ∀ p ∈ s'.writer.unsent, p ∈ s.writer.unsent ∨ p ∈ g.packets)
    (ha : ∀ p ∈ g.accepted, p ∈ s.writer.unsent ∨ p ∈ s.offers) :
    s'.Sourced (l.append g) (history ++ [ev]) := by
  have hpackets : ∀ p, p ∈ l.packets → p ∈ (l.append g).packets := fun p hp => by
    rw [Ledger.packets_append]
    exact List.mem_append_left _ hp
  have hearlier : ∀ x, x ∈ history → x ∈ history ++ [ev] := fun x hx =>
    List.mem_append_left _ hx
  refine ⟨fun p hp => ?_, fun p hp => ?_, fun p hp => ?_⟩
  · rcases ho p hp with hp | rfl
    · exact hearlier _ (hi.offers p hp)
    · exact List.mem_append_right _ (List.mem_singleton.mpr rfl)
  · rcases hu p hp with hp | hp
    · exact hpackets p (hi.unsent p hp)
    · rw [Ledger.packets_append]
      exact List.mem_append_right _ hp
  · rcases List.mem_append.mp hp with hp | hp
    · exact (hi.accepted p hp).imp (hpackets p) (hearlier _)
    · rcases ha p hp with hp | hp
      · exact Or.inl (hpackets p (hi.unsent p hp))
      · exact Or.inr (hearlier _ (hi.offers p hp))

variable [Sink σ] [SilenceTimer τ]

theorem sourced_changes {s s' : Sender σ τ} {ev : Event σ} {l g : Ledger}
    {history : List (Event σ)} (h : Changes s ev s' g) (hi : s.Sourced l history) :
    s'.Sourced (l.append g) (history ++ [ev]) := by
  have hnone : ∀ p : DataPacket, p ∈ [] → p ∈ s.writer.unsent ∨ p ∈ s.offers :=
    fun p hp => absurd hp List.not_mem_nil
  -- Packets reach the queue from the offers or from the write, and both are accounted for.
  cases h with
  | @announces p =>
    refine hi.extend (fun q hq => ?_) (fun q hq => Or.inl hq) hnone
    refine (List.mem_append.mp hq).imp_right fun hq => ?_
    rw [List.mem_singleton.mp hq]
  | @accepts n p hn =>
    refine hi.extend (fun q hq => Or.inl (List.mem_of_mem_eraseIdx hq)) (fun q hq => Or.inl hq)
      fun q hq => Or.inr ?_
    rw [List.mem_singleton.mp hq]
    exact List.mem_of_getElem? hn
  | takesBack =>
    exact hi.extend (fun q hq => Or.inl (List.mem_of_mem_eraseIdx hq)) (fun q hq => Or.inl hq) hnone
  | @begins _ now message =>
    refine hi.extend (fun q hq => Or.inl hq) (fun q hq => Or.inr ?_) hnone
    show q ∈ (s.engine.fragment now message).1 ++ []
    rw [List.append_nil]
    exact hq
  | announcesNext hw =>
    refine hi.extend (fun q hq => Or.inl hq) (fun q hq => Or.inl ?_) hnone
    rw [hw]
    exact hq
  | acceptsNext hw =>
    refine hi.extend (fun q hq => Or.inl hq) (fun q hq => Or.inl ?_) fun q hq => Or.inl ?_
    · rw [hw]
      exact List.mem_cons_of_mem _ hq
    · rw [hw, List.mem_singleton.mp hq]
      exact List.mem_cons_self
  | turnsAway | refusesNext | finishes =>
    exact hi.extend (fun q hq => Or.inl hq) (fun q hq => absurd hq List.not_mem_nil) hnone
  | _ => exact hi.extend (fun q hq => Or.inl hq) (fun q hq => Or.inl hq) hnone

/-- **Every packet that is accepted was made for a message or announced by somebody.** -/
theorem sourced_replay (config : Config) (sink : σ) (timer : τ) (history : List (Event σ)) :
    ((fresh config sink timer).replay history).Sourced
      ((fresh config sink timer).ledger history) history := by
  induction history using List.reverseRecOn with
  | nil =>
    have hnone : ∀ {P : DataPacket → Prop}, ∀ p ∈ [], P p := fun p hp => absurd hp List.not_mem_nil
    exact ⟨hnone, hnone, hnone⟩
  | append_singleton history ev ih =>
    rw [replay_concat, ledger_concat]
    exact sourced_changes (changes _ ev) ih

end Sender

/-! ## §5. What the codec refuses. -/

/-- New data is called unencodable only if it is. -/
theorem Engine.encode_of_transmit {σ τ : Type} [Sink σ] [Sink.AsksCodec σ] {e : Engine σ τ}
    {p : DataPacket} {cause : CodecError}
    (h : (e.transmit p).1 = .error (.transport (.unencodable cause))) :
    (Packet.data p).encode = .error cause := by
  have ht := e.transmits p
  generalize e.transmit p = r at ht h
  cases ht with
  | duplicate | sent => cases h
  | failed _ hrefused =>
    obtain rfl := Except.error.inj h
    exact Sink.AsksCodec.encode_eq (Sink.send_of_attempt hrefused)

namespace Sender

variable {σ τ : Type} [Sink σ] [SilenceTimer τ] [Sink.AsksCodec σ]

/-- An attempt that ends because of the codec is at a packet that has no octets. -/
def Refusable (l : Ledger) : Prop :=
  ∀ p cause, (p, .error (.transport (.unencodable cause))) ∈ l.attempted →
    (Packet.data p).encode = .error cause

theorem refusable_changes {s s' : Sender σ τ} {ev : Event σ} {l g : Ledger}
    (h : Changes s ev s' g) (hi : Refusable l) : Refusable (l.append g) := by
  intro p cause hp
  rcases List.mem_append.mp hp with hp | hp
  · exact hi p cause hp
  · cases h with
    | @transmits window q =>
      obtain ⟨rfl, houtcome⟩ := Prod.mk.inj (List.mem_singleton.mp hp)
      exact Engine.encode_of_transmit houtcome.symm
    | crashes =>
      obtain ⟨-, houtcome⟩ := Prod.mk.inj (List.mem_singleton.mp hp)
      cases houtcome
    | _ => exact absurd hp List.not_mem_nil

theorem refusable_replay (config : Config) (sink : σ) (timer : τ) (history : List (Event σ)) :
    Refusable ((fresh config sink timer).ledger history) := by
  refine invariant_replay (fun _ l => Refusable l) ?_ refusable_changes history
  exact fun p cause hp => absurd hp List.not_mem_nil

/-! ## §6. Written data and the codec. -/

/-- **Nothing that is written is beyond the codec.**  Under an accepted configuration, and as
long as no sequence number above the largest has been issued, every packet of every message
makes one datagram and is read back from it.  No attempt at such a packet ends because of the
codec, and if a worker ends because of it, then of a packet that somebody announced and that
is no message's. -/
theorem written_never_unencodable {input : ConfigInput} {config : Config}
    (haccepted : input.resolve = .ok config) (sink : σ) (timer : τ) (history : List (Event σ))
    (hissued : ((fresh config sink timer).replay history).engine.sequences.issued
      ≤ sequenceMax + 1) :
    let s : Sender σ τ := (fresh config sink timer).replay history
    let l := (fresh config sink timer).ledger history
    (∀ p ∈ l.packets, p.Transmittable)
      ∧ (∀ p ∈ l.packets, ∀ cause,
          (p, .error (.transport (.unencodable cause))) ∉ l.attempted)
      ∧ (∀ cause, s.worker = .ended (.failed (.unencodable cause)) →
          ∃ p ∉ l.packets, .announce p ∈ history
            ∧ (p, .error (.transport (.unencodable cause))) ∈ l.attempted) := by
  intro s l
  have hlimited := limited_replay (ConfigInput.maxPayload_of_resolve haccepted).2 sink timer history
  have hwritten : ∀ p ∈ l.packets, p.Transmittable :=
    fun p hp => (hlimited.packets p hp).transmittable hissued
  have hspared : ∀ p ∈ l.packets, ∀ cause,
      (p, .error (.transport (.unencodable cause))) ∉ l.attempted := by
    intro p hp cause hattempt
    -- The packet has octets, so the codec cannot have refused it.
    obtain ⟨datagram, hencode, -⟩ := hwritten p hp
    have hrefused := refusable_replay config sink timer history p cause hattempt
    rw [hencode] at hrefused
    cases hrefused
  refine ⟨hwritten, hspared, fun cause hended => ?_⟩
  obtain ⟨p, hp⟩ := blamed_replay config sink timer history (.unencodable cause) (by
    show s.worker.failure? = _
    rw [hended]
    rfl)
  have hmade : p ∉ l.packets := fun h => hspared p h cause hp
  have htaken : p ∈ l.accepted :=
    (attempted_begins (consistent_replay config sink timer history)).subset
      (List.mem_map_of_mem hp)
  have hsource := (sourced_replay config sink timer history).accepted p htaken
  exact ⟨p, hmade, hsource.resolve_left hmade, hp⟩

/-- A message of three octets is sent; a packet that somebody else announced has a number
beyond the header, and the worker ends because of it. -/
theorem ended_of_announced_packet :
    let start : Sender ChannelSink NoTimer := fresh { maxPayload := 2 } {} {}
    let history : List (Event ChannelSink) :=
      .write 0 [7, 8, 9] :: List.replicate 5 .writeOn
        ++ [.announce { sequence := sequenceMax + 1 }, .attempt 0] ++ List.replicate 26 .work
    let cause : CodecError := .sequenceOverflow (sequenceMax + 1)
    ({ maxPayload := some 2 } : ConfigInput).resolve = .ok { maxPayload := 2 }
      ∧ (start.replay history).engine.sequences.issued ≤ sequenceMax + 1
      ∧ (start.replay history).worker = .ended (.failed (.unencodable cause))
      ∧ (start.ledger history).packets.length = 2
      ∧ (∀ p ∈ (start.ledger history).packets, p.Transmittable)
      ∧ ∃ p ∉ (start.ledger history).packets, .announce p ∈ history := by
  intro start history cause
  have haccepted : ({ maxPayload := some 2 } : ConfigInput).resolve = .ok { maxPayload := 2 } := rfl
  have hissued : (start.replay history).engine.sequences.issued ≤ sequenceMax + 1 := by
    decide +kernel
  have hended : (start.replay history).worker = .ended (.failed (.unencodable cause)) := by cbv
  have hlength : (start.ledger history).packets.length = 2 := by decide +kernel
  clear_value history
  obtain ⟨hwritten, -, hblamed⟩ :=
    written_never_unencodable haccepted ({} : ChannelSink) ({} : NoTimer) history hissued
  obtain ⟨p, hmade, hannounced, -⟩ := hblamed cause hended
  exact ⟨haccepted, hissued, hended, hlength, hwritten, p, hmade, hannounced⟩

end Sender

end ReliableSender
