/-
  ReliableSender.Proofs.Chronicle
  ───────────────────────────────
  **WHAT HAPPENED IN A HISTORY.**

  A state knows where a history has led, not how.  These look back, and each
  judges an event by the events before it:

      Sometime P h  — some event of `h` stands in `P`
      Always P h    — every event of `h` does
      Since P Q h   — some event of `h` stands in `P`, and none after it in `Q`
      gather        — what the events of a history yield, in order

  All of them grow at the end of a history, so an induction on the history
  from its end adds one event at a time.
-/
import Mathlib.Data.List.Induction

namespace ReliableSender

variable {ε : Type}

/-! ## §1. Events that came once, and events that came always. -/

/-- Some event of a history stands in `P` to the events before it. -/
def Sometime (P : List ε → ε → Prop) (h : List ε) : Prop :=
  ∃ before ev after, h = before ++ ev :: after ∧ P before ev

@[simp] theorem not_sometime_nil {P : List ε → ε → Prop} : ¬ Sometime P [] := by
  rintro ⟨before, ev, after, he, _⟩
  simp at he

theorem sometime_concat {P : List ε → ε → Prop} {h : List ε} {ev : ε} :
    Sometime P (h ++ [ev]) ↔ Sometime P h ∨ P h ev := by
  constructor
  · rintro ⟨before, x, after, he, hp⟩
    rcases List.eq_nil_or_concat after with rfl | ⟨after, y, rfl⟩
    · obtain ⟨rfl, hx⟩ := List.append_inj' he rfl
      obtain rfl : ev = x := by simpa using hx
      exact Or.inr hp
    · have he' : h ++ [ev] = (before ++ x :: after) ++ [y] := by simpa using he
      obtain ⟨rfl, _⟩ := List.append_inj' he' rfl
      exact Or.inl ⟨before, x, after, rfl, hp⟩
  · rintro (⟨before, x, after, rfl, hp⟩ | hp)
    · exact ⟨before, x, after ++ [ev], by simp, hp⟩
    · exact ⟨h, ev, [], rfl, hp⟩

/-- Every event of a history stands in `P` to the events before it. -/
def Always (P : List ε → ε → Prop) (h : List ε) : Prop :=
  ∀ before ev after, h = before ++ ev :: after → P before ev

@[simp] theorem always_nil {P : List ε → ε → Prop} : Always P [] := by
  intro before ev after he
  exact absurd he (by simp)

theorem always_concat {P : List ε → ε → Prop} {h : List ε} {ev : ε} :
    Always P (h ++ [ev]) ↔ Always P h ∧ P h ev := by
  constructor
  · intro hall
    refine ⟨fun before x after he => hall before x (after ++ [ev]) ?_, hall h ev [] rfl⟩
    rw [he, List.append_assoc]
    rfl
  · rintro ⟨hall, hlast⟩ before x after he
    rcases List.eq_nil_or_concat after with rfl | ⟨after, y, rfl⟩
    · obtain ⟨rfl, hx⟩ := List.append_inj' he rfl
      obtain rfl : ev = x := by simpa using hx
      exact hlast
    · have he' : h ++ [ev] = (before ++ x :: after) ++ [y] := by simpa using he
      obtain ⟨rfl, _⟩ := List.append_inj' he' rfl
      exact hall before x after rfl

theorem always_cons {P : List ε → ε → Prop} {h : List ε} {ev : ε} :
    Always P (ev :: h) ↔ P [] ev ∧ Always (fun before => P (ev :: before)) h := by
  constructor
  · intro hall
    refine ⟨hall [] ev h rfl, fun before x after he => hall (ev :: before) x after ?_⟩
    rw [he]
    rfl
  · rintro ⟨hfirst, hrest⟩ before x after he
    cases before with
    | nil =>
      obtain ⟨rfl, _⟩ := List.cons.inj he
      exact hfirst
    | cons y before =>
      obtain ⟨rfl, hlater⟩ := List.cons.inj he
      exact hrest before x after hlater

instance decidableAlways : (P : List ε → ε → Prop) → [∀ before ev, Decidable (P before ev)] →
    (h : List ε) → Decidable (Always P h)
  | _, _, [] => .isTrue always_nil
  | P, _, ev :: h =>
    have := decidableAlways (fun before => P (ev :: before)) h
    decidable_of_iff (P [] ev ∧ Always (fun before => P (ev :: before)) h) always_cons.symm

/-! ## §2. Events that nothing has undone. -/

/-- Some event of a history stands in `P` to the events before it, and no event after it
stands in `Q`. -/
def Since (P Q : List ε → ε → Prop) (h : List ε) : Prop :=
  ∃ before ev after, h = before ++ ev :: after ∧ P before ev
    ∧ Always (fun between x => ¬ Q (before ++ ev :: between) x) after

@[simp] theorem not_since_nil {P Q : List ε → ε → Prop} : ¬ Since P Q [] := by
  rintro ⟨before, ev, after, he, _⟩
  simp at he

theorem since_concat {P Q : List ε → ε → Prop} {h : List ε} {ev : ε} :
    Since P Q (h ++ [ev]) ↔ P h ev ∨ Since P Q h ∧ ¬ Q h ev := by
  constructor
  · rintro ⟨before, x, after, he, hp, hq⟩
    rcases List.eq_nil_or_concat after with rfl | ⟨after, y, rfl⟩
    · obtain ⟨rfl, hx⟩ := List.append_inj' he rfl
      obtain rfl : ev = x := by simpa using hx
      exact Or.inl hp
    · have he' : h ++ [ev] = (before ++ x :: after) ++ [y] := by simpa using he
      obtain ⟨rfl, hy⟩ := List.append_inj' he' rfl
      obtain rfl : ev = y := by simpa using hy
      have hboth := always_concat.mp (by simpa using hq)
      exact Or.inr ⟨⟨before, x, after, rfl, hp, hboth.1⟩, hboth.2⟩
  · rintro (hp | ⟨⟨before, x, after, rfl, hp, hq⟩, hlast⟩)
    · exact ⟨h, ev, [], rfl, hp, always_nil⟩
    · refine ⟨before, x, after ++ [ev], by simp, hp, ?_⟩
      exact always_concat.mpr ⟨hq, hlast⟩

/-! ## §3. What a history yields. -/

variable {α β : Type}

/-- What the events of a history yield, each in the state that it meets. -/
def gather (apply : α → ε → α) (yield : α → ε → List β) (a : α) : List ε → List β
  | [] => []
  | ev :: later => yield a ev ++ gather apply yield (apply a ev) later

theorem gather_concat (apply : α → ε → α) (yield : α → ε → List β) (a : α) (h : List ε)
    (ev : ε) :
    gather apply yield a (h ++ [ev])
      = gather apply yield a h ++ yield (h.foldl apply a) ev := by
  induction h generalizing a with
  | nil =>
    show yield a ev ++ [] = [] ++ yield a ev
    rw [List.append_nil, List.nil_append]
  | cons x h ih =>
    show yield a x ++ gather apply yield (apply a x) (h ++ [ev])
      = yield a x ++ gather apply yield (apply a x) h ++ yield (h.foldl apply (apply a x)) ev
    rw [ih, List.append_assoc]

/-- A record that every event extends by what it yields holds in the end what the history
yields. -/
theorem record_foldl (record : α → List β) {apply : α → ε → α} {yield : α → ε → List β}
    {h : List ε} (hrecord : ∀ ev ∈ h, ∀ a, record (apply a ev) = record a ++ yield a ev) (a : α) :
    record (h.foldl apply a) = record a ++ gather apply yield a h := by
  induction h generalizing a with
  | nil => exact (List.append_nil _).symm
  | cons ev h ih =>
    have hlater := ih (fun x hx => hrecord x (List.mem_cons_of_mem ev hx)) (apply a ev)
    have hnow := hrecord ev List.mem_cons_self a
    rw [List.foldl_cons, hlater, hnow, List.append_assoc]
    rfl

theorem filterMap_gather {γ : Type} (f : β → Option γ) (apply : α → ε → α)
    (yield : α → ε → List β) (a : α) (h : List ε) :
    (gather apply yield a h).filterMap f
      = gather apply (fun a ev => (yield a ev).filterMap f) a h := by
  induction h generalizing a with
  | nil => rfl
  | cons ev h ih =>
    show (yield a ev ++ gather apply yield (apply a ev) h).filterMap f = _
    rw [List.filterMap_append, ih]
    rfl

/-- A ledger that every event balances is balanced in the end: what came in has gone out or
is held. -/
theorem balance_foldl {apply : α → ε → α} (Inv : α → Prop) (enters leaves : α → ε → List β)
    (holds : α → List β)
    (hstep : ∀ a, Inv a → ∀ ev, (enters a ev ++ holds a).Perm (leaves a ev ++ holds (apply a ev))
      ∧ Inv (apply a ev)) {a : α} (ha : Inv a) (h : List ε) :
    (gather apply enters a h ++ holds a).Perm (gather apply leaves a h ++ holds (h.foldl apply a))
      ∧ Inv (h.foldl apply a) := by
  induction h generalizing a with
  | nil => exact ⟨List.Perm.refl _, ha⟩
  | cons ev h ih =>
    obtain ⟨hnow, hinv⟩ := hstep a ha ev
    obtain ⟨hlater, hend⟩ := ih hinv
    refine ⟨?_, hend⟩
    show (enters a ev ++ gather apply enters (apply a ev) h ++ holds a).Perm
      (leaves a ev ++ gather apply leaves (apply a ev) h ++ holds (h.foldl apply (apply a ev)))
    generalize gather apply enters (apply a ev) h = ins at hlater ⊢
    generalize gather apply leaves (apply a ev) h = outs at hlater ⊢
    rw [List.append_assoc, List.append_assoc]
    calc List.Perm (enters a ev ++ (ins ++ holds a)) (ins ++ (enters a ev ++ holds a)) :=
          List.perm_append_comm_assoc _ _ _
      List.Perm _ (ins ++ (leaves a ev ++ holds (apply a ev))) := hnow.append_left ins
      List.Perm _ (leaves a ev ++ (ins ++ holds (apply a ev))) :=
          List.perm_append_comm_assoc _ _ _
      List.Perm _ (leaves a ev ++ (outs ++ holds (h.foldl apply (apply a ev)))) :=
          hlater.append_left _

end ReliableSender
