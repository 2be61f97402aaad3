/-
  ReliableSender.Ascending
  ────────────────────────
  **LISTS IN STRICTLY ASCENDING ORDER OF A NUMERIC KEY.**

  The send buffer and the loss list are read lowest number first, and a loss
  report is written in ascending order.  All three keep a list on which a
  key strictly ascends, so each number occurs at most once and the least is
  the head.

      insertBy key x   — put `x` in its place, unless its key is taken
      distinct xs      — the different members of `xs`, ascending
-/
namespace ReliableSender

variable {α : Type}

/-- The key strictly ascends along the list. -/
abbrev AscendingBy (key : α → Nat) (xs : List α) : Prop :=
  xs.Pairwise fun a b => key a < key b

/-- The numbers strictly ascend. -/
abbrev Ascending (xs : List Nat) : Prop := xs.Pairwise (· < ·)

/-! ## §1. Inserting one element. -/

/-- Put an element in its place; an element that is there under the same key
stays, and the new one is dropped. -/
def insertBy (key : α → Nat) (x : α) : List α → List α
  | [] => [x]
  | y :: ys =>
    if key x < key y then x :: y :: ys
    else if key x = key y then y :: ys
    else y :: insertBy key x ys

theorem mem_of_mem_insertBy {key : α → Nat} {x z : α} {xs : List α}
    (h : z ∈ insertBy key x xs) : z = x ∨ z ∈ xs := by
  induction xs with
  | nil => simpa [insertBy] using h
  | cons y ys ih =>
    simp only [insertBy] at h
    split at h
    · simpa using h
    · split at h
      · exact Or.inr h
      · rcases List.mem_cons.mp h with rfl | h
        · simp
        · rcases ih h with h | h <;> simp [h]

theorem ascendingBy_insertBy {key : α → Nat} (x : α) {xs : List α}
    (h : AscendingBy key xs) : AscendingBy key (insertBy key x xs) := by
  induction xs with
  | nil => simp [insertBy]
  | cons y ys ih =>
    obtain ⟨hy, hys⟩ := List.pairwise_cons.mp h
    simp only [insertBy]
    split
    · rename_i hxy
      refine List.pairwise_cons.mpr ⟨fun z hz => ?_, h⟩
      rcases List.mem_cons.mp hz with rfl | hz
      · exact hxy
      · exact Nat.lt_trans hxy (hy z hz)
    · split
      · exact h
      · refine List.pairwise_cons.mpr ⟨fun z hz => ?_, ih hys⟩
        rcases mem_of_mem_insertBy hz with rfl | hz
        · omega
        · exact hy z hz

/-! ## §2. The different members of a list. -/

/-- Put a number in front, unless the list starts with it. -/
def consNew (x : Nat) (xs : List Nat) : List Nat :=
  if xs.head? = some x then xs else x :: xs

/-- The different members, ascending. -/
def distinct (xs : List Nat) : List Nat :=
  (xs.mergeSort (· ≤ ·)).foldr consNew []

theorem mem_consNew {x z : Nat} {xs : List Nat} : z ∈ consNew x xs ↔ z = x ∨ z ∈ xs := by
  unfold consNew
  split
  · rename_i h
    constructor
    · exact Or.inr
    · rintro (rfl | hz)
      · exact List.mem_of_mem_head? h
      · exact hz
  · exact List.mem_cons

theorem mem_foldr_consNew {z : Nat} {xs : List Nat} : z ∈ xs.foldr consNew [] ↔ z ∈ xs := by
  induction xs with
  | nil => simp
  | cons x xs ih => rw [List.foldr_cons, mem_consNew, ih, List.mem_cons]

theorem ascending_foldr_consNew {xs : List Nat} (h : xs.Pairwise (· ≤ ·)) :
    Ascending (xs.foldr consNew []) := by
  induction xs with
  | nil => simp
  | cons x xs ih =>
    obtain ⟨hx, hxs⟩ := List.pairwise_cons.mp h
    have ih := ih hxs
    rw [List.foldr_cons]
    unfold consNew
    split
    · exact ih
    · rename_i hne
      refine List.pairwise_cons.mpr ⟨fun z hz => ?_, ih⟩
      have hle := hx z (mem_foldr_consNew.mp hz)
      refine Nat.lt_of_le_of_ne hle fun he => hne ?_
      subst he
      match hf : xs.foldr consNew [], hz, ih with
      | y :: ys, hz, ih =>
        rcases List.mem_cons.mp hz with rfl | hz
        · rfl
        · have hyx := (List.pairwise_cons.mp ih).1 _ hz
          have hxy := hx y (mem_foldr_consNew.mp (hf ▸ List.mem_cons_self))
          omega

@[simp] theorem mem_distinct {z : Nat} {xs : List Nat} : z ∈ distinct xs ↔ z ∈ xs := by
  rw [distinct, mem_foldr_consNew, List.mem_mergeSort]

theorem ascending_distinct (xs : List Nat) : Ascending (distinct xs) := by
  refine ascending_foldr_consNew ?_
  have h := @List.pairwise_mergeSort Nat (fun a b => decide (a ≤ b))
    (by simp; omega) (by simp; omega) xs
  simpa using h

end ReliableSender
