import Mathlib

/-!
# Runs of consecutive integers

* `IsRun a l` — the list `l` counts up from `a` in steps of one.
* `Unbroken S a m` — every integer from `a` to `m` is in the set `S`: what a
  reader that starts at `a` and never passes a missing number can get to.
-/

namespace Consecutive

/-- `l` is `a, a + 1, a + 2, …`. -/
def IsRun : ℤ → List ℤ → Prop
  | _, [] => True
  | a, x :: l => x = a ∧ IsRun (a + 1) l

@[simp] theorem isRun_nil (a : ℤ) : IsRun a [] := trivial

@[simp] theorem isRun_cons {a x : ℤ} {l : List ℤ} :
    IsRun a (x :: l) ↔ x = a ∧ IsRun (a + 1) l := Iff.rfl

instance decidableIsRun : (a : ℤ) → (l : List ℤ) → Decidable (IsRun a l)
  | _, [] => isTrue trivial
  | a, x :: l => @instDecidableAnd (x = a) (IsRun (a + 1) l) _ (decidableIsRun (a + 1) l)

theorem isRun_append {a : ℤ} {l l' : List ℤ} :
    IsRun a (l ++ l') ↔ IsRun a l ∧ IsRun (a + l.length) l' := by
  induction l generalizing a with
  | nil => simp
  | cons x l ih =>
    rw [List.cons_append, isRun_cons, ih, isRun_cons, and_assoc, List.length_cons]
    have h : a + 1 + (l.length : ℤ) = a + ((l.length + 1 : ℕ) : ℤ) := by push_cast; ring
    rw [h]

/-- A run holds exactly the integers it counts through. -/
theorem mem_iff {a : ℤ} {l : List ℤ} (h : IsRun a l) (m : ℤ) :
    m ∈ l ↔ a ≤ m ∧ m < a + l.length := by
  induction l generalizing a with
  | nil => simp
  | cons x l ih =>
    obtain ⟨rfl, hl⟩ := h
    rw [List.mem_cons, ih hl, List.length_cons]
    push_cast
    omega

/-- The last number of a nonempty run. -/
theorem getLast?_eq {a : ℤ} {l : List ℤ} (h : IsRun a l) (hne : l ≠ []) :
    l.getLast? = some (a + l.length - 1) := by
  induction l using List.reverseRecOn with
  | nil => exact absurd rfl hne
  | append_singleton l x _ =>
    obtain ⟨-, hx, -⟩ := isRun_append.mp h
    rw [List.getLast?_concat, hx, List.length_append, List.length_singleton]
    push_cast
    congr 1
    ring

theorem pairwise_lt {a : ℤ} {l : List ℤ} (h : IsRun a l) : l.Pairwise (· < ·) := by
  induction l generalizing a with
  | nil => exact List.Pairwise.nil
  | cons x l ih =>
    obtain ⟨rfl, hl⟩ := h
    refine List.pairwise_cons.mpr ⟨fun m hm => ?_, ih hl⟩
    have := (mem_iff hl m).mp hm
    omega

theorem nodup {a : ℤ} {l : List ℤ} (h : IsRun a l) : l.Nodup :=
  (pairwise_lt h).imp fun hlt => ne_of_lt hlt

theorem eq_map_range {a : ℤ} {l : List ℤ} (h : IsRun a l) :
    l = (List.range l.length).map fun i : ℕ => a + i := by
  induction l using List.reverseRecOn with
  | nil => rfl
  | append_singleton l x ih =>
    obtain ⟨hl, hx, -⟩ := isRun_append.mp h
    rw [List.length_append, List.length_singleton, List.range_succ, List.map_append, ← ih hl, hx]
    rfl

/-- Every integer from `a` to `m` is in `S`. -/
def Unbroken (S : Set ℤ) (a m : ℤ) : Prop := a ≤ m ∧ ∀ k, a ≤ k → k ≤ m → k ∈ S

theorem Unbroken.of_le {S : Set ℤ} {a m k : ℤ} (h : Unbroken S a m) (ha : a ≤ k) (hk : k ≤ m) :
    Unbroken S a k := ⟨ha, fun j hj hjk => h.2 j hj (hjk.trans hk)⟩

/-- An unbroken stretch is no longer than a list of all its numbers. -/
theorem Unbroken.lt_add_length {l : List ℤ} {a m : ℤ} (h : Unbroken {k | k ∈ l} a m) :
    m < a + l.length := by
  have hsub : Finset.Icc a m ⊆ l.toFinset := by
    intro k hk
    rw [Finset.mem_Icc] at hk
    exact List.mem_toFinset.mpr (h.2 k hk.1 hk.2)
  have hcard := (Finset.card_le_card hsub).trans (List.toFinset_card_le l)
  rw [Int.card_Icc] at hcard
  have hle := h.1
  omega

end Consecutive
