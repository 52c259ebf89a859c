import Mathlib

/-!
# Last-write registers

A register of a state is a part of it that some inputs overwrite and the others
leave alone.  After any number of inputs it holds what the last input that says
something about it said, or its old value if none did.

* `lastSaid say items` — what the last of `items` that says something says.
* `get_foldl` — a register after a fold.
* `Repeats say items v` — what was said last, if anything, is `v`.
* `get_foldl_eq_iff` — the fold leaves the register unchanged exactly when what
  was said last is what it already held.
* `SaidAlike say items items' v` — two lists say the same last of what was `v`.
* `get_foldl_eq_get_foldl_iff` — two folds leave the same in the register exactly then.
* `HighestSaid rank say items v` — `v` is what the item of the highest rank says, of
  those that say something.
* `lastSaid_of_highestSaid` — for items in the order of their ranks that is what was
  said last.
-/

namespace LastWrite

universe u v w

variable {σ : Type u} {ι : Type v} {β : Type w}

/-- What the last item that says something says. -/
def lastSaid (say : ι → Option β) (items : List ι) : Option β := (items.filterMap say).getLast?

@[simp] theorem lastSaid_nil (say : ι → Option β) : lastSaid say [] = none := rfl

theorem lastSaid_append (say : ι → Option β) (l l' : List ι) :
    lastSaid say (l ++ l') = (lastSaid say l').or (lastSaid say l) := by
  rw [lastSaid, List.filterMap_append, List.getLast?_append, lastSaid, lastSaid]

theorem lastSaid_concat (say : ι → Option β) (l : List ι) (i : ι) :
    lastSaid say (l ++ [i]) = (say i).or (lastSaid say l) := by
  rw [lastSaid_append]
  cases h : say i <;> simp [lastSaid, h]

/-- Items that say nothing may be left out. -/
theorem lastSaid_filter {say : ι → Option β} {p : ι → Bool} (h : ∀ i, (say i).isSome → p i)
    (l : List ι) : lastSaid say (l.filter p) = lastSaid say l := by
  rw [lastSaid, List.filterMap_filter, lastSaid]
  congr 1
  refine List.filterMap_congr fun i _ => ?_
  cases hi : say i with
  | none => simp
  | some v => simp [h i (by rw [hi]; rfl)]

/-- **A register after a fold** holds what was said last. -/
theorem get_foldl {get : σ → β} {say : ι → Option β} {step : σ → ι → σ}
    (hstep : ∀ s i, get (step s i) = (say i).getD (get s)) (s : σ) (items : List ι) :
    get (items.foldl step s) = (lastSaid say items).getD (get s) := by
  induction items using List.reverseRecOn with
  | nil => rfl
  | append_singleton items i ih =>
    rw [List.foldl_append, List.foldl_cons, List.foldl_nil, hstep, ih, lastSaid_concat]
    cases say i <;> rfl

/-- What was said last, if anything, is `v`. -/
def Repeats (say : ι → Option β) (items : List ι) (v : β) : Prop :=
  ∀ w, lastSaid say items = some w → w = v

theorem repeats_iff {say : ι → Option β} {items : List ι} {v : β} :
    Repeats say items v ↔ (lastSaid say items).getD v = v := by
  rw [Repeats]
  cases lastSaid say items <;> simp

@[simp] theorem repeats_nil (say : ι → Option β) (v : β) : Repeats say [] v := by
  intro w hw
  simp at hw

/-- A fold leaves a register unchanged exactly when the last thing said of it is
what it already held. -/
theorem get_foldl_eq_iff {get : σ → β} {say : ι → Option β} {step : σ → ι → σ}
    (hstep : ∀ s i, get (step s i) = (say i).getD (get s)) (s : σ) (items : List ι) :
    get (items.foldl step s) = get s ↔ Repeats say items (get s) := by
  rw [get_foldl hstep, repeats_iff]

/-- Two lists say the same last of what was `v`. -/
def SaidAlike (say : ι → Option β) (items items' : List ι) (v : β) : Prop :=
  (lastSaid say items).getD v = (lastSaid say items').getD v

/-- Two folds leave the same in a register exactly when the same was said of it last. -/
theorem get_foldl_eq_get_foldl_iff {get : σ → β} {say : ι → Option β} {step : σ → ι → σ}
    (hstep : ∀ s i, get (step s i) = (say i).getD (get s)) (s : σ) (items items' : List ι) :
    get (items.foldl step s) = get (items'.foldl step s)
      ↔ SaidAlike say items items' (get s) := by
  rw [get_foldl hstep, get_foldl hstep, SaidAlike]

theorem saidAlike_nil_iff {say : ι → Option β} {items : List ι} {v : β} :
    SaidAlike say items [] v ↔ Repeats say items v := by
  rw [SaidAlike, repeats_iff]
  rfl

section

variable {κ : Type*} [LinearOrder κ]

/-- What the item of the highest rank says, of those that say something. -/
def HighestSaid (rank : ι → κ) (say : ι → Option β) (items : List ι) (v : β) : Prop :=
  ∃ i ∈ items, say i = some v ∧ ∀ j ∈ items, (say j).isSome → rank j ≤ rank i

/-- Of items in the order of their ranks the one of the highest rank comes last. -/
theorem lastSaid_of_highestSaid {rank : ι → κ} {say : ι → Option β} {items : List ι} {v : β}
    (hsorted : items.Pairwise fun i j => rank i < rank j) (h : HighestSaid rank say items v) :
    lastSaid say items = some v := by
  obtain ⟨i, hi, hsay, hmax⟩ := h
  obtain ⟨l, l', rfl⟩ := List.append_of_mem hi
  -- whatever comes after `i` has a higher rank, and says nothing
  have hafter : ∀ j ∈ l', say j = none := by
    intro j hj
    have hlt : rank i < rank j :=
      (List.pairwise_cons.mp (List.pairwise_append.mp hsorted).2.1).1 j hj
    have hle := hmax j (List.mem_append_right l (List.mem_cons_of_mem i hj))
    by_contra hsome
    exact absurd (hle (Option.isSome_iff_ne_none.mpr hsome)) (not_le.mpr hlt)
  have hnone : l'.filterMap say = [] := List.filterMap_eq_nil_iff.mpr hafter
  rw [lastSaid, List.filterMap_append, List.filterMap_cons_some hsay, hnone, List.getLast?_append]
  rfl

end

end LastWrite
