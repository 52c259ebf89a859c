import TaskflowMeter.Lib.Consecutive

/-!
# Followers of a numbered log

Of a log whose items are numbered 1, 2, 3, … the first ones get lost in time.  A follower is given
items one after the other and may be told to skip some; it refuses what does not fit.

## Main definitions

* `Follower.View` — what a follower has been given and told.
* `View.item`, `View.skip` — the next item, and that all up to a number are gone.
* `Follower.Accounts` — the view accounts for every number.

## Main results

* `Accounts.item`, `Accounts.skip` — what the follower does not refuse keeps its accounts.
* `items_eq_some` — items that are numbered on are not refused.
* `Accounts.mem_received` — **what is not lost and not ahead has been received.**
-/

namespace Follower

open Consecutive

variable {α : Type*} (num : α → ℤ)

/-- What a follower has been given, and told. -/
structure View (α : Type*) where
  received : List α := []
  /-- The numbers of the items that it was told are gone. -/
  gone : List ℤ := []
  /-- Every item up to here was received, or is gone. -/
  last : ℤ := 0
  deriving DecidableEq, Repr

namespace View

/-- The number of the last item received. -/
def since (v : View α) : ℤ := ((v.received.getLast?).map num).getD 0

/-- The next item. -/
def item (v : View α) (a : α) : Option (View α) :=
  if num a = v.last + 1 then
    some { v with received := v.received ++ [a], last := v.last + 1 }
  else none

/-- The numbers after one and before another. -/
def between (last resume : ℤ) : List ℤ :=
  (List.range (resume - 1 - last).toNat).map fun i : ℕ => last + 1 + i

/-- What comes before a number is gone, and among it the item after the last one received. -/
def skip (v : View α) (resume : ℤ) : Option (View α) :=
  if v.since num + 1 < resume ∧ v.last < resume then
    some { v with gone := v.gone ++ between v.last resume, last := resume - 1 }
  else none

/-- Items, one after the other. -/
def items (v : View α) (as : List α) : Option (View α) := as.foldlM (item num) v

theorem isRun_between (last resume : ℤ) : IsRun (last + 1) (between last resume) := by
  rw [between]
  induction (resume - 1 - last).toNat with
  | zero => trivial
  | succ n ih => simp [List.range_succ, isRun_append, ih]

theorem length_between {last resume : ℤ} (h : last < resume) :
    ((between last resume).length : ℤ) = resume - 1 - last := by
  rw [between, List.length_map, List.length_range]
  omega

@[simp] theorem since_concat (v : View α) (a : α) (gone : List ℤ) (last : ℤ) :
    since num { received := v.received ++ [a], gone := gone, last := last } = num a := by
  rw [since, List.getLast?_concat, Option.map_some, Option.getD_some]

variable {num}

/-- Items that are numbered on are not refused. -/
theorem items_eq_some {v : View α} {as : List α} (h : IsRun (v.last + 1) (as.map num)) :
    v.items num as
      = some { v with received := v.received ++ as, last := v.last + as.length } := by
  induction as generalizing v with
  | nil => simp [items]
  | cons a as ih =>
    obtain ⟨ha, hrest⟩ := h
    have hitem : v.item num a = some { v with received := v.received ++ [a], last := v.last + 1 } :=
      if_pos ha
    rw [items, List.foldlM_cons, hitem]
    refine (ih hrest).trans ?_
    simp only [List.append_assoc, List.singleton_append, List.length_cons, Nat.cast_add,
      Nat.cast_one]
    congr 2
    ring

end View

/-- The view accounts for every number up to where it is, as far as the items `stored` and the
numbers up to `lost` allow. -/
structure Accounts (stored : List α) (lost : ℤ) (v : View α) : Prop where
  mem : ∀ a ∈ v.received, a ∈ stored
  ordered : (v.received.map num).Pairwise (· < ·)
  /-- Each number was received, or announced as gone, once. -/
  numbered : ∃ l, IsRun 1 l ∧ v.last = l.length ∧ (v.received.map num ++ v.gone).Perm l
  gone_le : ∀ m ∈ v.gone, m ≤ lost
  since_le : v.since num ≤ v.last
  last_eq : v.last = v.since num ∨ v.last ≤ lost

namespace Accounts

variable {num} {stored : List α} {lost : ℤ} {v v' : View α}

theorem new (stored : List α) (lost : ℤ) : Accounts num stored lost {} where
  mem := List.forall_mem_nil _
  ordered := .nil
  numbered := ⟨[], trivial, rfl, .nil⟩
  gone_le := List.forall_mem_nil _
  since_le := le_rfl
  last_eq := .inl rfl

/-- More is stored, and more is lost. -/
theorem mono (h : Accounts num stored lost v) {stored' : List α} (hstored : stored ⊆ stored')
    {lost' : ℤ} (hlost : lost ≤ lost') : Accounts num stored' lost' v where
  mem a ha := hstored (h.mem a ha)
  ordered := h.ordered
  numbered := h.numbered
  gone_le m hm := (h.gone_le m hm).trans hlost
  since_le := h.since_le
  last_eq := h.last_eq.imp_right fun hle => hle.trans hlost

/-- The numbers that the view accounts for. -/
theorem mem_iff (h : Accounts num stored lost v) (m : ℤ) :
    m ∈ v.received.map num ++ v.gone ↔ 1 ≤ m ∧ m ≤ v.last := by
  obtain ⟨l, hrun, hlast, hperm⟩ := h.numbered
  rw [hperm.mem_iff, Consecutive.mem_iff hrun, hlast]
  omega

theorem since_nonneg (h : Accounts num stored lost v) : 0 ≤ v.since num := by
  rw [View.since]
  cases hlast : v.received.getLast? with
  | none => simp
  | some a =>
    have hmem := (h.mem_iff (num a)).mp
      (List.mem_append_left _ (List.mem_map_of_mem (List.mem_of_getLast? hlast)))
    simp only [Option.map_some, Option.getD_some]
    omega

/-- **The next item keeps the accounts.** -/
theorem item (h : Accounts num stored lost v) {a : α} (ha : a ∈ stored)
    (hitem : v.item num a = some v') : Accounts num stored lost v' := by
  rw [View.item, Option.ite_none_right_eq_some, Option.some.injEq] at hitem
  obtain ⟨hnum, rfl⟩ := hitem
  refine ⟨?_, ?_, ?_, h.gone_le, ?_, ?_⟩
  · intro b hb
    rcases List.mem_append.mp hb with hb | hb
    · exact h.mem b hb
    · exact List.mem_singleton.mp hb ▸ ha
  · rw [List.map_append, List.pairwise_append]
    refine ⟨h.ordered, List.pairwise_singleton _ _, fun m hm n hn => ?_⟩
    have hle := ((h.mem_iff m).mp (List.mem_append_left _ hm)).2
    rw [List.map_singleton, List.mem_singleton] at hn
    omega
  · obtain ⟨l, hrun, hlast, hperm⟩ := h.numbered
    refine ⟨l ++ [num a], isRun_append.mpr ⟨hrun, by rw [hnum, hlast, add_comm], trivial⟩, ?_, ?_⟩
    · simp [hlast]
    · rw [List.map_append, List.map_singleton, List.append_assoc]
      refine ((List.perm_append_comm).append_left _).trans ?_
      rw [← List.append_assoc]
      exact hperm.append_right _
  · simp [hnum]
  · simp [hnum]

/-- **So does an announcement**, if what is announced as gone is lost. -/
theorem skip (h : Accounts num stored lost v) {resume : ℤ} (hlost : resume ≤ lost + 1)
    (hskip : v.skip num resume = some v') : Accounts num stored lost v' := by
  rw [View.skip, Option.ite_none_right_eq_some, Option.some.injEq] at hskip
  obtain ⟨⟨hsince, hresume⟩, rfl⟩ := hskip
  have hbetween := View.isRun_between v.last resume
  have hlength := View.length_between hresume
  refine ⟨h.mem, h.ordered, ?_, ?_, ?_, .inr ?_⟩
  · obtain ⟨l, hrun, hlast, hperm⟩ := h.numbered
    refine ⟨l ++ View.between v.last resume, isRun_append.mpr ⟨hrun, ?_⟩, ?_, ?_⟩
    · rwa [add_comm, ← hlast]
    · rw [List.length_append, Nat.cast_add, hlength]
      show resume - 1 = _
      omega
    · rw [← List.append_assoc]
      exact hperm.append_right _
  · intro m hm
    rcases List.mem_append.mp hm with hm | hm
    · exact h.gone_le m hm
    · have hle := (Consecutive.mem_iff hbetween m).mp hm
      omega
  · show v.since num ≤ resume - 1
    omega
  · show resume - 1 ≤ lost
    omega

/-- **What is not lost and not ahead has been received.** -/
theorem mem_received (h : Accounts num stored lost v) (hnodup : (stored.map num).Nodup) {a : α}
    (ha : a ∈ stored) (hpos : 1 ≤ num a) (hlost : lost < num a) (hle : num a ≤ v.last) :
    a ∈ v.received := by
  rcases List.mem_append.mp ((h.mem_iff (num a)).mpr ⟨hpos, hle⟩) with hmem | hgone
  · obtain ⟨b, hb, heq⟩ := List.mem_map.mp hmem
    exact List.inj_on_of_nodup_map hnodup (h.mem b hb) ha heq ▸ hb
  · have hle := h.gone_le _ hgone
    omega

end Accounts

end Follower
