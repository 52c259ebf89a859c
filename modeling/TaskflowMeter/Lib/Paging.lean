import Mathlib

/-!
# Pages of a sorted list

A list with strictly increasing keys is handed out in pages.  Going on after an item
can mean two things: to drop the list up to its position, or to leave out every key
that is not above its own.  In such a list these are the same.

* `SortedBy key l` — the keys of `l` increase strictly.
* `after key k l` — the items of `l` with keys above `k`.
* `sortedBy_insertionSort` — sorting by distinct keys.
* `drop_eq_after` — **positions and keys agree**: what follows an item is what has
  keys above its own.
* `after_getLast?_take`, `mem_take_iff` — what a page takes, and what it leaves.
* `insertionSort_append_cons` — an item that stands between two groups of others does so
  once they are sorted.
-/

namespace Paging

universe u v

variable {α : Type u} {κ : Type v} [LinearOrder κ] {key : α → κ}

/-- The keys increase strictly. -/
def SortedBy (key : α → κ) (l : List α) : Prop := l.Pairwise fun a b => key a < key b

/-- The items with keys above `k`. -/
def after (key : α → κ) (k : κ) (l : List α) : List α := l.filter fun a => k < key a

@[simp] theorem mem_after {k : κ} {l : List α} {a : α} : a ∈ after key k l ↔ a ∈ l ∧ k < key a := by
  simp [after]

theorem SortedBy.after {l : List α} (h : SortedBy key l) (k : κ) : SortedBy key (after key k l) :=
  List.Pairwise.filter _ h

theorem SortedBy.drop {l : List α} (h : SortedBy key l) (n : ℕ) : SortedBy key (l.drop n) :=
  List.Pairwise.sublist (List.drop_sublist n l) h

theorem SortedBy.nodup {l : List α} (h : SortedBy key l) : l.Nodup :=
  List.Pairwise.imp (fun hlt heq => absurd (congrArg key heq) hlt.ne) h

/-- Sorting by distinct keys. -/
theorem sortedBy_insertionSort {l : List α} (h : (l.map key).Nodup) :
    SortedBy key (l.insertionSort fun a b => key a ≤ key b) := by
  have : Std.Total fun a b : α => key a ≤ key b := ⟨fun a b => le_total (key a) (key b)⟩
  have : IsTrans α fun a b => key a ≤ key b := ⟨fun _ _ _ => le_trans⟩
  have hle := List.pairwise_insertionSort (fun a b => key a ≤ key b) l
  have hperm : (l.insertionSort fun a b => key a ≤ key b).Perm l := List.perm_insertionSort _ _
  have hne : (l.insertionSort fun a b => key a ≤ key b).Pairwise fun a b => key a ≠ key b :=
    List.pairwise_map.mp ((hperm.map key).nodup_iff.mpr h)
  exact hle.imp₂ (fun a b hab hne => lt_of_le_of_ne hab hne) hne

/-- A sorted list is determined by its items. -/
theorem SortedBy.eq_of_perm {l l' : List α} (h : SortedBy key l) (h' : SortedBy key l')
    (hperm : l.Perm l') : l = l' :=
  List.Perm.eq_of_pairwise (fun _ _ _ _ hab hba => absurd hba (lt_asymm hab)) h h' hperm

/-- What follows an item is what has keys above its own. -/
theorem after_append_cons {l l' : List α} {a : α} (h : SortedBy key (l ++ a :: l')) :
    after key (key a) (l ++ a :: l') = l' := by
  obtain ⟨-, hright, hcross⟩ := List.pairwise_append.mp h
  have hbefore : l.filter (fun x => key a < key x) = [] := by
    rw [List.filter_eq_nil_iff]
    intro x hx
    simpa using (hcross x hx a List.mem_cons_self).le
  have hafter : l'.filter (fun x => key a < key x) = l' := by
    rw [List.filter_eq_self]
    intro x hx
    exact decide_eq_true ((List.pairwise_cons.mp hright).1 x hx)
  rw [after, List.filter_append, hbefore, List.filter_cons_of_neg (by simp), hafter,
    List.nil_append]

/-- Going on after a later item. -/
theorem after_after {j k : κ} (h : j ≤ k) (l : List α) :
    after key k (after key j l) = after key k l := by
  rw [after, after, List.filter_filter, after]
  refine List.filter_congr fun a _ => ?_
  by_cases hk : k < key a
  · simp [hk, h.trans_lt hk]
  · simp [hk]

/-- A page and what it leaves. -/
theorem eq_of_getLast?_take {l : List α} {n : ℕ} {b : α} (hb : (l.take n).getLast? = some b) :
    ∃ ys, l.take n = ys ++ [b] ∧ l = ys ++ b :: l.drop n := by
  obtain ⟨ys, hys⟩ := List.getLast?_eq_some_iff.mp hb
  refine ⟨ys, hys, ?_⟩
  conv_lhs => rw [← List.take_append_drop n l, hys, List.append_assoc, List.singleton_append]

/-- A page leaves what has keys above its last. -/
theorem after_getLast?_take {l : List α} (h : SortedBy key l) {n : ℕ} {b : α}
    (hb : (l.take n).getLast? = some b) : after key (key b) l = l.drop n := by
  obtain ⟨ys, -, hl⟩ := eq_of_getLast?_take hb
  conv_lhs => rw [hl]
  exact after_append_cons (hl ▸ h)

/-- **Positions and keys agree**: dropping a sorted list up to an item leaves what has
keys above its own. -/
theorem drop_eq_after {l : List α} (h : SortedBy key l) {i : ℕ} {a : α} (hi : l[i]? = some a) :
    l.drop (i + 1) = after key (key a) l := by
  have hlast : (l.take (i + 1)).getLast? = some a := by
    rw [List.getLast?_take, if_neg (Nat.succ_ne_zero i), Nat.add_sub_cancel, hi]
    rfl
  exact (after_getLast?_take h hlast).symm

/-- A page takes what has keys up to its last. -/
theorem mem_take_iff {l : List α} (h : SortedBy key l) {n : ℕ} {a b : α}
    (hb : (l.take n).getLast? = some b) (ha : a ∈ l) : a ∈ l.take n ↔ key a ≤ key b := by
  obtain ⟨ys, htake, hl⟩ := eq_of_getLast?_take hb
  have hsorted : SortedBy key (ys ++ b :: l.drop n) := hl ▸ h
  obtain ⟨-, hright, hcross⟩ := List.pairwise_append.mp hsorted
  rw [htake]
  constructor
  · intro hmem
    rcases List.mem_append.mp hmem with hys | hb
    · exact (hcross a hys b List.mem_cons_self).le
    · rw [List.mem_singleton.mp hb]
  · intro hle
    rw [hl] at ha
    rcases List.mem_append.mp ha with hys | hafter
    · exact List.mem_append_left [b] hys
    · rcases List.mem_cons.mp hafter with rfl | hdrop
      · exact List.mem_append_right ys List.mem_cons_self
      · exact absurd ((List.pairwise_cons.mp hright).1 a hdrop) (not_lt.mpr hle)

/-- An item with keys of one group below its own, and of another above it, stands
between them once all are sorted. -/
theorem insertionSort_append_cons {l l' : List α} {a : α} (h : ((l ++ a :: l').map key).Nodup)
    (hbelow : ∀ x ∈ l', key x < key a) (habove : ∀ x ∈ l, key a < key x) :
    (l ++ a :: l').insertionSort (fun a b => key a ≤ key b)
      = l'.insertionSort (fun a b => key a ≤ key b)
        ++ a :: l.insertionSort (fun a b => key a ≤ key b) := by
  have hl : SortedBy key (l.insertionSort fun a b => key a ≤ key b) :=
    sortedBy_insertionSort (h.sublist ((List.sublist_append_left l _).map key))
  have hl' : SortedBy key (l'.insertionSort fun a b => key a ≤ key b) :=
    sortedBy_insertionSort
      (h.sublist (((List.sublist_cons_self a l').trans (List.sublist_append_right l _)).map key))
  have hmem : ∀ {l : List α} {x : α},
      x ∈ l.insertionSort (fun a b => key a ≤ key b) ↔ x ∈ l := fun {l x} =>
    (List.perm_insertionSort _ l).mem_iff
  refine (sortedBy_insertionSort h).eq_of_perm ?_ ?_
  · refine List.pairwise_append.mpr ⟨hl', List.pairwise_cons.mpr ⟨?_, hl⟩, ?_⟩
    · intro x hx
      exact habove x (hmem.mp hx)
    · intro x hx y hy
      rcases List.mem_cons.mp hy with rfl | hy
      · exact hbelow x (hmem.mp hx)
      · exact (hbelow x (hmem.mp hx)).trans (habove y (hmem.mp hy))
  · have hswap : (l ++ a :: l').Perm (l' ++ a :: l) :=
      (List.perm_middle.trans (List.perm_append_comm.cons a)).trans List.perm_middle.symm
    exact ((List.perm_insertionSort _ _).trans hswap).trans
      ((List.perm_insertionSort _ l').symm.append ((List.perm_insertionSort _ l).symm.cons a))

end Paging
