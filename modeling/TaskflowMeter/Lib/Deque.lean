import Mathlib

/-!
# Bounded queues

A queue of at most `maxlen` items: appending to a full one drops the oldest.

* `Deque` — the items, oldest first, with the proof that they fit.
* `Deque.append`, `Deque.extend` — add an item, or several, at the young end.
* `Deque.items_extend` — adding several is keeping the last of all.
* `Deque.rtake_rtake_append` — keeping the last items of a list one part at a time is
  keeping the last ones of all.
-/

universe u

/-- A queue holding at most `maxlen` items. -/
structure Deque (α : Type u) where
  /-- How many items fit. -/
  maxlen : ℕ
  /-- The items, oldest first. -/
  items : List α
  length_le : items.length ≤ maxlen
  deriving DecidableEq, Repr

namespace Deque

variable {α : Type u}

/-- The empty queue of a given size. -/
def new (maxlen : ℕ) : Deque α := ⟨maxlen, [], Nat.zero_le _⟩

/-- Append an item, dropping the oldest when the queue is full. -/
def append (d : Deque α) (x : α) : Deque α where
  maxlen := d.maxlen
  items := (d.items ++ [x]).rtake d.maxlen
  length_le := by rw [List.rtake, List.length_drop]; omega

@[simp] theorem maxlen_new (n : ℕ) : (new n : Deque α).maxlen = n := rfl

@[simp] theorem items_new (n : ℕ) : (new n : Deque α).items = [] := rfl

@[simp] theorem maxlen_append (d : Deque α) (x : α) : (d.append x).maxlen = d.maxlen := rfl

theorem items_append (d : Deque α) (x : α) :
    (d.append x).items = (d.items ++ [x]).rtake d.maxlen := rfl

/-- The item appended last is there, in a queue of any room. -/
theorem getLast?_append {d : Deque α} (h : 1 ≤ d.maxlen) (x : α) :
    (d.append x).items.getLast? = some x := by
  obtain ⟨n, hn⟩ := Nat.exists_eq_add_of_le' h
  rw [items_append, hn, List.rtake_concat_succ, List.getLast?_concat]

theorem rtake_of_length_le {l : List α} {n : ℕ} (h : l.length ≤ n) : l.rtake n = l := by
  rw [List.rtake, Nat.sub_eq_zero_of_le h, List.drop_zero]

/-- Keeping the last `n` items of a list one part at a time. -/
theorem rtake_rtake_append (n : ℕ) (l l' : List α) :
    (l.rtake n ++ l').rtake n = (l ++ l').rtake n := by
  rw [List.rtake_eq_reverse_take_reverse, List.rtake_eq_reverse_take_reverse,
    List.rtake_eq_reverse_take_reverse]
  simp only [List.reverse_append, List.reverse_reverse, List.take_append, List.take_take,
    List.length_reverse]
  rw [Nat.min_eq_left (Nat.sub_le _ _)]

/-! ### Several items -/

/-- Append items one after the other. -/
def extend (d : Deque α) (l : List α) : Deque α := l.foldl append d

@[simp] theorem maxlen_extend (d : Deque α) (l : List α) : (d.extend l).maxlen = d.maxlen := by
  induction l generalizing d with
  | nil => rfl
  | cons x l ih => exact ih (d.append x)

/-- Adding several items is keeping the last of all. -/
theorem items_extend (d : Deque α) (l : List α) :
    (d.extend l).items = (d.items ++ l).rtake d.maxlen := by
  induction l generalizing d with
  | nil =>
    rw [List.append_nil, rtake_of_length_le d.length_le]
    rfl
  | cons x l ih =>
    have hrest := ih (d.append x)
    rwa [items_append, maxlen_append, rtake_rtake_append, List.append_assoc] at hrest

theorem length_rtake (l : List α) (n : ℕ) : (l.rtake n).length = min n l.length := by
  rw [List.rtake, List.length_drop]
  omega

end Deque
