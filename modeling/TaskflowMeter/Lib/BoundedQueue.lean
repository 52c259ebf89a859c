import Mathlib

/-!
# Bounded first-in-first-out queues

What threads can do to a queue they share: each operation is atomic, and is refused rather
than waited for.

* `BoundedQueue` — the entries, oldest first, with the proof that they fit, and how many
  that were ever put have not been marked as done.
* `put?`, `get?`, `taskDone?` — the operations.
* `Maps` — one queue holds the images of what another one holds, and so after each operation.
* `sum_map_set` — what a change to one place of a list does to a sum over it.
-/

universe u v

/-- A queue of at most `maxsize` entries. -/
structure BoundedQueue (α : Type u) (maxsize : ℕ) where
  /-- The entries, oldest first. -/
  entries : List α := []
  /-- How many have been put and not marked as done. -/
  unfinished : ℕ := 0
  length_le : entries.length ≤ maxsize := by simp

namespace BoundedQueue

variable {α : Type u} {maxsize : ℕ}

/-- Put an entry at the young end, unless the queue is full. -/
def put? (q : BoundedQueue α maxsize) (x : α) : Option (BoundedQueue α maxsize) :=
  if h : q.entries.length < maxsize then
    some
      { entries := q.entries ++ [x]
        unfinished := q.unfinished + 1
        length_le := by rw [List.length_append, List.length_singleton]; omega }
  else none

/-- Take the oldest entry, unless the queue is empty. -/
def get? (q : BoundedQueue α maxsize) : Option (α × BoundedQueue α maxsize) :=
  match h : q.entries with
  | [] => none
  | x :: rest =>
      some (x,
        { q with
          entries := rest
          length_le := by
            have hlen := q.length_le
            rw [h, List.length_cons] at hlen
            omega })

/-- Mark an entry as done, unless all of them are. -/
def taskDone? (q : BoundedQueue α maxsize) : Option (BoundedQueue α maxsize) :=
  if q.unfinished = 0 then none else some { q with unfinished := q.unfinished - 1 }

/-- What putting does. -/
theorem put?_eq_some {q q' : BoundedQueue α maxsize} {x : α} (h : q.put? x = some q') :
    q'.entries = q.entries ++ [x] ∧ q'.unfinished = q.unfinished + 1 := by
  rw [put?] at h
  split at h
  · obtain rfl := Option.some.inj h
    exact ⟨rfl, rfl⟩
  · cases h

theorem put?_eq_none_iff {q : BoundedQueue α maxsize} {x : α} :
    q.put? x = none ↔ maxsize ≤ q.entries.length := by
  rw [put?]
  split <;> simp_all

/-- What taking does. -/
theorem get?_eq_some {q q' : BoundedQueue α maxsize} {x : α} (h : q.get? = some (x, q')) :
    q.entries = x :: q'.entries ∧ q'.unfinished = q.unfinished := by
  rw [get?] at h
  split at h
  · cases h
  · next y rest heq =>
    obtain ⟨rfl, rfl⟩ := Prod.mk.inj (Option.some.inj h)
    exact ⟨heq, rfl⟩

/-- The oldest entry can be taken. -/
theorem get?_of_cons {q : BoundedQueue α maxsize} {x : α} {rest : List α}
    (h : q.entries = x :: rest) : ∃ q', q.get? = some (x, q') ∧ q'.entries = rest := by
  obtain ⟨entries, unfinished, hle⟩ := q
  dsimp only at h
  subst h
  exact ⟨_, rfl, rfl⟩

/-- What marking does. -/
theorem taskDone?_eq_some {q q' : BoundedQueue α maxsize} (h : q.taskDone? = some q') :
    q'.entries = q.entries ∧ q.unfinished = q'.unfinished + 1 := by
  rw [taskDone?] at h
  split at h
  · cases h
  · next hne =>
    obtain rfl := Option.some.inj h
    exact ⟨rfl, (Nat.succ_pred_eq_of_ne_zero hne).symm⟩

theorem taskDone?_eq_none_iff {q : BoundedQueue α maxsize} :
    q.taskDone? = none ↔ q.unfinished = 0 := by
  rw [taskDone?]
  split <;> simp_all

/-- One queue holds the images of what another one holds. -/
structure Maps {β : Type v} (f : α → β) (q : BoundedQueue α maxsize) (q' : BoundedQueue β maxsize) :
    Prop where
  entries : q'.entries = q.entries.map f
  unfinished : q'.unfinished = q.unfinished

section Maps

variable {β : Type v} {f : α → β} {q : BoundedQueue α maxsize} {q' : BoundedQueue β maxsize}

theorem Maps.put? (h : Maps f q q') (x : α) : Option.Rel (Maps f) (q.put? x) (q'.put? (f x)) := by
  have hlength : q'.entries.length = q.entries.length := by rw [h.entries, List.length_map]
  unfold BoundedQueue.put?
  by_cases hroom : q.entries.length < maxsize
  · rw [dif_pos hroom, dif_pos (hlength ▸ hroom)]
    exact .some ⟨by simp [h.entries], by simp [h.unfinished]⟩
  · rw [dif_neg hroom, dif_neg (hlength ▸ hroom)]
    exact .none

theorem Maps.get? (h : Maps f q q') :
    Option.Rel (fun a b => b.1 = f a.1 ∧ Maps f a.2 b.2) q.get? q'.get? := by
  obtain ⟨entries, unfinished, hle⟩ := q
  obtain ⟨entries', unfinished', hle'⟩ := q'
  obtain ⟨hentries, hunfinished⟩ := h
  dsimp only at hentries hunfinished
  subst hentries hunfinished
  cases entries with
  | nil => exact .none
  | cons x rest => exact .some ⟨rfl, rfl, rfl⟩

theorem Maps.taskDone? (h : Maps f q q') : Option.Rel (Maps f) q.taskDone? q'.taskDone? := by
  unfold BoundedQueue.taskDone?
  rw [h.unfinished]
  split
  · exact .none
  · exact .some ⟨h.entries, by simp⟩

end Maps

end BoundedQueue

/-- A sum over a list, after a change at one place. -/
theorem sum_map_set {α : Type u} {l : List α} {i : ℕ} {c : α} (h : l[i]? = some c) (c' : α)
    (f : α → ℕ) : ((l.set i c').map f).sum + f c = (l.map f).sum + f c' := by
  induction l generalizing i with
  | nil => simp at h
  | cons x l ih =>
    cases i with
    | zero =>
      obtain rfl : x = c := by simpa using h
      simp only [List.set_cons_zero, List.map_cons, List.sum_cons]
      omega
    | succ i =>
      have hrest := ih (by simpa using h)
      simp only [List.set_cons_succ, List.map_cons, List.sum_cons]
      omega
