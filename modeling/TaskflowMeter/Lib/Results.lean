import Mathlib

/-!
# Computations that raise

What a computation in `Except` that returned has gone through.

* `bind_of_ok`, `bind_of_error`, `map_of_ok`, `map_of_error` — one step, once its outcome is known.
* `bind_eq_ok_iff`, `map_eq_ok_iff` — one step after the other.
* `mapM_eq_ok_iff` — the same step for every item of a list.
* `exists_mapM_eq_ok_iff` — when none of them raises.
-/

namespace Results

variable {ε α β : Type}

theorem bind_of_ok {x : Except ε α} {f : α → Except ε β} {a : α} {b : Except ε β} (hx : x = .ok a)
    (h : f a = b) : x >>= f = b := by
  rw [hx]
  exact h

theorem bind_of_error {x : Except ε α} {f : α → Except ε β} {e : ε} (hx : x = .error e) :
    x >>= f = .error e := by
  rw [hx]
  rfl

theorem map_of_error {x : Except ε α} {f : α → β} {e : ε} (hx : x = .error e) :
    x.map f = .error e := by
  rw [hx]
  rfl

theorem map_of_ok {x : Except ε α} {f : α → β} {a : α} (hx : x = .ok a) :
    x.map f = .ok (f a) := by
  rw [hx]
  rfl

theorem bind_eq_ok_iff {x : Except ε α} {f : α → Except ε β} {b : β} :
    x >>= f = .ok b ↔ ∃ a, x = .ok a ∧ f a = .ok b := by
  cases x with
  | error e => exact ⟨fun h => by simp [bind, Except.bind] at h, fun ⟨a, h, _⟩ => by simp at h⟩
  | ok a => simp [bind, Except.bind]

theorem map_eq_ok_iff {x : Except ε α} {f : α → β} {b : β} :
    x.map f = .ok b ↔ ∃ a, x = .ok a ∧ f a = b := by
  cases x with
  | error e => simp [Except.map]
  | ok a => simp [Except.map]

/-- A list is mapped item by item. -/
theorem mapM_eq_ok_iff {f : α → Except ε β} {l : List α} {l' : List β} :
    l.mapM f = .ok l' ↔ List.Forall₂ (fun a b => f a = .ok b) l l' := by
  induction l generalizing l' with
  | nil =>
    rw [List.mapM_nil, List.forall₂_nil_left_iff]
    exact ⟨fun h => (Except.ok.inj h).symm, fun h => congrArg Except.ok h.symm⟩
  | cons a l ih =>
    rw [List.mapM_cons, bind_eq_ok_iff, List.forall₂_cons_left_iff]
    constructor
    · rintro ⟨b, hb, h⟩
      obtain ⟨rest, hrest, h⟩ := bind_eq_ok_iff.mp h
      exact ⟨b, rest, hb, ih.mp hrest, (Except.ok.inj h).symm⟩
    · rintro ⟨b, rest, hb, hrest, rfl⟩
      exact ⟨b, hb, bind_eq_ok_iff.mpr ⟨rest, ih.mpr hrest, rfl⟩⟩

/-- Mapping raises nothing exactly when no item does. -/
theorem exists_mapM_eq_ok_iff {f : α → Except ε β} {l : List α} :
    (∃ l', l.mapM f = .ok l') ↔ ∀ a ∈ l, ∃ b, f a = .ok b := by
  induction l with
  | nil => exact ⟨fun _ a ha => absurd ha List.not_mem_nil, fun _ => ⟨[], rfl⟩⟩
  | cons a l ih =>
    rw [List.forall_mem_cons, ← ih]
    constructor
    · rintro ⟨l', h⟩
      obtain ⟨b, rest, hb, hrest, -⟩ := List.forall₂_cons_left_iff.mp (mapM_eq_ok_iff.mp h)
      exact ⟨⟨b, hb⟩, rest, mapM_eq_ok_iff.mpr hrest⟩
    · rintro ⟨⟨b, hb⟩, rest, hrest⟩
      exact ⟨b :: rest, mapM_eq_ok_iff.mpr (List.Forall₂.cons hb (mapM_eq_ok_iff.mp hrest))⟩

end Results
