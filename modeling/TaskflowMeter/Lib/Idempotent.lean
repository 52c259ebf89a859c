import Mathlib

/-!
# Sinks that take a message at least once

A sink that has taken a message keeps it, and taking it again changes nothing.  Whoever delivers to
it may then repeat himself.

## Main definitions

* `firsts` — the messages of a list, each where it comes first.
* `Sink` — what a sink keeps of the messages it takes.

## Main results

* `Sink.holds_of_mem` — what was delivered is held.
* `Sink.foldl_firsts` — **delivering at least once is delivering once**, in the order of the first
  deliveries.
-/

namespace Idempotent

variable {σ μ : Type*}

section Firsts

variable [DecidableEq μ]

/-- The messages of a list, each where it comes first. -/
def firsts (l : List μ) : List μ :=
  l.foldl (fun seen m => if m ∈ seen then seen else seen ++ [m]) []

@[simp] theorem firsts_nil : firsts ([] : List μ) = [] := rfl

theorem firsts_concat (l : List μ) (m : μ) :
    firsts (l ++ [m]) = if m ∈ firsts l then firsts l else firsts l ++ [m] := by
  rw [firsts, List.foldl_append]
  rfl

@[simp] theorem mem_firsts {l : List μ} {m : μ} : m ∈ firsts l ↔ m ∈ l := by
  induction l using List.reverseRecOn generalizing m with
  | nil => simp
  | append_singleton l a ih =>
    rw [firsts_concat]
    split
    · next h =>
      rw [ih, List.mem_append, List.mem_singleton]
      refine ⟨Or.inl, ?_⟩
      rintro (hm | rfl)
      · exact hm
      · exact ih.mp h
    · simp [ih]

end Firsts

/-- What a sink keeps of the messages it takes. -/
structure Sink (absorb : σ → μ → σ) (Holds : σ → μ → Prop) : Prop where
  /-- It holds what it takes. -/
  absorbed : ∀ s m, Holds (absorb s m) m
  /-- It keeps what it holds. -/
  kept : ∀ s m m', Holds s m → Holds (absorb s m') m
  /-- It does nothing about what it holds. -/
  again : ∀ s m, Holds s m → absorb s m = s

namespace Sink

variable {absorb : σ → μ → σ} {Holds : σ → μ → Prop}

theorem kept_foldl (h : Sink absorb Holds) {s : σ} {m : μ} (hm : Holds s m) (l : List μ) :
    Holds (l.foldl absorb s) m := by
  induction l generalizing s with
  | nil => exact hm
  | cons m' l ih => exact ih (h.kept s m m' hm)

/-- What was delivered is held. -/
theorem holds_of_mem (h : Sink absorb Holds) {l : List μ} {m : μ} (hm : m ∈ l) (s : σ) :
    Holds (l.foldl absorb s) m := by
  obtain ⟨before, after, rfl⟩ := List.append_of_mem hm
  rw [List.foldl_append, List.foldl_cons]
  exact h.kept_foldl (h.absorbed _ m) after

/-- **Delivering at least once is delivering once.** -/
theorem foldl_firsts [DecidableEq μ] (h : Sink absorb Holds) (l : List μ) (s : σ) :
    (firsts l).foldl absorb s = l.foldl absorb s := by
  induction l using List.reverseRecOn with
  | nil => rfl
  | append_singleton l m ih =>
    rw [firsts_concat, List.foldl_append, ← ih]
    split
    · next hm => exact (h.again _ m (h.holds_of_mem hm s)).symm
    · rw [List.foldl_append]

end Sink

end Idempotent
