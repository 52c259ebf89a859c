import Mathlib

/-!
# Runs of a step function

A run is a list of moves, made one after the other.  An invariant may speak of the
moves made so far as well as of the state they led to.

## Main definitions

* `run` — the state after a list of moves.
* `Always` — a property holds at every moment of a run.
* `EveryMove` — every move of a run meets a condition on what came before it.

## Main results

* `inv_run` — an invariant that the permitted moves preserve.
* `iff_everyMove` — **what every move keeps exactly when it meets a condition** holds after a
  run exactly when every move meets it.
* `always_iff_everyMove` — **a property holds throughout a run exactly when every move
  meets a condition**, if the invariant implies the property and a move that does not
  meet the condition breaks it.
-/

namespace Runs

universe u v

variable {σ : Type u} {α : Type v}

/-- The state after a list of moves. -/
def run (step : σ → α → σ) (s : σ) (moves : List α) : σ := moves.foldl step s

@[simp] theorem run_nil (step : σ → α → σ) (s : σ) : run step s [] = s := rfl

theorem run_concat (step : σ → α → σ) (s : σ) (moves : List α) (a : α) :
    run step s (moves ++ [a]) = step (run step s moves) a := by
  rw [run, List.foldl_append]
  rfl

/-- A property of the moves made and the state reached holds at every moment of a run. -/
def Always (P : List α → Prop) (moves : List α) : Prop :=
  ∀ done todo, moves = done ++ todo → P done

/-- Every move of a run meets a condition on the moves before it. -/
def EveryMove (ok : List α → α → Prop) (moves : List α) : Prop :=
  ∀ done a todo, moves = done ++ a :: todo → ok done a

@[simp] theorem everyMove_nil (ok : List α → α → Prop) : EveryMove ok [] := by
  intro done a todo h
  simp at h

theorem everyMove_cons {ok : List α → α → Prop} {a : α} {moves : List α} :
    EveryMove ok (a :: moves) ↔ ok [] a ∧ EveryMove (fun done => ok (a :: done)) moves := by
  constructor
  · intro h
    refine ⟨h [] a moves rfl, fun done b todo heq => h (a :: done) b todo ?_⟩
    rw [heq, List.cons_append]
  · rintro ⟨ha, h⟩ done b todo heq
    cases done with
    | nil =>
      obtain ⟨rfl, -⟩ := List.cons.inj heq
      exact ha
    | cons c done =>
      obtain ⟨rfl, hrest⟩ := List.cons.inj heq
      exact h done b todo hrest

instance decidableEveryMove : (moves : List α) → (ok : List α → α → Prop) →
    [∀ done a, Decidable (ok done a)] → Decidable (EveryMove ok moves)
  | [], ok, _ => isTrue (everyMove_nil ok)
  | a :: moves, ok, _ =>
    have := decidableEveryMove moves fun done => ok (a :: done)
    decidable_of_iff _ everyMove_cons.symm

theorem everyMove_concat {ok : List α → α → Prop} {moves : List α} {a : α} :
    EveryMove ok (moves ++ [a]) ↔ EveryMove ok moves ∧ ok moves a := by
  constructor
  · intro h
    refine ⟨fun done b todo heq => h done b (todo ++ [a]) (by rw [heq]; simp), h moves a [] rfl⟩
  · rintro ⟨h, ha⟩ done b todo heq
    cases todo using List.reverseRecOn with
    | nil =>
      obtain ⟨rfl, hb⟩ := List.append_inj' heq rfl
      obtain rfl := List.singleton_inj.mp hb
      exact ha
    | append_singleton todo c =>
      rw [← List.cons_append, ← List.append_assoc] at heq
      exact h done b todo (List.append_inj' heq rfl).1

theorem Always.of_append {P : List α → Prop} {moves moves' : List α}
    (h : Always P (moves ++ moves')) : Always P moves := by
  intro done todo heq
  exact h done (todo ++ moves') (by rw [heq, List.append_assoc])

theorem Always.last {P : List α → Prop} {moves : List α} (h : Always P moves) : P moves :=
  h moves [] (List.append_nil moves).symm

/-- Every beginning of a run of permitted moves is one. -/
theorem EveryMove.of_append {ok : List α → α → Prop} {moves moves' : List α}
    (h : EveryMove ok (moves ++ moves')) : EveryMove ok moves := by
  intro done a todo heq
  exact h done a (todo ++ moves') (by rw [heq]; simp)

/-- **An invariant of the permitted moves** of a run holds at its end. -/
theorem inv_run {I : List α → Prop} {ok : List α → α → Prop} {moves : List α} (hinit : I [])
    (hstep : ∀ done a todo, moves = done ++ a :: todo → I done → ok done a → I (done ++ [a]))
    (h : EveryMove ok moves) : I moves := by
  induction moves using List.reverseRecOn with
  | nil => exact hinit
  | append_singleton moves a ih =>
    obtain ⟨hpre, ha⟩ := everyMove_concat.mp h
    have hinv : I moves := by
      apply ih _ hpre
      intro done b todo heq
      exact hstep done b (todo ++ [a]) (by rw [heq]; simp)
    exact hstep moves a [] rfl hinv ha

/-- **What every move keeps exactly when it meets a condition**, and never restores, holds
after a run exactly when every move meets it. -/
theorem iff_everyMove {P : List α → Prop} {ok : List α → α → Prop} (hinit : P [])
    (hstep : ∀ done a, P (done ++ [a]) ↔ P done ∧ ok done a) (moves : List α) :
    P moves ↔ EveryMove ok moves := by
  induction moves using List.reverseRecOn with
  | nil => simp [hinit]
  | append_singleton moves a ih => rw [hstep, ih, everyMove_concat]

/-- **A property holds throughout a run exactly when every move meets a condition.** -/
theorem always_iff_everyMove {I P : List α → Prop} {ok : List α → α → Prop} {moves : List α}
    (hinit : I [])
    (hstep : ∀ done a todo, moves = done ++ a :: todo → I done → ok done a → I (done ++ [a]))
    (hgood : ∀ done todo, moves = done ++ todo → I done → P done)
    (hbad : ∀ done a todo, moves = done ++ a :: todo → I done → ¬ok done a → ¬P (done ++ [a])) :
    Always P moves ↔ EveryMove ok moves := by
  constructor
  · intro h
    induction moves using List.reverseRecOn with
    | nil => exact everyMove_nil ok
    | append_singleton moves a ih =>
      have hcat : ∀ done b todo, moves = done ++ b :: todo →
          moves ++ [a] = done ++ b :: (todo ++ [a]) := by
        intro done b todo heq
        rw [heq]
        simp
      have hstep' : ∀ done b todo, moves = done ++ b :: todo → I done → ok done b →
          I (done ++ [b]) := fun done b todo heq => hstep done b _ (hcat done b todo heq)
      have hpre : EveryMove ok moves := by
        refine ih hstep' ?_ ?_ h.of_append
        · intro done todo heq
          exact hgood done (todo ++ [a]) (by rw [heq, List.append_assoc])
        · intro done b todo heq
          exact hbad done b _ (hcat done b todo heq)
      refine everyMove_concat.mpr ⟨hpre, ?_⟩
      by_contra hnot
      exact hbad moves a [] rfl (inv_run hinit hstep' hpre) hnot h.last
  · intro h done todo heq
    subst heq
    refine hgood done todo rfl (inv_run hinit ?_ h.of_append)
    intro pre b todo' heq'
    exact hstep pre b (todo' ++ todo) (by rw [heq']; simp)

end Runs
