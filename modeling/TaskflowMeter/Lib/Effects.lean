import Mathlib

/-!
# Computations with a state that may raise

A computation leads to a result or an exception, and to a state in either case: what was done
before an exception was raised stays done.

## Main definitions

* `Eff` — computations; `raise`, `ofExcept`, `modify`, `state` and `zoom` are the smallest ones.
* `Eff.tryFinally`, `Eff.swallow`, `Eff.forEach` — the statements they are built with.
* `Spec` — what a computation leads to, from any state that a condition holds of.

## Main results

* `Spec.bind`, `Spec.tryFinally`, `Spec.swallow` — **one rule for each statement.**
-/

namespace Effects

variable {σ τ ε α β ι : Type}

/-- A computation with a state, which may raise. -/
structure Eff (σ ε α : Type) where
  run : σ → Except ε α × σ

namespace Eff

/-- Go on with the result, unless there is none. -/
def andThen (m : Eff σ ε α) (f : α → Eff σ ε β) : Eff σ ε β where
  run s :=
    match (m.run s).1 with
    | .ok a => (f a).run (m.run s).2
    | .error e => (.error e, (m.run s).2)

instance : Monad (Eff σ ε) where
  pure a := ⟨fun s => (.ok a, s)⟩
  bind := andThen

/-- A call that does nothing to the state. -/
def ofExcept (r : Except ε α) : Eff σ ε α := ⟨fun s => (r, s)⟩

def raise (e : ε) : Eff σ ε α := ofExcept (.error e)

def modify (f : σ → σ) : Eff σ ε Unit := ⟨fun s => (.ok (), f s)⟩

/-- Take something out of the state. -/
def state (f : σ → α × σ) : Eff σ ε α := ⟨fun s => (.ok (f s).1, (f s).2)⟩

/-- A computation on a part of the state. -/
def zoom (get : σ → τ) (set : τ → σ → σ) (m : Eff τ ε α) : Eff σ ε α :=
  ⟨fun s => ((m.run (get s)).1, set (m.run (get s)).2 s)⟩

/-- `try: … finally: …`. -/
def tryFinally (m : Eff σ ε α) (cleanup : Eff σ ε Unit) : Eff σ ε α where
  run s := ((cleanup.run (m.run s).2).1.bind fun _ => (m.run s).1, (cleanup.run (m.run s).2).2)

/-- `try: … except Exception: pass`. -/
def swallow (m : Eff σ ε Unit) : Eff σ ε Unit := ⟨fun s => (.ok (), (m.run s).2)⟩

/-- `for x in xs: …`. -/
def forEach (f : ι → Eff σ ε Unit) : List ι → Eff σ ε Unit
  | [] => pure ()
  | x :: xs => f x >>= fun _ => forEach f xs

@[simp] theorem run_pure (a : α) (s : σ) : (pure a : Eff σ ε α).run s = (.ok a, s) := rfl

@[simp] theorem run_ofExcept (r : Except ε α) (s : σ) :
    (ofExcept r : Eff σ ε α).run s = (r, s) := rfl

@[simp] theorem run_raise (e : ε) (s : σ) : (raise e : Eff σ ε α).run s = (.error e, s) := rfl

@[simp] theorem run_modify (f : σ → σ) (s : σ) : (modify f : Eff σ ε Unit).run s = (.ok (), f s) :=
  rfl

@[simp] theorem run_state (f : σ → α × σ) (s : σ) :
    (state f : Eff σ ε α).run s = (.ok (f s).1, (f s).2) := rfl

@[simp] theorem run_swallow (m : Eff σ ε Unit) (s : σ) :
    m.swallow.run s = (.ok (), (m.run s).2) := rfl

theorem run_bind_of_ok {m : Eff σ ε α} {f : α → Eff σ ε β} {s s' : σ} {a : α}
    (h : m.run s = (.ok a, s')) : (m >>= f).run s = (f a).run s' := by
  show (andThen m f).run s = _
  simp only [andThen, h]

theorem run_bind_of_error {m : Eff σ ε α} {f : α → Eff σ ε β} {s s' : σ} {e : ε}
    (h : m.run s = (.error e, s')) : (m >>= f).run s = (.error e, s') := by
  show (andThen m f).run s = _
  simp only [andThen, h]

end Eff

/-- From every state that `P` holds of, the computation leads to a result or an exception, and a
state, that `Q` holds of. -/
def Spec (P : σ → Prop) (m : Eff σ ε α) (Q : Except ε α → σ → Prop) : Prop :=
  ∀ s, P s → Q (m.run s).1 (m.run s).2

namespace Spec

variable {P P' : σ → Prop} {m : Eff σ ε α} {Q R : Except ε α → σ → Prop}

theorem mono (h : Spec P m R) (hpre : ∀ s, P' s → P s) (hpost : ∀ r s, R r s → Q r s) :
    Spec P' m Q := fun s hs => hpost _ _ (h s (hpre s hs))

/-- One after the other; what the first raises ends both. -/
theorem bind {f : α → Eff σ ε β} {Q : Except ε β → σ → Prop} (h : Spec P m R)
    (hok : ∀ a, Spec (R (.ok a)) (f a) Q) (herror : ∀ e s, R (.error e) s → Q (.error e) s) :
    Spec P (m >>= f) Q := by
  intro s hs
  have hfirst := h s hs
  obtain ⟨r, s', hm⟩ : ∃ r s', m.run s = (r, s') := ⟨_, _, rfl⟩
  rw [hm] at hfirst
  cases r with
  | ok a =>
    rw [Eff.run_bind_of_ok hm]
    exact hok a s' hfirst
  | error e =>
    rw [Eff.run_bind_of_error hm]
    exact herror e s' hfirst

/-- The clean-up is made whatever the outcome is, which it leaves alone unless it raises itself. -/
theorem tryFinally {cleanup : Eff σ ε Unit} (h : Spec P m R)
    (hcleanup : ∀ r, Spec (R r) cleanup fun r' s => Q (r'.bind fun _ => r) s) :
    Spec P (m.tryFinally cleanup) Q := fun s hs => hcleanup _ _ (h s hs)

theorem swallow {m : Eff σ ε Unit} {Q R : Except ε Unit → σ → Prop} (h : Spec P m R)
    (hpost : ∀ r s, R r s → Q (.ok ()) s) : Spec P m.swallow Q := fun s hs => hpost _ _ (h s hs)

end Spec

end Effects
