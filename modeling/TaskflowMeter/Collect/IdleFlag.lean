import TaskflowMeter.Collect.Conservation
import TaskflowMeter.Contiguous

/-!
# The idle flag

A call of `submit` puts its event and then clears the flag; the sender finds the queue empty
and then sets it.  `flush` waits for the flag.  Each pair is two operations, and another thread
may come between them.

## Main definitions

* `Barrier.Settled` — a call of `submit` has returned, and its event was offered or discarded.
* `Barrier.FlushRight`, `Barrier.Quiet` — what `flush` promises, and where it must return at once.
* `Barrier.InTurn` — an operation on the flag does not come too late.

## Main results

* `inTurn_right` — **in a run whose operations on the flag do not come too late `flush` keeps its
  promises**, and the first one that does breaks one of them.
* `flush_misled` — the two ways in which it goes wrong.
-/

namespace TaskflowMeter
namespace Barrier

open Runs

variable {config : PipelineConfig}

/-- An entry has been offered to all publishers, or discarded. -/
def Over (p : Barrier config) (number : ℕ) : Prop :=
  number ∈ (p.delivered.flatten ++ p.discarded).map Queued.number

/-- A call of `submit` has returned, and its event has been offered or discarded: at the latest
by itself, when it could not be queued. -/
def Settled (p : Barrier config) (i : ℕ) : Prop :=
  (∃ number, p.calls[i]? = some ⟨.returned true, some number⟩ ∧ Over p number)
    ∨ p.calls[i]? = some ⟨.returned false, none⟩

/-- A flush that returned true was right about the calls that had returned before it. -/
def FlushRight (p : Barrier config) : Prop :=
  ∀ before, .returned before true ∈ p.flushes → ∀ i ∈ before, Settled p i

/-- No call of `submit` is in progress, the queue is empty, and the sender waits. -/
structure Quiet (p : Barrier config) : Prop where
  calls : ∀ call ∈ p.calls, ∃ queued, call.phase = .returned queued
  queue : p.queue.entries = []
  sender : p.sender = .get

/-- An operation on the flag does not come too late: the sender does not set it when an event is
queued whose call has returned, and the last call in progress does not clear it when the sender
waits at an empty queue. -/
def InTurn (config : PipelineConfig) (done : List Move) (a : Move) : Prop :=
  let p := after config done
  (∀ raises stopping, a = .send raises → p.sender = .setIdle stopping →
      ∀ number, ⟨.returned true, some number⟩ ∈ p.calls
        → number ∉ p.queue.entries.map Queued.number)
    ∧ ∀ i number, a = .advance i → p.calls[i]? = some ⟨.clearIdle, number⟩ →
      ¬((∀ j call, j ≠ i → p.calls[j]? = some call → ∃ queued, call.phase = .returned queued)
        ∧ p.queue.entries = [] ∧ p.sender = .get)

/-! ### What does not change -/

/-- What is over stays so. -/
theorem Over.mono {p : Barrier config} {number : ℕ} (h : Over p number) (a : Move) :
    Over (p.step a) number := by
  have hmoves := p.conveyor_step a
  have hbefore : Over p number
      ↔ number ∈ (p.conveyor.delivered.flatten ++ p.conveyor.discarded).map Queued.number := .rfl
  have hafter : Over (p.step a) number ↔ number
      ∈ ((p.step a).conveyor.delivered.flatten
        ++ (p.step a).conveyor.discarded).map Queued.number :=
    .rfl
  rw [hbefore] at h
  rw [hafter]
  generalize (p.step a).conveyor = next, p.conveyor = now at *
  cases hmoves with
  | stays | enters hx | taken hx => exact h
  | delivered =>
    refine List.map_subset _ ?_ h
    intro x hx
    simp only [List.flatten_append, List.mem_append] at hx ⊢
    tauto
  | discarded hx =>
    refine List.map_subset _ ?_ h
    intro x hx
    simp only [List.mem_append] at hx ⊢
    tauto

/-- What becomes of the calls of `submit`. -/
theorem calls_step (p : Barrier config) (a : Move) :
    (p.step a).calls = p.calls
      ∨ (∃ event, a = .submit event ∧ (p.step a).calls = p.calls ++ [⟨.put event, none⟩])
      ∨ ∃ i call, a = .advance i ∧ p.calls[i]? = some call
        ∧ (p.step a).calls = p.calls.set i (p.advance call.number call.phase).2 := by
  cases a with
  | submit event => exact .inr (.inl ⟨event, rfl, rfl⟩)
  | advance i =>
    rcases hcall : p.calls[i]? with _ | call
    · left
      rw [step, hcall]
    · refine .inr (.inr ⟨i, call, rfl, hcall, ?_⟩)
      rw [step, hcall]
  | send raises => exact .inl (p.send_frame raises).1
  | flush => exact .inl rfl
  | wake i =>
    left
    rw [step]
    split
    · split <;> rfl
    · rfl
  | giveUp i | stop drain =>
    left
    rw [step]
    split <;> rfl
  | stopNext =>
    left
    rw [step]
    cases p.stopping with
    | put =>
      rcases hput : p.put? .stop with _ | p'
      · rfl
      · obtain ⟨queue, -, rfl⟩ := put?_eq_some hput
        rfl
    | notCalled | flush | join | returned => rfl

/-- A call that has returned stays as it is. -/
theorem returned_step {p : Barrier config} {i : ℕ} {queued : Bool} {number : Option ℕ}
    (h : p.calls[i]? = some ⟨.returned queued, number⟩) (a : Move) :
    (p.step a).calls[i]? = some ⟨.returned queued, number⟩ := by
  rcases p.calls_step a with heq | ⟨event, -, heq⟩ | ⟨j, call, -, hcall, heq⟩ <;> rw [heq]
  · exact h
  · rw [List.getElem?_append_left (List.getElem?_eq_some_iff.mp h).1]
    exact h
  · rw [List.getElem?_set]
    split
    · next hij =>
      subst hij
      rw [h] at hcall
      obtain rfl := Option.some.inj hcall
      rw [if_pos (List.getElem?_eq_some_iff.mp h).1]
      rfl
    · exact h

theorem Settled.mono {p : Barrier config} {i : ℕ} (h : Settled p i) (a : Move) :
    Settled (p.step a) i := by
  rcases h with ⟨number, hcall, hover⟩ | hcall
  · exact .inl ⟨number, returned_step hcall a, hover.mono a⟩
  · exact .inr (returned_step hcall a)

/-! ### The calls of `submit` -/

/-- A call has a number exactly when its event has been queued. -/
def CallOk (entered : ℕ) : Submitting → Prop
  | ⟨.clearIdle, number⟩ | ⟨.returned true, number⟩ => ∃ k < entered, number = some k
  | ⟨_, number⟩ => number = none

theorem CallOk.mono {n m : ℕ} (hle : n ≤ m) {call : Submitting} (h : CallOk n call) :
    CallOk m call := by
  obtain ⟨phase, number⟩ := call
  unfold CallOk at h ⊢
  split at h
  · obtain ⟨k, hk, rfl⟩ := h
    exact ⟨k, by omega, rfl⟩
  · obtain ⟨k, hk, rfl⟩ := h
    exact ⟨k, by omega, rfl⟩
  · exact h

/-- A call clears the flag in one operation, and leaves it alone in all others. -/
theorem idle_advance (p : Barrier config) (number : Option ℕ) {phase : Submit}
    (h : phase ≠ .clearIdle) : (p.advance number phase).1.idle = p.idle := by
  cases phase with
  | put event | putAgain event =>
    rw [advance]
    rcases hput : p.put? (.event event) with _ | p'
    · rfl
    · obtain ⟨queue, -, rfl⟩ := put?_eq_some hput
      rfl
  | makeRoom event =>
    rw [advance]
    rcases p.queue.get? with _ | next <;> rfl
  | taskDone event =>
    rw [advance]
    rcases p.queue.taskDone? with _ | queue <;> rfl
  | clearIdle => exact absurd rfl h
  | count event | returned queued | raised => rfl

/-- **How a call returns**: by clearing the flag, or because the queue is full. -/
theorem advance_returned {p : Barrier config} {number : Option ℕ} {phase : Submit} {queued : Bool}
    (h : (p.advance number phase).2.phase = .returned queued) :
    (phase = .returned queued ∧ p.advance number phase = (p, ⟨.returned queued, number⟩))
      ∨ phase = .clearIdle
      ∨ queued = false ∧ (p.advance number phase).1.queue.entries ≠ [] := by
  cases phase with
  | put event =>
    rw [advance] at h
    split at h <;> cases h
  | makeRoom event =>
    rw [advance] at h
    split at h <;> cases h
  | taskDone event =>
    rw [advance] at h
    split at h <;> cases h
  | count event | raised => cases h
  | putAgain event =>
    right
    right
    rw [advance] at h ⊢
    rcases hput : p.put? (.event event) with _ | p' <;> rw [hput] at h
    · refine ⟨(Submit.returned.inj h).symm, ?_⟩
      -- it was refused, so the queue is full, and a full queue is not empty
      intro hempty
      have hroom := config.one_le_maxQueue
      have hfull := BoundedQueue.put?_eq_none_iff.mp (Option.map_eq_none_iff.mp hput)
      dsimp only at hempty
      rw [hempty, List.length_nil] at hfull
      omega
    · cases h
  | clearIdle => exact .inr (.inl rfl)
  | returned queued' =>
    obtain rfl := Submit.returned.inj h
    exact .inl ⟨rfl, rfl⟩

/-- The number that a call has after its operation. -/
theorem callOk_advance {p : Barrier config} {call : Submitting}
    (h : CallOk p.entered.length call) :
    CallOk (p.advance call.number call.phase).1.entered.length
      (p.advance call.number call.phase).2 := by
  obtain ⟨phase, number⟩ := call
  cases phase with
  | put event | putAgain event =>
    rw [advance]
    rcases hput : p.put? (.event event) with _ | p'
    · exact h
    · obtain ⟨queue, -, rfl⟩ := put?_eq_some hput
      refine ⟨p.entered.length, ?_, rfl⟩
      simp
  | makeRoom event =>
    rw [advance]
    rcases p.queue.get? with _ | next <;> exact h
  | taskDone event =>
    rw [advance]
    rcases p.queue.taskDone? with _ | queue <;> exact h
  | count event | clearIdle | raised => exact h
  | returned queued => cases queued <;> exact h

theorem length_entered_le (p : Barrier config) (a : Move) :
    p.entered.length ≤ (p.step a).entered.length := by
  rcases (p.conveyor_step a).entered_eq with heq | ⟨x, -, heq⟩ <;> simp only [conveyor] at heq <;>
    rw [heq]
  rw [List.length_append]
  omega

theorem callsOk_step {p : Barrier config} (h : ∀ call ∈ p.calls, CallOk p.entered.length call)
    (a : Move) : ∀ call ∈ (p.step a).calls, CallOk (p.step a).entered.length call := by
  have hle := p.length_entered_le a
  intro call hcall
  rcases p.calls_step a with heq | ⟨event, rfl, heq⟩ | ⟨i, old, rfl, hold, heq⟩
  · rw [heq] at hcall
    exact (h call hcall).mono hle
  · rw [heq] at hcall
    rcases List.mem_append.mp hcall with hmem | hmem
    · exact (h call hmem).mono hle
    · obtain rfl := List.mem_singleton.mp hmem
      exact rfl
  · rw [heq] at hcall
    rcases List.mem_or_eq_of_mem_set hcall with hmem | rfl
    · exact (h call hmem).mono hle
    · have hok := callOk_advance (h old (List.mem_of_getElem? hold))
      have hentered : (p.step (.advance i)).entered
          = (p.advance old.number old.phase).1.entered := by
        rw [step, hold]
      rwa [hentered]

/-! ### The flag -/

theorem idle_send (p : Barrier config) (raises : Option String) :
    (p.send raises).idle = p.idle
      ∨ ∃ stopping, p.sender = .setIdle stopping ∧ (p.send raises).idle = true := by
  rw [send]
  split
  · left
    split <;> rfl
  · left
    split
    · split <;> rfl
    · rfl
  · left
    split <;> rfl
  · left
    split <;> rfl
  · exact .inl rfl
  · left
    split <;> rfl
  · next stopping hs => exact .inr ⟨stopping, hs, rfl⟩
  · exact .inl rfl

/-- **Who touches the flag**: the sender, and a call of `submit` that has queued its event. -/
theorem idle_step (p : Barrier config) (a : Move) : (p.step a).idle = p.idle
    ∨ (∃ raises stopping, a = .send raises ∧ p.sender = .setIdle stopping
      ∧ (p.step a).idle = true)
    ∨ ∃ i number, a = .advance i ∧ p.calls[i]? = some ⟨.clearIdle, number⟩
      ∧ (p.step a).idle = false := by
  cases a with
  | submit event | flush => exact .inl rfl
  | advance i =>
    rw [step]
    rcases hcall : p.calls[i]? with _ | ⟨phase, number⟩
    · exact .inl rfl
    · by_cases hclear : phase = .clearIdle
      · subst hclear
        exact .inr (.inr ⟨i, number, rfl, hcall, rfl⟩)
      · exact .inl (p.idle_advance number hclear)
  | send raises =>
    rcases p.idle_send raises with heq | ⟨stopping, hs, heq⟩
    · exact .inl heq
    · exact .inr (.inl ⟨raises, stopping, rfl, hs, heq⟩)
  | wake i =>
    left
    rw [step]
    split
    · split <;> rfl
    · rfl
  | giveUp i | stop drain =>
    left
    rw [step]
    split <;> rfl
  | stopNext =>
    left
    rw [step]
    cases p.stopping with
    | put =>
      rcases hput : p.put? .stop with _ | p'
      · rfl
      · obtain ⟨queue, -, rfl⟩ := put?_eq_some hput
        rfl
    | notCalled | flush | join | returned => rfl

/-- What becomes of the calls of `flush`. -/
theorem flushes_step (p : Barrier config) (a : Move) : (p.step a).flushes = p.flushes
    ∨ (p.step a).flushes = p.flushes ++ [.waiting p.returned]
    ∨ (∃ i before, .waiting before ∈ p.flushes ∧ p.idle = true
      ∧ (p.step a).flushes = p.flushes.set i (.returned before true))
    ∨ ∃ i before, (p.step a).flushes = p.flushes.set i (.returned before false) := by
  cases a with
  | submit event => exact .inl rfl
  | advance i =>
    left
    rw [step]
    rcases p.calls[i]? with _ | call
    · rfl
    · exact (p.advance_frame call.number call.phase).2.2.2.1
  | send raises => exact .inl (p.send_frame raises).2.1
  | flush => exact .inr (.inl rfl)
  | wake i =>
    rw [step]
    rcases hflush : p.flushes[i]? with _ | before | _
    · exact .inl rfl
    · dsimp only
      split
      · next hidle =>
        exact .inr (.inr (.inl ⟨i, before, List.mem_of_getElem? hflush, hidle, rfl⟩))
      · exact .inl rfl
    · exact .inl rfl
  | giveUp i =>
    rw [step]
    rcases hflush : p.flushes[i]? with _ | before | _
    · exact .inl rfl
    · exact .inr (.inr (.inr ⟨i, before, rfl⟩))
    · exact .inl rfl
  | stop drain =>
    rw [step]
    split <;> exact .inl rfl
  | stopNext =>
    left
    rw [step]
    cases p.stopping with
    | put =>
      rcases hput : p.put? .stop with _ | p'
      · rfl
      · obtain ⟨queue, -, rfl⟩ := put?_eq_some hput
        rfl
    | notCalled | flush | join | returned => rfl

/-! ### What holds in runs that are in turn -/

/-- What holds throughout a run whose operations on the flag do not come too late. -/
structure FlagInv (p : Barrier config) : Prop where
  calls : ∀ call ∈ p.calls, CallOk p.entered.length call
  /-- When the flag is set, the events of the calls that have returned are out of hand. -/
  settled : p.idle = true → ∀ number, ⟨.returned true, some number⟩ ∈ p.calls → Over p number
  waiting : ∀ before, .waiting before ∈ p.flushes → ∀ i ∈ before,
    ∃ queued number, p.calls[i]? = some ⟨.returned queued, number⟩
  flushes : FlushRight p
  quiet : Quiet p → p.idle = true

/-- An entry that is neither queued nor with the sender is out of hand. -/
theorem Inv.over_of_not_mem {p : Barrier config} (h : Inv p) {number : ℕ}
    (hlt : number < p.entered.length) (hbatch : p.sender.batch = [])
    (hqueue : number ∉ p.queue.entries.map Queued.number) : Over p number := by
  have hmem : number ∈ p.entered.map Queued.number := by
    rw [h.numbers]
    exact List.mem_range.mpr hlt
  obtain ⟨queued, hqueued, rfl⟩ := List.mem_map.mp hmem
  unfold Over
  rcases h.kept.mem_iff.mp hqueued with ((hmem | hmem) | hmem) | hmem
  · exact List.mem_map_of_mem (List.mem_append_left _ hmem)
  · simp only [conveyor, hbatch] at hmem
    exact absurd hmem List.not_mem_nil
  · exact absurd (List.mem_map_of_mem hmem) hqueue
  · exact List.mem_map_of_mem (List.mem_append_right _ hmem)

/-- A call that has just returned cleared the flag; the others are as they were. -/
theorem mem_calls_step {p : Barrier config} {a : Move} {number : Option ℕ}
    (hmem : ⟨.returned true, number⟩ ∈ (p.step a).calls) :
    ⟨.returned true, number⟩ ∈ p.calls ∨ (p.step a).idle = false := by
  rcases p.calls_step a with heq | ⟨event, -, heq⟩ | ⟨i, call, rfl, hcall, heq⟩ <;> rw [heq] at hmem
  · exact .inl hmem
  · rcases List.mem_append.mp hmem with hmem | hmem
    · exact .inl hmem
    · cases List.mem_singleton.mp hmem
  · rcases List.mem_or_eq_of_mem_set hmem with hmem | hnew
    · exact .inl hmem
    · have hphase : (p.advance call.number call.phase).2.phase = .returned true := by rw [← hnew]
      rcases advance_returned hphase with ⟨hold, hadvance⟩ | hclear | ⟨hfalse, -⟩
      · rw [hadvance] at hnew
        left
        rw [hnew, ← hold]
        exact List.mem_of_getElem? hcall
      · right
        rw [step, hcall]
        dsimp only
        rw [hclear]
        rfl
      · cases hfalse

theorem over_step {done : List Move} (h : FlagInv (after config done)) {a : Move}
    (hturn : InTurn config done a) :
    ((after config done).step a).idle = true → ∀ number,
      ⟨.returned true, some number⟩ ∈ ((after config done).step a).calls →
      Over ((after config done).step a) number := by
  have hinv := inv_after config done
  unfold InTurn at hturn
  generalize after config done = p at *
  intro hidle number hmem
  have hold : ⟨.returned true, some number⟩ ∈ p.calls := by
    rcases mem_calls_step hmem with hold | hfalse
    · exact hold
    · rw [hfalse] at hidle
      cases hidle
  refine Over.mono ?_ a
  rcases p.idle_step a with heq | ⟨raises, stopping, rfl, hs, -⟩ | ⟨i, number, -, -, hfalse⟩
  · rw [heq] at hidle
    exact h.settled hidle number hold
  · obtain ⟨k, hk, hnumber⟩ := h.calls _ hold
    obtain rfl := Option.some.inj hnumber
    exact hinv.over_of_not_mem hk (by rw [hs]; rfl) (hturn.1 raises stopping rfl hs _ hold)
  · rw [hfalse] at hidle
    cases hidle

theorem flushRight_step {p : Barrier config} (h : FlagInv p) (a : Move) :
    FlushRight (p.step a) := by
  have hold : ∀ before, .returned before true ∈ p.flushes → ∀ i ∈ before, Settled (p.step a) i :=
    fun before hmem i hi => (h.flushes before hmem i hi).mono a
  intro before hmem i hi
  rcases p.flushes_step a with heq | heq | ⟨j, before', hwaiting, hidle, heq⟩ |
    ⟨j, before', heq⟩ <;>
    rw [heq] at hmem
  · exact hold before hmem i hi
  · rcases List.mem_append.mp hmem with hmem | hmem
    · exact hold before hmem i hi
    · cases List.mem_singleton.mp hmem
  · rcases List.mem_or_eq_of_mem_set hmem with hmem | hnew
    · exact hold before hmem i hi
    · -- the flag is set, so what has returned is out of hand
      obtain ⟨rfl, -⟩ := Flushing.returned.inj hnew
      refine Settled.mono ?_ a
      obtain ⟨queued, number, hcall⟩ := h.waiting before hwaiting i hi
      have hok := h.calls _ (List.mem_of_getElem? hcall)
      rcases queued with _ | _
      · obtain rfl : number = none := hok
        exact .inr hcall
      · obtain ⟨k, -, rfl⟩ := hok
        exact .inl ⟨k, hcall, h.settled hidle k (List.mem_of_getElem? hcall)⟩
  · rcases List.mem_or_eq_of_mem_set hmem with hmem | hnew
    · exact hold before hmem i hi
    · cases hnew

theorem waiting_step {p : Barrier config} (h : FlagInv p) (a : Move) :
    ∀ before, .waiting before ∈ (p.step a).flushes → ∀ i ∈ before,
      ∃ queued number, (p.step a).calls[i]? = some ⟨.returned queued, number⟩ := by
  intro before hmem i hi
  suffices hcall : ∃ queued number, p.calls[i]? = some ⟨.returned queued, number⟩ by
    obtain ⟨queued, number, hcall⟩ := hcall
    exact ⟨queued, number, returned_step hcall a⟩
  rcases p.flushes_step a with heq | heq | ⟨j, before', -, -, heq⟩ | ⟨j, before', heq⟩ <;>
    rw [heq] at hmem
  · exact h.waiting before hmem i hi
  · rcases List.mem_append.mp hmem with hmem | hmem
    · exact h.waiting before hmem i hi
    · obtain rfl := Flushing.waiting.inj (List.mem_singleton.mp hmem)
      obtain ⟨-, hreturned⟩ := List.mem_filter.mp hi
      rcases hcall : p.calls[i]? with _ | ⟨phase, number⟩ <;> rw [hcall] at hreturned
      · cases hreturned
      · cases phase with
        | returned queued => exact ⟨queued, number, rfl⟩
        | _ => cases hreturned
  · rcases List.mem_or_eq_of_mem_set hmem with hmem | hnew
    · exact h.waiting before hmem i hi
    · cases hnew
  · rcases List.mem_or_eq_of_mem_set hmem with hmem | hnew
    · exact h.waiting before hmem i hi
    · cases hnew

/-- After the sender's operation it waits at an empty queue only if it has set the flag, or did so
before. -/
theorem quiet_send {p : Barrier config} (h : Quiet p → p.idle = true) {raises : Option String}
    (hquiet : Quiet (p.send raises)) : (p.send raises).idle = true := by
  obtain ⟨hcalls, hqueue, hsender⟩ := hquiet
  rw [(p.send_frame raises).1] at hcalls
  rw [send] at hqueue hsender
  rcases hs : p.sender with _ | taken | ⟨taken, had⟩ |
    ⟨left, stopping⟩ | stopping | stopping | _ <;>
    rw [hs] at hqueue hsender
  · rcases hget : p.queue.get? with _ | next <;> rw [hget] at hqueue hsender
    · rw [send, hs, hget]
      exact h ⟨hcalls, hqueue, hs⟩
    · cases hsender
  · dsimp only at hsender
    split at hsender
    · split at hsender <;> cases hsender
    · cases hsender
  · dsimp only at hsender
    split at hsender <;> cases hsender
  · rcases left with _ | left
    · cases hsender
    · dsimp only at hsender
      split at hsender <;> cases hsender
  · -- it found the queue not empty, and no one has taken anything since
    dsimp only at hqueue hsender
    split at hsender
    · cases hsender
    · next hsome =>
      rw [if_neg hsome] at hqueue
      exact absurd (List.isEmpty_iff.mpr hqueue) hsome
  · rw [send, hs]
  · dsimp only at hsender
    rw [hs] at hsender
    cases hsender

theorem quiet_advance {p : Barrier config} (h : Quiet p → p.idle = true) {i : ℕ} {call : Submitting}
    (hcall : p.calls[i]? = some call)
    (hturn : ∀ number, p.calls[i]? = some ⟨.clearIdle, number⟩ →
      ¬((∀ j call, j ≠ i → p.calls[j]? = some call → ∃ queued, call.phase = .returned queued)
        ∧ p.queue.entries = [] ∧ p.sender = .get))
    (hquiet : Quiet (p.step (.advance i))) : (p.step (.advance i)).idle = true := by
  obtain ⟨hcalls, hqueue, hsender⟩ := hquiet
  obtain ⟨phase, number⟩ := call
  have hlt := (List.getElem?_eq_some_iff.mp hcall).1
  rw [step, hcall] at hcalls hqueue hsender ⊢
  dsimp only at hcalls hqueue hsender ⊢
  obtain ⟨queued, hphase⟩ := hcalls _ (List.mem_set hlt _)
  rcases advance_returned hphase with ⟨rfl, hadvance⟩ | rfl | ⟨-, hsome⟩
  · rw [hadvance] at hcalls hqueue hsender ⊢
    refine h ⟨?_, hqueue, hsender⟩
    obtain ⟨hlt, heq⟩ := List.getElem?_eq_some_iff.mp hcall
    rwa [← heq, List.set_getElem_self] at hcalls
  · exfalso
    refine hturn number hcall ⟨?_, hqueue, hsender⟩
    intro j other hne hother
    refine hcalls other (List.mem_of_getElem? (i := j) ?_)
    rw [List.getElem?_set_ne hne.symm]
    exact hother
  · exact absurd hqueue hsome

theorem quiet_step {done : List Move} (h : FlagInv (after config done)) {a : Move}
    (hturn : InTurn config done a) (hquiet : Quiet ((after config done).step a)) :
    ((after config done).step a).idle = true := by
  unfold InTurn at hturn
  generalize after config done = p at *
  cases a with
  | submit event =>
    obtain ⟨queued, hphase⟩ := hquiet.calls ⟨.put event, none⟩
      (List.mem_append_right _ (List.mem_singleton_self _))
    cases hphase
  | advance i =>
    rcases hcall : p.calls[i]? with _ | call
    · rw [step, hcall] at hquiet ⊢
      exact h.quiet hquiet
    · exact quiet_advance h.quiet hcall (fun number => hturn.2 i number rfl) hquiet
  | send raises => exact quiet_send h.quiet hquiet
  | flush => exact h.quiet ⟨hquiet.calls, hquiet.queue, hquiet.sender⟩
  | wake i =>
    rw [step] at hquiet ⊢
    split at hquiet
    · split at hquiet
      · next hidle => rw [if_pos hidle]; exact hidle
      · next hnot => rw [if_neg hnot]; exact h.quiet hquiet
    · exact h.quiet hquiet
  | giveUp i =>
    rw [step] at hquiet ⊢
    split at hquiet
    · exact h.quiet ⟨hquiet.calls, hquiet.queue, hquiet.sender⟩
    · exact h.quiet hquiet
  | stop drain =>
    rw [step] at hquiet ⊢
    split at hquiet
    · next hnot =>
      rw [if_pos hnot]
      exact h.quiet ⟨hquiet.calls, hquiet.queue, hquiet.sender⟩
    · next hnot => rw [if_neg hnot]; exact h.quiet hquiet
  | stopNext =>
    rw [step] at hquiet ⊢
    rcases hs : p.stopping with _ | _ | _ | _ | _ <;> rw [hs] at hquiet
    · exact h.quiet hquiet
    · exact h.quiet ⟨hquiet.calls, hquiet.queue, hquiet.sender⟩
    · rcases hput : p.put? .stop with _ | p' <;> rw [hput] at hquiet
      · exact h.quiet hquiet
      · -- the sentinel is on the queue
        obtain ⟨queue, hentries, rfl⟩ := put?_eq_some hput
        have hempty := hquiet.queue
        dsimp only at hempty
        rw [hentries] at hempty
        exact absurd hempty (by simp)
    · exact h.quiet ⟨hquiet.calls, hquiet.queue, hquiet.sender⟩
    · exact h.quiet hquiet

/-- **In a run whose operations on the flag do not come too late**, this holds throughout. -/
theorem flagInv_after {moves : List Move} (h : EveryMove (InTurn config) moves) :
    FlagInv (after config moves) := by
  refine inv_run (I := fun done => FlagInv (after config done)) ?_ ?_ h
  · refine ⟨?_, ?_, ?_, ?_, fun _ => rfl⟩
    · exact fun _ hmem => absurd hmem List.not_mem_nil
    · exact fun _ _ hmem => absurd hmem List.not_mem_nil
    · exact fun _ hmem => absurd hmem List.not_mem_nil
    · exact fun _ hmem => absurd hmem List.not_mem_nil
  · intro done a todo _ hinv hturn
    rw [after_concat]
    exact ⟨callsOk_step hinv.calls a, over_step hinv hturn, waiting_step hinv a,
      flushRight_step hinv a, quiet_step hinv hturn⟩

/-! ### What goes wrong otherwise -/

/-- An entry that is queued is not out of hand. -/
theorem Inv.not_over {p : Barrier config} (h : Inv p) {number : ℕ}
    (hmem : number ∈ p.queue.entries.map Queued.number) : ¬Over p number := by
  have hnodup : (p.conveyor.line ++ p.conveyor.discarded).map Queued.number |>.Nodup := by
    rw [(h.kept.perm.map Queued.number).nodup_iff]
    exact h.numbers ▸ List.nodup_range
  simp only [Conveyor.line, conveyor, List.map_append] at hnodup
  obtain ⟨hline, -, hdiscarded⟩ := List.nodup_append.mp hnodup
  obtain ⟨-, -, hwaiting⟩ := List.nodup_append.mp hline
  unfold Over
  rw [List.map_append, List.mem_append]
  rintro (hover | hover)
  · exact hwaiting number (List.mem_append_left _ hover) number hmem rfl
  · exact hdiscarded number (List.mem_append_right _ hmem) number hover rfl

/-- A flush that finds the flag set returns true at once. -/
theorem flush_wake {p : Barrier config} (hidle : p.idle = true) :
    ((p.step .flush).step (.wake p.flushes.length)).flushes
        = p.flushes ++ [.returned p.returned true]
      ∧ ((p.step .flush).step (.wake p.flushes.length)).calls = p.calls
      ∧ ((p.step .flush).step (.wake p.flushes.length)).queue = p.queue := by
  have hlast : (p.flushes ++ [Flushing.waiting p.returned])[p.flushes.length]?
      = some (.waiting p.returned) := List.getElem?_concat_length
  have hset : (p.flushes ++ [Flushing.waiting p.returned]).set p.flushes.length
      (.returned p.returned true) = p.flushes ++ [.returned p.returned true] := by
    rw [List.set_append_right _ _ (le_refl _), Nat.sub_self]
    rfl
  simp only [step, hlast, hidle, if_true, hset, and_self]

theorem mem_returned {p : Barrier config} {i : ℕ} {queued : Bool} {number : Option ℕ}
    (h : p.calls[i]? = some ⟨.returned queued, number⟩) : i ∈ p.returned := by
  refine List.mem_filter.mpr ⟨List.mem_range.mpr (List.getElem?_eq_some_iff.mp h).1, ?_⟩
  rw [h]

/-- **The flag is set over the head of an event**: a flush that is called then returns true, though
the event is still queued. -/
theorem not_flushRight {p : Barrier config} {i number : ℕ}
    (hcall : p.calls[i]? = some ⟨.returned true, some number⟩)
    (hqueue : number ∈ p.queue.entries.map Queued.number) (hidle : p.idle = true)
    (hinv : Inv ((p.step .flush).step (.wake p.flushes.length))) :
    ¬FlushRight ((p.step .flush).step (.wake p.flushes.length)) := by
  obtain ⟨hflushes, hcalls, hsame⟩ := flush_wake hidle
  intro hright
  have hmem : Flushing.returned p.returned true
      ∈ ((p.step .flush).step (.wake p.flushes.length)).flushes := by
    rw [hflushes]
    exact List.mem_append_right _ (List.mem_singleton_self _)
  rw [← hcalls] at hcall
  rcases hright _ hmem i (mem_returned (hcalls ▸ hcall)) with ⟨number', hcall', hover⟩ | hcall'
  · rw [hcall] at hcall'
    obtain ⟨-, heq⟩ := Submitting.mk.inj (Option.some.inj hcall')
    obtain rfl := Option.some.inj heq
    refine hinv.not_over ?_ hover
    rwa [hsame]
  · rw [hcall] at hcall'
    cases hcall'

/-- **In a run whose operations on the flag do not come too late `flush` keeps its promises**: when
it returns true, the events of all calls that had returned before it have been offered or
discarded; and where no call is in progress and the sender waits at an empty queue, it returns
true at once.  An operation that comes too late, after whatever run, breaks one of the two. -/
theorem inTurn_right (config : PipelineConfig) (moves : List Move) :
    let k := (after config moves).flushes.length
    (EveryMove (InTurn config) moves →
        FlushRight (after config moves)
          ∧ (Quiet (after config moves) → (after config moves).idle = true
            ∧ ∃ before, (after config (moves ++ [.flush, .wake k])).flushes[k]?
              = some (.returned before true)))
      ∧ ∀ a, ¬InTurn config moves a →
        ¬FlushRight (after config (moves ++ [a, .flush, .wake k]))
          ∨ Quiet (after config (moves ++ [a])) ∧ (after config (moves ++ [a])).idle = false := by
  intro k
  refine ⟨?_, ?_⟩
  · intro hturn
    have hflag := flagInv_after hturn
    refine ⟨hflag.flushes, ?_⟩
    intro hquiet
    have hidle := hflag.quiet hquiet
    refine ⟨hidle, (after config moves).returned, ?_⟩
    have hrun : after config (moves ++ [.flush, .wake k])
        = ((after config moves).step .flush).step (.wake k) := by
      rw [← after_concat, ← after_concat, List.append_assoc]
      rfl
    rw [hrun, (flush_wake hidle).1]
    exact List.getElem?_concat_length
  · intro a hlate
    have hrun : after config (moves ++ [a, .flush, .wake k])
        = ((after config (moves ++ [a])).step .flush).step (.wake k) := by
      rw [← after_concat, ← after_concat, List.append_assoc, List.append_assoc]
      rfl
    have hinv := inv_after config (moves ++ [a, .flush, .wake k])
    rw [hrun] at hinv ⊢
    rw [after_concat] at hinv ⊢
    unfold InTurn at hlate
    have hk : k = (after config moves).flushes.length := rfl
    generalize after config moves = p at *
    rcases not_and_or.mp hlate with hlate | hlate
    · -- the sender sets the flag
      left
      push Not at hlate
      obtain ⟨raises, stopping, rfl, hs, number, hcall, hqueue⟩ := hlate
      obtain ⟨i, hi⟩ := List.mem_iff_getElem?.mp hcall
      obtain ⟨hcalls, hflushes, -⟩ := p.send_frame raises
      have hafter : (p.step (.send raises)).flushes.length = k := by
        rw [step, hflushes, hk]
      rw [← hafter] at hinv ⊢
      have hcall' : (p.step (.send raises)).calls[i]? = some ⟨.returned true, some number⟩ := by
        rwa [step, hcalls]
      refine not_flushRight hcall' ?_ ?_ hinv
      · rw [step, send, hs]
        exact hqueue
      · rw [step, send, hs]
    · -- a call clears it
      right
      push Not at hlate
      obtain ⟨i, number, rfl, hcall, hothers, hqueue, hs⟩ := hlate
      rw [step, hcall]
      refine ⟨⟨?_, hqueue, hs⟩, rfl⟩
      intro call hmem
      obtain ⟨j, hj⟩ := List.mem_iff_getElem?.mp hmem
      dsimp only at hj
      rw [List.getElem?_set] at hj
      split at hj
      · split at hj
        · obtain rfl := Option.some.inj hj
          exact ⟨true, rfl⟩
        · cases hj
      · next hne => exact hothers j call (Ne.symm hne) hj

/-- The sender has found the queue empty, and a second event is queued before it sets the flag. -/
def earlyFlag : List Move :=
  [.submit (heartbeat 1), .advance 0, .advance 0] ++ List.replicate 7 (.send none)
    ++ [.submit (heartbeat 2), .advance 1, .advance 1, .send none, .flush, .wake 0]

/-- The event is delivered and the flag set before the call that queued it clears the flag. -/
def lateClear : List Move :=
  [.submit (heartbeat 1), .advance 0] ++ List.replicate 8 (.send none) ++ [.advance 0]

/-- **`flush` returns true while the event of a call that had returned is still queued; and where
all is quiet the flag is not set**, and will not be until another event comes. -/
theorem flush_misled :
    ((after {} earlyFlag).flushes = [.returned [0, 1] true]
        ∧ (after {} earlyFlag).calls[1]? = some ⟨.returned true, some 1⟩
        ∧ (after {} earlyFlag).queue.entries.map Queued.number = [1]
        ∧ ¬FlushRight (after {} earlyFlag))
      ∧ Quiet (after {} lateClear) ∧ (after {} lateClear).idle = false := by
  have hflushes : (after {} earlyFlag).flushes = [.returned [0, 1] true] := rfl
  have hcall : (after {} earlyFlag).calls[1]? = some ⟨.returned true, some 1⟩ := rfl
  have hqueue : (after {} earlyFlag).queue.entries.map Queued.number = [1] := rfl
  refine ⟨⟨hflushes, hcall, hqueue, ?_⟩, ⟨?_, rfl, rfl⟩, rfl⟩
  · intro hright
    have hmem : Flushing.returned [0, 1] true ∈ (after {} earlyFlag).flushes := by
      rw [hflushes]
      exact List.mem_singleton_self _
    rcases hright [0, 1] hmem 1 (by decide) with ⟨number, hcall', hover⟩ | hcall'
    · rw [hcall] at hcall'
      obtain ⟨-, heq⟩ := Submitting.mk.inj (Option.some.inj hcall')
      obtain rfl := Option.some.inj heq
      refine (inv_after {} earlyFlag).not_over ?_ hover
      rw [hqueue]
      exact List.mem_singleton_self _
    · rw [hcall] at hcall'
      cases hcall'
  · intro call hmem
    have hcalls : (after {} lateClear).calls = [⟨.returned true, some 0⟩] := rfl
    rw [hcalls] at hmem
    obtain rfl := List.mem_singleton.mp hmem
    exact ⟨true, rfl⟩

end Barrier
end TaskflowMeter
