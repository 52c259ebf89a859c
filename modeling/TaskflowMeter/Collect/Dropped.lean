import TaskflowMeter.Collect.Pipeline
import TaskflowMeter.Lib.Runs

/-!
# What the drop handler is told

A call of `submit` that finds the queue full discards the oldest entry, counts a drop and tells the
drop handler, in three operations, and then puts its own event.  The sender and other calls may
come in between.

## Main definitions

* `Action`, `after` — calls begin, and something goes on by one operation, in any order.
* `ToldRight` — the handler was told of the events that were discarded, and they were counted.
* `AlwaysRoom` — no call finds the queue full.

## Main results

* `Calm.act`, `Forced.act`, `Overcounted.act`, `Untold.act` — what one operation can do to the
  report.
* `told_right` — **the report is right as long as every event finds room, and once one has not, it
  is wrong whenever no call is in progress.**
* `wrong_event_told` — a queue of one: the handler is told of the event that is queued.
-/

namespace TaskflowMeter
namespace EventPipeline

open Runs

variable {config : PipelineConfig}

/-- What may happen next. -/
inductive Action where
  | submit (event : Event)
  | work (m : Work)

def act (p : EventPipeline config) : Action → EventPipeline config
  | .submit event => p.submit event
  | .work m => p.work m

theorem length_nil_le (config : PipelineConfig) : ([] : List Entry).length ≤ config.maxQueue := by
  simp

/-- The state after a run from the start. -/
def after (config : PipelineConfig) (actions : List Action) : EventPipeline config :=
  run act { queue := { length_le := length_nil_le config } } actions

theorem after_concat (actions : List Action) (a : Action) :
    after config (actions ++ [a]) = (after config actions).act a := run_concat ..

/-- No call is in progress. -/
def Quiet (p : EventPipeline config) : Prop := ∀ c ∈ p.calls, ∃ queued, c = .returned queued

/-- The handler was told of the events that were discarded, each once, and of no other; and they
were counted. -/
structure ToldRight (p : EventPipeline config) : Prop where
  told : p.told.Perm p.discarded
  dropped : p.stats.dropped = p.discarded.length
  gone : ∀ e ∈ p.told, e ∉ p.inFlight ∧ ∀ batch ∈ p.offered, e ∉ batch

/-- A call that is about to put its event for the first time has room for it. -/
def FindsRoom (p : EventPipeline config) (a : Action) : Prop :=
  ∀ i event, a = .work (.advance i) → p.calls[i]? = some (.put event) →
    p.queue.entries.length < config.maxQueue

/-- Every event of a run finds room. -/
def AlwaysRoom (config : PipelineConfig) (actions : List Action) : Prop :=
  EveryMove (fun done a => (after config done).FindsRoom a) actions

/-! ### Every event is accounted for -/

theorem accounted_after (config : PipelineConfig) (actions : List Action) :
    Accounted (after config actions) := by
  induction actions using List.reverseRecOn with
  | nil => exact ⟨List.Perm.nil, rfl⟩
  | append_singleton actions a ih =>
    rw [after_concat]
    cases a with
    | submit event => exact ih.submit event
    | work m => exact ih.work m

theorem submitted_act (p : EventPipeline config) (a : Action) :
    p.submitted.Sublist (p.act a).submitted := by
  cases a with
  | submit event => exact List.sublist_append_left _ _
  | work m => exact (p.submitted_work m).symm ▸ List.Sublist.refl _

/-- What is discarded is with no call any more. -/
theorem Accounted.not_held {p : EventPipeline config} (h : Accounted p) (hnodup : p.submitted.Nodup)
    {e : Event} (he : e ∈ p.discarded) {c : Submit} (hc : c ∈ p.calls) : e ∉ c.holding := by
  intro hmem
  have hcount := (accounted_iff.mp h).1 e
  have hone := List.nodup_iff_count_le_one.mp hnodup e
  have hdiscarded := List.count_pos_iff.mpr he
  have hheld := List.count_pos_iff.mpr hmem
  have hle := List.le_sum_of_mem
    (List.mem_map_of_mem (f := fun c : Submit => c.holding.count e) hc)
  omega

/-- What one call owes is among what is unfinished. -/
theorem Accounted.owed_le {p : EventPipeline config} (h : Accounted p) {i : ℕ} {c : Submit}
    (hc : p.calls[i]? = some c) : c.owed ≤ p.queue.unfinished := by
  have hle := List.le_sum_of_mem (List.mem_map_of_mem (f := Submit.owed) (List.mem_of_getElem? hc))
  have hunfinished := h.unfinished
  omega

/-! ### One operation -/

theorem dropped_send (p : EventPipeline config) (raises : ℕ → Option String) :
    (p.send raises).stats.dropped = p.stats.dropped := by
  rw [send]
  split
  · split <;> rfl
  · split
    · split <;> rfl
    · rfl
  · rw [deliver]
    split
    · rfl
    · refine List.foldlRecOn (motive := fun stats : PipelineStats => stats.dropped
        = p.stats.dropped)
        _ _ rfl ?_
      intro stats hstats i _
      split <;> exact hstats
  · split <;> rfl
  · rfl
  · split <;> rfl
  · rfl
  · rfl

/-- Only a call that goes on reports anything. -/
theorem act_cases (p : EventPipeline config) (a : Action) :
    (∃ i c, a = .work (.advance i) ∧ p.calls[i]? = some c)
      ∨ (p.act a).told = p.told ∧ (p.act a).discarded = p.discarded
        ∧ (p.act a).stats.dropped = p.stats.dropped
        ∧ ((p.act a).calls = p.calls ∨ ∃ event, (p.act a).calls = p.calls ++ [.put event]) := by
  cases a with
  | submit event => exact .inr ⟨rfl, rfl, rfl, .inr ⟨event, rfl⟩⟩
  | work m =>
    cases m with
    | advance i =>
      rcases hc : p.calls[i]? with _ | c
      · right
        simp only [act, work, hc]
        simp
      · exact .inl ⟨i, c, rfl, hc⟩
    | send raises =>
      obtain ⟨hcalls, -, hdiscarded, htold⟩ := p.send_frame raises
      exact .inr ⟨htold, hdiscarded, p.dropped_send raises, .inl hcalls⟩
    | stop =>
      right
      rw [act, work]
      split <;> exact ⟨rfl, rfl, rfl, .inl rfl⟩

theorem act_advance {p : EventPipeline config} {i : ℕ} {c : Submit} (hc : p.calls[i]? = some c) :
    p.act (.work (.advance i))
      = { (p.advance c).1 with calls := p.calls.set i (p.advance c).2 } := by
  rw [act, work, hc]

/-! ### As long as there is room -/

/-- A call that has made no room, and need not. -/
def Smooth : Submit → Prop
  | .put _ | .clearIdle | .returned _ => True
  | _ => False

/-- A call that has made no room yet. -/
def Unforced : Submit → Prop
  | .makeRoom _ => True
  | c => Smooth c

theorem Smooth.unforced {c : Submit} (h : Smooth c) : Unforced c := by
  cases c <;> trivial

/-- Nothing has been reported, and nothing is lost. -/
structure Silent (p : EventPipeline config) : Prop where
  told : p.told = []
  discarded : p.discarded = []
  dropped : p.stats.dropped = 0

/-- Every event has found room. -/
structure Calm (p : EventPipeline config) : Prop extends Silent p where
  smooth : ∀ c ∈ p.calls, Smooth c

/-- An event has found none, and none has been made yet. -/
structure Forced (p : EventPipeline config) : Prop extends Silent p where
  unforced : ∀ c ∈ p.calls, Unforced c
  makes : ∃ event, .makeRoom event ∈ p.calls

theorem Silent.toldRight {p : EventPipeline config} (h : Silent p) : ToldRight p := by
  refine ⟨?_, ?_, ?_⟩
  · rw [h.told, h.discarded]
  · rw [h.dropped, h.discarded, List.length_nil]
  · simp [h.told]

/-- What a call does that has made no room, and need not. -/
theorem advance_of_smooth (p : EventPipeline config) {c : Submit} (h : Smooth c) :
    (p.advance c).1.told = p.told ∧ (p.advance c).1.discarded = p.discarded
      ∧ (p.advance c).1.stats = p.stats
      ∧ (Smooth (p.advance c).2 ∨ ∃ event, c = .put event ∧ (p.advance c).2 = .makeRoom event
        ∧ config.maxQueue ≤ p.queue.entries.length) := by
  cases c with
  | put event =>
    rw [advance]
    cases hput : p.queue.put? (.event event) with
    | some queue => exact ⟨rfl, rfl, rfl, .inl trivial⟩
    | none =>
      exact ⟨rfl, rfl, rfl, .inr ⟨event, rfl, rfl, BoundedQueue.put?_eq_none_iff.mp hput⟩⟩
  | clearIdle | returned queued => exact ⟨rfl, rfl, rfl, .inl trivial⟩
  | makeRoom event | taskDone event | count event | putAgain event | raised => exact h.elim

/-- With room for the next event, nothing is reported. -/
theorem Calm.act {p : EventPipeline config} (h : Calm p) {a : Action} (hroom : p.FindsRoom a) :
    Calm (p.act a) := by
  obtain ⟨⟨htold, hdiscarded, hdropped⟩, hsmooth⟩ := h
  rcases p.act_cases a with ⟨i, c, rfl, hc⟩ | ⟨htold', hdiscarded', hdropped', hcalls⟩
  · obtain ⟨htold', hdiscarded', hstats, hnext⟩ :=
      p.advance_of_smooth (hsmooth c (List.mem_of_getElem? hc))
    rw [act_advance hc]
    refine ⟨⟨htold'.trans htold, hdiscarded'.trans hdiscarded, ?_⟩, fun d hd => ?_⟩
    · rw [hstats, hdropped]
    · rcases List.mem_or_eq_of_mem_set hd with hd | rfl
      · exact hsmooth d hd
      · refine hnext.resolve_right ?_
        rintro ⟨event, rfl, -, hfull⟩
        exact absurd (hroom i event rfl hc) (not_lt.mpr hfull)
  · refine ⟨⟨htold'.trans htold, hdiscarded'.trans hdiscarded, hdropped'.trans hdropped⟩, ?_⟩
    rcases hcalls with heq | ⟨event, heq⟩ <;> rw [heq]
    · exact hsmooth
    · simpa [or_imp, forall_and, Smooth] using hsmooth

/-- An event that finds no room forces its call to make some. -/
theorem Calm.act_full {p : EventPipeline config} (h : Calm p) {a : Action}
    (hfull : ¬ p.FindsRoom a) : Forced (p.act a) := by
  unfold FindsRoom at hfull
  push Not at hfull
  obtain ⟨i, event, rfl, hc, hfull⟩ := hfull
  have hput : p.queue.put? (.event event) = none := BoundedQueue.put?_eq_none_iff.mpr hfull
  have hnext : p.advance (.put event) = (p, .makeRoom event) := by rw [advance, hput]
  rw [act_advance hc, hnext]
  refine ⟨⟨h.told, h.discarded, h.dropped⟩, fun d hd => ?_, event, ?_⟩
  · rcases List.mem_or_eq_of_mem_set hd with hd | rfl
    · exact (h.smooth d hd).unforced
    · trivial
  · exact List.mem_set (List.getElem?_eq_some_iff.mp hc).1 _

theorem calm_after {actions : List Action} (h : AlwaysRoom config actions) :
    Calm (after config actions) := by
  refine inv_run (I := fun done => Calm (after config done)) ?_ ?_ h
  · exact ⟨⟨rfl, rfl, rfl⟩, fun c hc => absurd hc List.not_mem_nil⟩
  · intro done a todo _ hcalm hroom
    rw [after_concat]
    exact hcalm.act hroom

/-! ### After an event that found no room -/

/-- A drop that has been made, or was found unnecessary, and is yet to be counted. -/
def uncounted : Submit → ℕ
  | .taskDone _ | .count _ => 1
  | _ => 0

/-- More drops are counted, or are about to be, than events have been discarded. -/
def Overcounted (p : EventPipeline config) : Prop :=
  p.discarded.length < p.stats.dropped + (p.calls.map uncounted).sum

/-- An event has been discarded that the handler was not told of. -/
def Untold (p : EventPipeline config) : Prop := ∃ e ∈ p.discarded, e ∉ p.told

/-- What any operation of a call does to the report. -/
theorem report_advance {p : EventPipeline config} {c : Submit}
    (howed : c.owed ≤ p.queue.unfinished) :
    (p.advance c).1.discarded.length + (p.stats.dropped + uncounted c)
        ≤ p.discarded.length + ((p.advance c).1.stats.dropped + uncounted (p.advance c).2)
      ∧ p.discarded ⊆ (p.advance c).1.discarded
      ∧ ∀ e ∈ (p.advance c).1.told, e ∈ p.told ∨ e ∈ c.holding := by
  have htold : ∀ e ∈ p.told, e ∈ p.told ∨ e ∈ c.holding := fun e he => .inl he
  cases c with
  | put event =>
    rw [advance]
    cases p.queue.put? (.event event) <;> exact ⟨le_rfl, List.Subset.refl _, htold⟩
  | makeRoom event =>
    rw [advance]
    cases p.queue.get? with
    | none => exact ⟨Nat.add_le_add_left (Nat.le_succ _) _, List.Subset.refl _, htold⟩
    | some next =>
      refine ⟨?_, List.subset_append_left _ _, htold⟩
      have hone : next.1.event?.toList.length ≤ 1 := by cases next.1 <;> simp [Entry.event?]
      simp only [uncounted, List.length_append]
      omega
  | taskDone event =>
    rw [advance]
    cases hdone : p.queue.taskDone? with
    | none =>
      rw [BoundedQueue.taskDone?_eq_none_iff.mp hdone] at howed
      exact absurd howed (by simp [Submit.owed])
    | some queue => exact ⟨le_rfl, List.Subset.refl _, htold⟩
  | count event =>
    refine ⟨le_rfl, List.Subset.refl _, fun e he => ?_⟩
    exact List.mem_append.mp he
  | putAgain event =>
    rw [advance]
    cases p.queue.put? (.event event) with
    | some queue => exact ⟨le_rfl, List.Subset.refl _, htold⟩
    | none =>
      refine ⟨?_, List.subset_append_left _ _, htold⟩
      simp only [uncounted, List.length_append, List.length_singleton]
      omega
  | clearIdle | returned queued | raised => exact ⟨le_rfl, List.Subset.refl _, htold⟩

/-- **A wrong report is never put right.** -/
theorem Overcounted.act {p : EventPipeline config} (h : Overcounted p) (haccounted : Accounted p)
    (a : Action) : Overcounted (p.act a) := by
  unfold Overcounted at h ⊢
  rcases p.act_cases a with ⟨i, c, rfl, hc⟩ | ⟨-, hdiscarded, hdropped, hcalls⟩
  · have hle := (report_advance (haccounted.owed_le hc)).1
    have hset := sum_map_set hc (p.advance c).2 uncounted
    rw [act_advance hc]
    dsimp only
    omega
  · rw [hdiscarded, hdropped]
    rcases hcalls with heq | ⟨event, heq⟩ <;> rw [heq]
    · exact h
    · simpa [uncounted] using h

theorem Untold.act {p : EventPipeline config} (h : Untold p) (haccounted : Accounted p)
    (hnodup : p.submitted.Nodup) (a : Action) : Untold (p.act a) := by
  obtain ⟨e, hdiscarded, htold⟩ := h
  rcases p.act_cases a with ⟨i, c, rfl, hc⟩ | ⟨htold', hdiscarded', -, -⟩
  · obtain ⟨-, hsub, hadded⟩ := report_advance (haccounted.owed_le hc)
    rw [act_advance hc]
    -- the handler is told of what the call holds, which is not discarded
    have hheld := haccounted.not_held hnodup hdiscarded (List.mem_of_getElem? hc)
    exact ⟨e, hsub hdiscarded, fun hmem => (hadded e hmem).elim htold hheld⟩
  · exact ⟨e, hdiscarded' ▸ hdiscarded, htold' ▸ htold⟩

/-- The first call that makes room leaves a wrong report. -/
theorem Forced.act {p : EventPipeline config} (h : Forced p) (a : Action) :
    Forced (p.act a) ∨ Overcounted (p.act a) ∨ Untold (p.act a) := by
  obtain ⟨⟨htold, hdiscarded, hdropped⟩, hunforced, event, hmakes⟩ := h
  rcases p.act_cases a with ⟨i, c, rfl, hc⟩ | ⟨htold', hdiscarded', hdropped', hcalls⟩
  · rw [act_advance hc]
    by_cases hsmooth : Smooth c
    · left
      obtain ⟨htold', hdiscarded', hstats, hnext⟩ := p.advance_of_smooth hsmooth
      refine ⟨⟨htold'.trans htold, hdiscarded'.trans hdiscarded, ?_⟩, fun d hd => ?_, event, ?_⟩
      · rw [hstats, hdropped]
      · rcases List.mem_or_eq_of_mem_set hd with hd | rfl
        · exact hunforced d hd
        · rcases hnext with hnext | ⟨event', -, hnext, -⟩
          · exact hnext.unforced
          · rw [hnext]
            trivial
      · -- the call that is to make room is another one
        obtain ⟨j, hj⟩ := List.mem_iff_getElem?.mp hmakes
        have hne : i ≠ j := by
          rintro rfl
          obtain rfl := Option.some.inj (hj.symm.trans hc)
          exact hsmooth
        exact List.mem_of_getElem? ((List.getElem?_set_ne hne).trans hj)
    · right
      obtain ⟨event', rfl⟩ : ∃ event', c = .makeRoom event' := by
        have hc' := hunforced c (List.mem_of_getElem? hc)
        cases c <;> first | exact ⟨_, rfl⟩ | exact absurd hc' hsmooth
      have hset := sum_map_set hc (p.advance (.makeRoom event')).2 uncounted
      rw [advance] at hset ⊢
      rcases hget : p.queue.get? with _ | ⟨_ | _, queue⟩ <;> rw [hget] at hset
      · left
        simp only [Overcounted, hdiscarded, hdropped, uncounted, List.length_nil] at hset ⊢
        omega
      · exact .inr ⟨_, List.mem_append_right _ (List.mem_singleton.mpr rfl), by simp [htold]⟩
      · -- the sentinel is no event
        left
        simp only [Overcounted, hdiscarded, hdropped, uncounted, Entry.event?, Option.toList_none,
          List.append_nil, List.length_nil] at hset ⊢
        omega
  · left
    refine ⟨⟨htold'.trans htold, hdiscarded'.trans hdiscarded, hdropped'.trans hdropped⟩, ?_,
      event, ?_⟩
    all_goals rcases hcalls with heq | ⟨event', heq⟩ <;> rw [heq]
    · exact hunforced
    · simpa [or_imp, forall_and, Unforced, Smooth] using hunforced
    · exact hmakes
    · exact List.mem_append_left _ hmakes

/-- From the first event that finds no room, the report is wrong or about to be. -/
theorem wrong_after {actions : List Action} (hnodup : (after config actions).submitted.Nodup)
    (h : ¬ AlwaysRoom config actions) :
    Forced (after config actions) ∨ Overcounted (after config actions)
      ∨ Untold (after config actions) := by
  unfold AlwaysRoom at h
  induction actions using List.reverseRecOn with
  | nil => exact absurd (everyMove_nil _) h
  | append_singleton actions a ih =>
    rw [after_concat] at hnodup ⊢
    rw [everyMove_concat, not_and_or] at h
    have haccounted := accounted_after config actions
    have hnodup' := hnodup.sublist ((after config actions).submitted_act a)
    by_cases hroom : AlwaysRoom config actions
    · exact .inl ((calm_after hroom).act_full (h.resolve_left (not_not.mpr hroom)))
    · rcases ih hnodup' hroom with hforced | hover | huntold
      · exact hforced.act a
      · exact .inr (.inl (hover.act haccounted a))
      · exact .inr (.inr (huntold.act haccounted hnodup' a))

theorem Quiet.sum_uncounted {p : EventPipeline config} (h : Quiet p) :
    (p.calls.map uncounted).sum = 0 := by
  refine List.sum_eq_zero fun n hn => ?_
  obtain ⟨c, hc, rfl⟩ := List.mem_map.mp hn
  obtain ⟨queued, rfl⟩ := h c hc
  rfl

/-- **The handler is told right as long as every event finds room; once one has not, the report is
wrong whenever no call is in progress**, whatever has come in between. -/
theorem told_right (config : PipelineConfig) (actions : List Action) :
    (AlwaysRoom config actions → ToldRight (after config actions))
      ∧ ((after config actions).submitted.Nodup → Quiet (after config actions) →
          ToldRight (after config actions) → AlwaysRoom config actions) := by
  refine ⟨fun h => (calm_after h).toSilent.toldRight, fun hnodup hquiet hright => ?_⟩
  by_contra hroom
  rcases wrong_after hnodup hroom with hforced | hover | ⟨e, hdiscarded, htold⟩
  · obtain ⟨event, hmakes⟩ := hforced.makes
    obtain ⟨queued, heq⟩ := hquiet _ hmakes
    cases heq
  · rw [Overcounted, hquiet.sum_uncounted, hright.dropped] at hover
    omega
  · exact htold (hright.told.mem_iff.mpr hdiscarded)

/-- The events 1 and 2 are submitted to a queue of one. -/
def secondFindsFull : List Action :=
  .submit { runId := "r", seq := 1, ts := 1, kind := .flowState }
    :: List.replicate 2 (.work (.advance 0))
    ++ .submit { runId := "r", seq := 2, ts := 2, kind := .flowState }
    :: List.replicate 6 (.work (.advance 1))

/-- **The first is discarded, and the handler is told of the second.** -/
theorem wrong_event_told :
    (after { maxQueue := 1 } secondFindsFull).discarded.map Event.seq = [1]
      ∧ (after { maxQueue := 1 } secondFindsFull).told.map Event.seq = [2]
      ∧ Quiet (after { maxQueue := 1 } secondFindsFull)
      ∧ ¬ ToldRight (after { maxQueue := 1 } secondFindsFull) := by
  have hdiscarded : (after { maxQueue := 1 } secondFindsFull).discarded.map Event.seq = [1] := rfl
  have htold : (after { maxQueue := 1 } secondFindsFull).told.map Event.seq = [2] := rfl
  refine ⟨hdiscarded, htold, ?_, fun h => ?_⟩
  · have hcalls : (after { maxQueue := 1 } secondFindsFull).calls
        = [.returned true, .returned true] := rfl
    intro c hc
    rw [hcalls] at hc
    exact ⟨true, by simpa using hc⟩
  · have hperm := h.told.map Event.seq
    rw [hdiscarded, htold] at hperm
    exact absurd hperm (by decide)

end EventPipeline
end TaskflowMeter
