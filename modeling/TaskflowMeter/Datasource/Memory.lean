import TaskflowMeter.Datasource.Listing
import TaskflowMeter.Lib.Deque

/-!
# In-process datasource

State and a bounded event history, in memory.

## Main definitions

* `Run` — stored state for one flow run.
* `MemoryDataSource` — every run it was told about, until told to forget it.
* `MemoryDataSource.apply`, `applyMany`, `forget` — writing.
* `MemoryDataSource.getFlow`, `listFlows`, `eventsSince` — reading.
* `MemoryDataSource.held` — the events retained for a run, in order of arrival.

## Main results

* `held_applyMany` — **a run's history is the last `max_events_per_run` of its events,
  in order of arrival**, as long as no run is dropped.
* `getFlow_applyMany` — and its flow is the fold of all of them.
* `getFlow_applyMany_new` — of a run that is new to a full store, from the first event
  that is not turned away.
* `listFlows_some` — what a page holds.
-/

namespace TaskflowMeter

open Paging

/-- Events retained per run before the oldest are dropped. -/
def DEFAULT_MAX_EVENTS_PER_RUN : ℕ := 1000

/-- Stored state for one flow run. -/
structure Run where
  flow : FlowSnapshot
  events : Deque Event
  oldestSeq : Option ℤ := none
  highestSeq : ℤ := 0
  oldestSeq_eq : oldestSeq = events.items.head?.map (·.seq)
  seq_le_highestSeq : ∀ e ∈ events.items, e.seq ≤ highestSeq
  deriving DecidableEq

namespace Run

/-- A run without events. -/
def new (flow : FlowSnapshot) (maxEvents : ℕ) : Run where
  flow := flow
  events := Deque.new maxEvents
  oldestSeq_eq := rfl
  seq_le_highestSeq := by simp

/-- Append an event to the history. -/
def record (run : Run) (event : Event) : Run where
  flow := run.flow
  events := run.events.append event
  oldestSeq := (run.events.append event).items.head?.map (·.seq)
  highestSeq := max run.highestSeq event.seq
  oldestSeq_eq := rfl
  seq_le_highestSeq := by
    intro e he
    have hmem : e ∈ run.events.items ++ [event] := List.mem_of_mem_drop he
    rcases List.mem_append.mp hmem with h | h
    · exact le_max_of_le_left (run.seq_le_highestSeq e h)
    · rw [List.mem_singleton.mp h]
      exact le_max_right _ _

/-- Fold an event into the flow and append it to the history. -/
def update (run : Run) (event : Event) : Run :=
  record { run with flow := fold run.flow event } event

@[simp] theorem flow_update (run : Run) (event : Event) :
    (run.update event).flow = fold run.flow event := rfl

@[simp] theorem events_update (run : Run) (event : Event) :
    (run.update event).events = run.events.append event := rfl

end Run

/-- A run is kept under its own id, with a history of the size that was asked for. -/
structure Run.KeptAs (run : Run) (runId : String) (maxEvents : ℕ) : Prop where
  runId_flow : run.flow.runId = runId
  maxlen_events : run.events.maxlen = maxEvents

/-- Keeps every run it is told about until told to forget it. -/
structure MemoryDataSource where
  maxEventsPerRun : ℕ := DEFAULT_MAX_EVENTS_PER_RUN
  maxRuns : Option ℕ := none
  runs : Dict String Run := ∅
  one_le_maxEventsPerRun : 1 ≤ maxEventsPerRun := by decide
  one_le_maxRuns : ∀ m ∈ maxRuns, 1 ≤ m := by simp
  kept : ∀ runId run, runs.get? runId = some run → run.KeptAs runId maxEventsPerRun := by simp

namespace MemoryDataSource

/-- Build a store. -/
def init (maxEventsPerRun : ℕ := DEFAULT_MAX_EVENTS_PER_RUN) (maxRuns : Option ℕ := none) :
    Except String MemoryDataSource :=
  if h : maxEventsPerRun < 1 then .error "max_events_per_run must be at least 1"
  else if h' : ∃ m ∈ maxRuns, m < 1 then .error "max_runs must be at least 1 when set"
  else .ok
    { maxEventsPerRun := maxEventsPerRun
      maxRuns := maxRuns
      one_le_maxEventsPerRun := not_lt.mp h
      one_le_maxRuns := fun m hm => not_lt.mp fun hlt => h' ⟨m, hm, hlt⟩ }

/-- A store that could be built is empty. -/
theorem init_eq_ok {maxEventsPerRun : ℕ} {maxRuns : Option ℕ} {s : MemoryDataSource}
    (h : init maxEventsPerRun maxRuns = .ok s) :
    1 ≤ maxEventsPerRun ∧ s.maxEventsPerRun = maxEventsPerRun ∧ s.maxRuns = maxRuns
      ∧ s.runs = ∅ := by
  rw [init] at h
  split at h
  · cases h
  · next hsize =>
    split at h
    · cases h
    · obtain rfl := Except.ok.inj h
      exact ⟨not_lt.mp hsize, rfl, rfl, rfl⟩

/-- The run observed longest ago; of several, the one that was added first. -/
def victim (runs : Dict String Run) : Option Run :=
  runs.values.argmin fun run => run.flow.observedAt

/-- Make room by dropping the run observed longest ago. -/
def evictIfNeeded (maxRuns : Option ℕ) (runs : Dict String Run) : Dict String Run :=
  if maxRuns.all fun m => runs.values.length ≤ m then runs
  else
    match victim runs with
    | none => runs
    | some run => runs.erase run.flow.runId

theorem get?_evictIfNeeded {maxRuns : Option ℕ} {runs : Dict String Run} {runId : String}
    {run : Run}
    (h : (evictIfNeeded maxRuns runs).get? runId = some run) : runs.get? runId = some run := by
  rw [evictIfNeeded] at h
  split at h
  · exact h
  · cases hv : victim runs with
    | none => rwa [hv] at h
    | some v =>
      rw [hv, Dict.get?_erase] at h
      split at h
      · simp at h
      · exact h

/-- The runs after an event.  A new run is added before there is room for it, and may
be the one that goes: then the event is folded into nothing. -/
def runsAfter (maxEventsPerRun : ℕ) (maxRuns : Option ℕ) (runs : Dict String Run) (event : Event) :
    Dict String Run :=
  match runs.get? event.runId with
  | some run => runs.set event.runId (run.update event)
  | none =>
      let run := Run.new (flowFromEvent event) maxEventsPerRun
      let runs := evictIfNeeded maxRuns (runs.set event.runId run)
      -- a run that has gone is updated all the same, but nothing holds it any more
      if event.runId ∈ runs.keys then runs.set event.runId (run.update event) else runs

theorem kept_set {runs : Dict String Run} {maxEvents : ℕ} {runId : String} {run : Run}
    (h : ∀ r x, runs.get? r = some x → x.KeptAs r maxEvents) (hrun : run.KeptAs runId maxEvents) :
    ∀ r x, (runs.set runId run).get? r = some x → x.KeptAs r maxEvents := by
  intro r x hx
  rw [Dict.get?_set] at hx
  split at hx
  · next heq => obtain rfl := Option.some.inj hx; rwa [heq]
  · exact h r x hx

theorem kept_runsAfter {runs : Dict String Run} {maxEvents : ℕ}
    (h : ∀ r x, runs.get? r = some x → x.KeptAs r maxEvents) (maxRuns : Option ℕ) (event : Event) :
    ∀ r x, (runsAfter maxEvents maxRuns runs event).get? r = some x → x.KeptAs r maxEvents := by
  rw [runsAfter]
  cases hrun : runs.get? event.runId with
  | some run =>
    have hkept := h event.runId run hrun
    exact kept_set h ⟨(runId_fold run.flow event).trans hkept.runId_flow, hkept.maxlen_events⟩
  | none =>
    have hnew : (Run.new (flowFromEvent event) maxEvents).KeptAs event.runId maxEvents := ⟨rfl, rfl⟩
    have hevict : ∀ r x, (evictIfNeeded maxRuns (runs.set event.runId
        (Run.new (flowFromEvent event) maxEvents))).get? r = some x → x.KeptAs r maxEvents :=
      fun r x hx => kept_set h hnew r x (get?_evictIfNeeded hx)
    dsimp only
    split
    · exact kept_set hevict ⟨runId_fold _ event, rfl⟩
    · exact hevict

/-- Fold one event into the stored state. -/
def apply (s : MemoryDataSource) (event : Event) : MemoryDataSource :=
  { s with
    runs := runsAfter s.maxEventsPerRun s.maxRuns s.runs event
    kept := kept_runsAfter s.kept s.maxRuns event }

def applyMany (s : MemoryDataSource) (events : List Event) : MemoryDataSource :=
  events.foldl apply s

/-- Drop a run entirely.  Returns whether it was there. -/
def forget (s : MemoryDataSource) (runId : String) : Bool × MemoryDataSource :=
  ((s.runs.get? runId).isSome,
    { s with
      runs := s.runs.erase runId
      kept := by
        intro r x hx
        rw [Dict.get?_erase] at hx
        split at hx
        · simp at hx
        · exact s.kept r x hx })

def getFlow (s : MemoryDataSource) (runId : String) : Option FlowSnapshot :=
  (s.runs.get? runId).map (·.flow)

/-- The events retained for a run, in order of arrival. -/
def held (s : MemoryDataSource) (runId : String) : List Event :=
  ((s.runs.get? runId).map (·.events.items)).getD []

/-- The flows that a filter admits. -/
def matching (s : MemoryDataSource) (filter : FlowFilter) : List FlowSnapshot :=
  (s.runs.values.map (·.flow)).filter fun flow => filter.admits flow.state flow.bookId

def listFlows (s : MemoryDataSource) (filter : FlowFilter) (limit : ℤ) (marker : Option String) :
    Except ListError FlowPage :=
  if limit < 1 then .error limitTooLow
  else listPage (sortFlows (s.matching filter)) limit.toNat marker

/-- The contiguous run of events after `since`. -/
def eventsSince (s : MemoryDataSource) (runId : String) (since limit : ℤ) :
    Except String EventPage :=
  if limit < 1 then .error "limit must be at least 1"
  else
    match s.runs.get? runId with
    | none => .ok { nextSeq := since }
    | some run => .ok (eventPage (sortedBySeq run.events.items) since limit)

/-! ### Writing -/

@[simp] theorem maxEventsPerRun_apply (s : MemoryDataSource) (e : Event) :
    (s.apply e).maxEventsPerRun = s.maxEventsPerRun := rfl

/-- Applying `events` drops no run: there is no run limit, or no other run. -/
def Spares (s : MemoryDataSource) (events : List Event) : Prop :=
  s.maxRuns = none
    ∨ ∃ runId, (∀ r ∈ s.runs.keys, r = runId) ∧ ∀ e ∈ events, e.runId = runId

/-- A store that knows at most one run is within every limit. -/
theorem evictIfNeeded_of_one {maxRuns : Option ℕ} {runs : Dict String Run} {runId : String}
    (hmax : ∀ m ∈ maxRuns, 1 ≤ m) (h : ∀ r ∈ runs.keys, r = runId) :
    evictIfNeeded maxRuns runs = runs := by
  have hlen : runs.values.length ≤ 1 := by
    rw [Dict.length_values, Finset.card_le_one]
    intro a ha b hb
    rw [h a (List.mem_toFinset.mp ha), h b (List.mem_toFinset.mp hb)]
  rw [evictIfNeeded, if_pos]
  cases maxRuns with
  | none => rfl
  | some m => simpa using hlen.trans (hmax m rfl)

theorem Spares.evictIfNeeded_eq {s : MemoryDataSource} {e : Event} {events : List Event}
    (h : s.Spares (e :: events)) (run : Run) :
    evictIfNeeded s.maxRuns (s.runs.set e.runId run) = s.runs.set e.runId run := by
  rcases h with hnone | ⟨runId, hruns, hevents⟩
  · rw [hnone]
    rfl
  · have hkeys : ∀ r ∈ (s.runs.set e.runId run).keys, r = runId := by
      intro r hr
      rcases Dict.mem_keys_set.mp hr with rfl | hr
      · exact hevents e List.mem_cons_self
      · exact hruns r hr
    exact evictIfNeeded_of_one s.one_le_maxRuns hkeys

/-- An event changes its own run only, unless it makes a run go. -/
theorem get?_runs_apply {s : MemoryDataSource} {e : Event} {events : List Event}
    (h : s.Spares (e :: events)) (r : String) :
    (s.apply e).runs.get? r
      = if r = e.runId then
          some (((s.runs.get? r).getD (Run.new (flowFromEvent e) s.maxEventsPerRun)).update e)
        else s.runs.get? r := by
  show (runsAfter s.maxEventsPerRun s.maxRuns s.runs e).get? r = _
  rw [runsAfter]
  cases hrun : s.runs.get? e.runId with
  | some run =>
    rw [Dict.get?_set]
    split
    · next hr => rw [hr, hrun, Option.getD_some]
    · rfl
  | none =>
    -- the new run is still there when its first event is folded in
    have hevict := h.evictIfNeeded_eq (Run.new (flowFromEvent e) s.maxEventsPerRun)
    have hmem : e.runId ∈ (evictIfNeeded s.maxRuns
        (s.runs.set e.runId (Run.new (flowFromEvent e) s.maxEventsPerRun))).keys := by
      rw [hevict]
      exact Dict.mem_keys_set.mpr (Or.inl rfl)
    dsimp only
    rw [if_pos hmem, hevict, Dict.get?_set, Dict.get?_set]
    split
    · next hr => rw [hr, hrun, Option.getD_none]
    · rfl

theorem Spares.apply {s : MemoryDataSource} {e : Event} {events : List Event}
    (h : s.Spares (e :: events)) : (s.apply e).Spares events := by
  have hget := get?_runs_apply h
  rcases h with hnone | ⟨runId, hruns, hevents⟩
  · exact Or.inl hnone
  · refine Or.inr ⟨runId, ?_, fun x hx => hevents x (List.mem_cons_of_mem e hx)⟩
    intro r hr
    obtain ⟨run, hrun⟩ := Dict.mem_keys_iff.mp hr
    rw [hget] at hrun
    split at hrun
    · next heq => rw [heq]; exact hevents e List.mem_cons_self
    · exact hruns r (Dict.mem_keys_of_get? hrun)

theorem Spares.of_append_left {s : MemoryDataSource} {es es' : List Event}
    (h : s.Spares (es ++ es')) : s.Spares es :=
  h.imp_right fun ⟨runId, hruns, hevents⟩ =>
    ⟨runId, hruns, fun e he => hevents e (List.mem_append_left es' he)⟩

theorem Spares.applyMany {s : MemoryDataSource} {es es' : List Event}
    (h : s.Spares (es ++ es')) : (s.applyMany es).Spares es' := by
  induction es generalizing s with
  | nil => exact h
  | cons e es ih =>
    rw [MemoryDataSource.applyMany, List.foldl_cons]
    exact ih (Spares.apply h)

theorem getFlow_apply {s : MemoryDataSource} {e : Event} {events : List Event}
    (h : s.Spares (e :: events)) (r : String) :
    (s.apply e).getFlow r
      = if r = e.runId then applyEvent (s.getFlow r) e else s.getFlow r := by
  rw [getFlow, get?_runs_apply h, getFlow]
  split
  · cases s.runs.get? r <;> rfl
  · rfl

theorem held_apply {s : MemoryDataSource} {e : Event} {events : List Event}
    (h : s.Spares (e :: events)) (r : String) :
    (s.apply e).held r
      = if r = e.runId then (s.held r ++ [e]).rtake s.maxEventsPerRun else s.held r := by
  rw [held, get?_runs_apply h, held]
  split
  · cases hrun : s.runs.get? r with
    | some run =>
      have hlen := (s.kept r run hrun).maxlen_events
      simp [Deque.items_append, hlen]
    | none => simp [Deque.items_append, Run.new]
  · rfl

@[simp] theorem maxEventsPerRun_applyMany (s : MemoryDataSource) (es : List Event) :
    (s.applyMany es).maxEventsPerRun = s.maxEventsPerRun := by
  induction es generalizing s with
  | nil => rfl
  | cons e es ih => rw [applyMany, List.foldl_cons]; exact ih (s.apply e)

@[simp] theorem maxRuns_applyMany (s : MemoryDataSource) (es : List Event) :
    (s.applyMany es).maxRuns = s.maxRuns := by
  induction es generalizing s with
  | nil => rfl
  | cons e es ih => rw [applyMany, List.foldl_cons]; exact ih (s.apply e)

/-- A history never outgrows its size. -/
theorem length_held_le (s : MemoryDataSource) (r : String) :
    (s.held r).length ≤ s.maxEventsPerRun := by
  rw [held]
  cases hrun : s.runs.get? r with
  | none => simp
  | some run =>
    have hlen := (s.kept r run hrun).maxlen_events
    rw [← hlen]
    exact run.events.length_le

/-- **A run's history** is the last `max_events_per_run` of its events, in order of
arrival. -/
theorem held_applyMany {s : MemoryDataSource} {es : List Event} (h : s.Spares es) (r : String) :
    (s.applyMany es).held r
      = (s.held r ++ es.filter (·.runId = r)).rtake s.maxEventsPerRun := by
  induction es generalizing s with
  | nil =>
    rw [applyMany, List.foldl_nil, List.filter_nil, List.append_nil,
      Deque.rtake_of_length_le (s.length_held_le r)]
  | cons e es ih =>
    have hstep := ih h.apply
    rw [applyMany, List.foldl_cons]
    rw [applyMany, held_apply h] at hstep
    rw [hstep, maxEventsPerRun_apply, List.filter_cons]
    by_cases hr : r = e.runId
    · rw [if_pos hr, if_pos (by simp [hr]), Deque.rtake_rtake_append, List.append_assoc,
        List.singleton_append]
    · rw [if_neg hr, if_neg (by simpa using Ne.symm hr)]

/-- A run's flow is the fold of all its events. -/
theorem getFlow_applyMany {s : MemoryDataSource} {es : List Event} (h : s.Spares es) (r : String) :
    (s.applyMany es).getFlow r = applyEvents (s.getFlow r) (es.filter (·.runId = r)) := by
  induction es generalizing s with
  | nil => rfl
  | cons e es ih =>
    have hstep := ih h.apply
    rw [applyMany, List.foldl_cons]
    rw [applyMany, getFlow_apply h] at hstep
    rw [hstep, List.filter_cons]
    by_cases hr : r = e.runId
    · rw [if_pos hr, if_pos (by simp [hr])]; rfl
    · rw [if_neg hr, if_neg (by simpa using Ne.symm hr)]

/-! ### A run that is new to a full store -/

/-- A run that began with `event` would be the one to go at once: the store is full, and
every run it has was observed later. -/
def TurnsAway (s : MemoryDataSource) (event : Event) : Prop :=
  (s.maxRuns.any fun m => m ≤ s.runs.values.length) = true
    ∧ ∀ run ∈ s.runs.values, event.ts < run.flow.observedAt

instance (s : MemoryDataSource) (event : Event) : Decidable (s.TurnsAway event) :=
  inferInstanceAs (Decidable (_ ∧ _))

theorem values_set_of_notMem {runs : Dict String Run} {runId : String} (h : runId ∉ runs.keys)
    (run : Run) : (runs.set runId run).values = runs.values ++ [run] := by
  rw [Dict.values, Dict.entries_set_of_notMem run h, List.map_append]
  rfl

/-- The run added last is the one to go only if it was observed before all the others. -/
theorem victim_set {runs : Dict String Run} {runId : String} (h : runId ∉ runs.keys) (run : Run) :
    victim (runs.set runId run)
      = if ∀ x ∈ runs.values, run.flow.observedAt < x.flow.observedAt then some run
        else victim runs := by
  rw [victim, values_set_of_notMem h, List.argmin_concat, victim]
  cases hv : runs.values.argmin fun run => run.flow.observedAt with
  | none => simp [List.argmin_eq_none.mp hv]
  | some v =>
    have hmem : v ∈ runs.values := List.argmin_mem hv
    have hle : ∀ x ∈ runs.values, v.flow.observedAt ≤ x.flow.observedAt := fun x hx =>
      List.le_of_mem_argmin (f := fun run : Run => run.flow.observedAt) hx hv
    have hiff : (∀ x ∈ runs.values, run.flow.observedAt < x.flow.observedAt)
        ↔ run.flow.observedAt < v.flow.observedAt :=
      ⟨fun hall => hall v hmem, fun hlt x hx => hlt.trans_le (hle x hx)⟩
    simp only [hiff]

/-- A run that is turned away leaves the store as it was. -/
theorem apply_of_turnsAway {s : MemoryDataSource} {e : Event} (h : e.runId ∉ s.runs.keys)
    (haway : s.TurnsAway e) : s.apply e = s := by
  have hevict : evictIfNeeded s.maxRuns
      (s.runs.set e.runId (Run.new (flowFromEvent e) s.maxEventsPerRun)) = s.runs := by
    have hfull : ¬(s.maxRuns.all fun m => s.runs.values.length + 1 ≤ m) = true := by
      have hany := haway.1
      cases hm : s.maxRuns with
      | none => simp [hm] at hany
      | some m => simpa [hm] using hany
    have hbefore : ∀ x ∈ s.runs.values,
        (Run.new (flowFromEvent e) s.maxEventsPerRun).flow.observedAt < x.flow.observedAt := haway.2
    rw [evictIfNeeded, values_set_of_notMem h, List.length_append, List.length_singleton,
      if_neg hfull, victim_set h, if_pos hbefore]
    exact Dict.erase_set_of_notMem _ h
  have hruns : runsAfter s.maxEventsPerRun s.maxRuns s.runs e = s.runs := by
    rw [runsAfter, Dict.get?_eq_none_iff.mpr h]
    dsimp only
    rw [hevict, if_neg h]
  cases s
  simpa [apply] using hruns

/-- Room for a run that is not turned away: there is some, or a run that was there before goes. -/
theorem evictIfNeeded_of_stays {s : MemoryDataSource} {e : Event} (h : e.runId ∉ s.runs.keys)
    (hstay : ¬s.TurnsAway e) {runs : Dict String Run}
    (hruns : runs = s.runs.set e.runId (Run.new (flowFromEvent e) s.maxEventsPerRun)) :
    ((∀ m ∈ s.maxRuns, s.runs.values.length + 1 ≤ m) ∧ evictIfNeeded s.maxRuns runs = runs)
      ∨ ∃ v, victim s.runs = some v ∧ s.runs.get? v.flow.runId = some v
        ∧ evictIfNeeded s.maxRuns runs = runs.erase v.flow.runId := by
  have hlength : runs.values.length = s.runs.values.length + 1 := by
    rw [hruns, values_set_of_notMem h, List.length_append, List.length_singleton]
  rw [evictIfNeeded, hlength]
  split
  · next hroom =>
    refine Or.inl ⟨fun m hm => ?_, rfl⟩
    rw [Option.mem_def.mp hm] at hroom
    simpa using hroom
  · next hfull =>
    obtain ⟨m, hm, hlt⟩ : ∃ m ∈ s.maxRuns, m < s.runs.values.length + 1 := by
      cases hm : s.maxRuns with
      | none => simp [hm] at hfull
      | some m => exact ⟨m, rfl, by simpa [hm] using hfull⟩
    have hall : ¬∀ x ∈ s.runs.values,
        (Run.new (flowFromEvent e) s.maxEventsPerRun).flow.observedAt < x.flow.observedAt := by
      intro hall
      refine hstay ⟨?_, hall⟩
      rw [Option.mem_def.mp hm]
      simpa using Nat.lt_succ_iff.mp hlt
    right
    cases hv : victim s.runs with
    | none =>
      -- a limit is at least one, so that a store without runs is not full
      have hempty : s.runs.values = [] := List.argmin_eq_none.mp hv
      simp [hempty] at hall
    | some v =>
      obtain ⟨r, hr⟩ := Dict.mem_values_iff.mp (List.argmin_mem hv)
      refine ⟨v, rfl, ?_, ?_⟩
      · rwa [(s.kept r v hr).runId_flow]
      · rw [hruns, victim_set h, if_neg hall, hv]

/-- A run that is not turned away has a place for its first event. -/
theorem runsAfter_of_stays {s : MemoryDataSource} {e : Event} (h : e.runId ∉ s.runs.keys)
    (hstay : ¬s.TurnsAway e) {runs : Dict String Run}
    (hruns : runs = s.runs.set e.runId (Run.new (flowFromEvent e) s.maxEventsPerRun)) :
    (s.apply e).runs = (evictIfNeeded s.maxRuns runs).set e.runId
      ((Run.new (flowFromEvent e) s.maxEventsPerRun).update e) := by
  have hnew : runs.get? e.runId = some (Run.new (flowFromEvent e) s.maxEventsPerRun) := by
    rw [hruns, Dict.get?_set_self]
  have hmem : e.runId ∈ (evictIfNeeded s.maxRuns runs).keys := by
    rcases evictIfNeeded_of_stays h hstay hruns with ⟨-, hevict⟩ | ⟨v, -, hv, hevict⟩
    · rw [hevict]
      exact Dict.mem_keys_of_get? hnew
    · have hne : e.runId ≠ v.flow.runId := fun heq => h (heq ▸ Dict.mem_keys_of_get? hv)
      rw [hevict]
      refine Dict.mem_keys_of_get? (v := Run.new (flowFromEvent e) s.maxEventsPerRun) ?_
      rw [Dict.get?_erase, if_neg hne, hnew]
  show runsAfter s.maxEventsPerRun s.maxRuns s.runs e = _
  rw [runsAfter, Dict.get?_eq_none_iff.mpr h]
  dsimp only
  rw [← hruns, if_pos hmem]

/-- A run that is not turned away keeps its place, whichever run goes for it. -/
theorem getFlow_apply_new {s : MemoryDataSource} {e : Event} (h : e.runId ∉ s.runs.keys)
    (hstay : ¬s.TurnsAway e) : (s.apply e).getFlow e.runId = applyEvent none e := by
  rw [getFlow, runsAfter_of_stays h hstay rfl, Dict.get?_set_self]
  rfl

/-- A run that is known is only updated, however full the store is. -/
theorem getFlow_apply_known {s : MemoryDataSource} {e : Event} {f : FlowSnapshot}
    (h : s.getFlow e.runId = some f) : (s.apply e).getFlow e.runId = applyEvent (some f) e := by
  obtain ⟨run, hrun, rfl⟩ := Option.map_eq_some_iff.mp h
  show ((runsAfter s.maxEventsPerRun s.maxRuns s.runs e).get? e.runId).map (·.flow) = _
  rw [runsAfter, hrun]
  dsimp only
  rw [Dict.get?_set_self]
  rfl

/-- **A run that is new to a store** is the fold of its events from the first one that is
not turned away. -/
theorem getFlow_applyMany_new {s : MemoryDataSource} {r : String} (hnew : s.getFlow r = none)
    {es : List Event} (hes : ∀ e ∈ es, e.runId = r) :
    (s.applyMany es).getFlow r = applyEvents none (es.dropWhile fun e => s.TurnsAway e) := by
  have hknown : ∀ (es : List Event) (s : MemoryDataSource) (f : FlowSnapshot),
      (∀ e ∈ es, e.runId = r) → s.getFlow r = some f →
        (s.applyMany es).getFlow r = applyEvents (some f) es := by
    intro es
    induction es with
    | nil => intro s f _ hf; exact hf
    | cons e es ih =>
      intro s f hes hf
      obtain rfl := hes e List.mem_cons_self
      exact ih (s.apply e) _ (fun x hx => hes x (List.mem_cons_of_mem e hx))
        (getFlow_apply_known hf)
  induction es with
  | nil => exact hnew
  | cons e es ih =>
    obtain rfl := hes e List.mem_cons_self
    have hrest : ∀ x ∈ es, x.runId = e.runId := fun x hx => hes x (List.mem_cons_of_mem e hx)
    have hkey : e.runId ∉ s.runs.keys := Dict.get?_eq_none_iff.mp (Option.map_eq_none_iff.mp hnew)
    rw [applyMany, List.foldl_cons, List.dropWhile_cons]
    by_cases haway : s.TurnsAway e
    · rw [apply_of_turnsAway hkey haway, if_pos (decide_eq_true haway)]
      exact ih hrest
    · rw [if_neg (by simpa using haway)]
      exact hknown es (s.apply e) _ hrest (getFlow_apply_new hkey haway)

/-! ### Reading -/

/-- A page is made of the events retained for the run. -/
theorem eventsSince_eq (s : MemoryDataSource) (r : String) (since : ℤ) {limit : ℤ}
    (hlimit : 1 ≤ limit) :
    s.eventsSince r since limit = .ok (eventPage (sortedBySeq (s.held r)) since limit) := by
  rw [eventsSince, if_neg (not_lt.mpr hlimit), held]
  cases s.runs.get? r <;> rfl

theorem mem_matching {s : MemoryDataSource} {filter : FlowFilter} {f : FlowSnapshot} :
    f ∈ s.matching filter
      ↔ s.getFlow f.runId = some f ∧ filter.admits f.state f.bookId = true := by
  rw [matching, List.mem_filter, getFlow, List.mem_map]
  refine and_congr_left fun _ => ?_
  constructor
  · rintro ⟨run, hrun, rfl⟩
    obtain ⟨r, hr⟩ := Dict.mem_values_iff.mp hrun
    rw [(s.kept r run hr).runId_flow, hr]
    rfl
  · intro hf
    obtain ⟨run, hrun, rfl⟩ := Option.map_eq_some_iff.mp hf
    exact ⟨run, Dict.mem_values_iff.mpr ⟨_, hrun⟩, rfl⟩

/-- No run is listed twice. -/
theorem nodup_matching (s : MemoryDataSource) (filter : FlowFilter) :
    ((s.matching filter).map (·.runId)).Nodup := by
  have hkeys : (s.runs.values.map (·.flow)).map (·.runId) = s.runs.keys := by
    rw [Dict.values, List.map_map, List.map_map]
    exact List.map_congr_left fun p hp =>
      (s.kept p.1 p.2 (Dict.get?_eq_some_iff.mpr hp)).runId_flow
  refine List.Nodup.sublist (List.filter_sublist.map _) ?_
  rw [hkeys]
  exact s.runs.nodup_keys'

theorem sortedBy_matching (s : MemoryDataSource) (filter : FlowFilter) :
    SortedBy listKey (sortFlows (s.matching filter)) :=
  sortedBy_sortFlows (s.nodup_matching filter)

theorem nodup_sortFlows_matching (s : MemoryDataSource) (filter : FlowFilter) :
    ((sortFlows (s.matching filter)).map (·.runId)).Nodup :=
  ((perm_sortFlows _).map _).nodup_iff.mpr (s.nodup_matching filter)

theorem listFlows_none (s : MemoryDataSource) (filter : FlowFilter) {limit : ℤ}
    (hlimit : 1 ≤ limit) :
    s.listFlows filter limit none = .ok (pageOf limit.toNat (sortFlows (s.matching filter))) := by
  rw [listFlows, if_neg (not_lt.mpr hlimit), listPage_none]

/-- After a flow that is listed. -/
theorem listFlows_some {s : MemoryDataSource} {filter : FlowFilter} {limit : ℤ}
    (hlimit : 1 ≤ limit) {f : FlowSnapshot} (hf : s.getFlow f.runId = some f)
    (hadmits : filter.admits f.state f.bookId = true) :
    s.listFlows filter limit (some f.runId)
      = .ok (pageOf limit.toNat
          (after listKey (listKey f) (sortFlows (s.matching filter)))) := by
  rw [listFlows, if_neg (not_lt.mpr hlimit)]
  exact listPage_some (s.sortedBy_matching filter) (s.nodup_sortFlows_matching filter) _
    (mem_sortFlows.mpr (mem_matching.mpr ⟨hf, hadmits⟩))

/-- After a run that is listed. -/
theorem listFlows_of_mem {s : MemoryDataSource} {filter : FlowFilter} {limit : ℤ}
    (hlimit : 1 ≤ limit) {m : String} (h : ∃ f ∈ s.matching filter, f.runId = m) :
    s.listFlows filter limit (some m) = .ok (pageOf limit.toNat
      ((sortFlows (s.matching filter)).dropWhile fun f => f.runId ≠ m).tail) := by
  obtain ⟨f, hf, hm⟩ := h
  rw [listFlows, if_neg (not_lt.mpr hlimit)]
  exact listPage_of_mem (s.nodup_sortFlows_matching filter) _ ⟨f, mem_sortFlows.mpr hf, hm⟩

/-- Any other marker is unknown. -/
theorem listFlows_unknown {s : MemoryDataSource} {filter : FlowFilter} {limit : ℤ}
    (hlimit : 1 ≤ limit) {m : String}
    (h : ∀ f, s.getFlow m = some f → filter.admits f.state f.bookId = false) :
    s.listFlows filter limit (some m) = .error (unknownMarker m) := by
  rw [listFlows, if_neg (not_lt.mpr hlimit)]
  refine listPage_unknown (s.nodup_sortFlows_matching filter) _ fun f hf hm => ?_
  subst hm
  obtain ⟨hget, hadmits⟩ := mem_matching.mp (mem_sortFlows.mp hf)
  rw [h f hget] at hadmits
  simp at hadmits

end MemoryDataSource

end TaskflowMeter
