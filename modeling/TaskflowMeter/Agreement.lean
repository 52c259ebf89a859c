import TaskflowMeter.Datasource.Writable
import TaskflowMeter.Lib.Runs

/-!
# The two stores answer alike

Each store is compared with the plain list of the events it was given: the log.  A store
that holds the log of every run, and its fold, answers as any other that does.

## Main definitions

* `Call` — a call of a producer.
* `WritableDataSource.perform` — what a store is after it.
* `WritableDataSource.Recorded` — a store holds a log.
* `WritableDataSource.Agree` — two stores answer every question of a reader alike.

## Main results

* `Recorded.perform` — **one call** adds its events to the log.
* `agree_foldl_perform` — **the stores agree after every call.**
-/

namespace TaskflowMeter

open Runs

/-- A call of a producer. -/
inductive Call where
  | apply (event : Event)
  | applyMany (events : List Event)
  deriving DecidableEq, Repr

/-- The events that a call hands over. -/
def Call.events : Call → List Event
  | apply event => [event]
  | applyMany events => events

/-- The numbers of a run are distinct if runs and numbers are together. -/
theorem nodup_seq_ofRun {es : List Event} (h : (es.map fun e => (e.runId, e.seq)).Nodup)
    (r : String) : ((ofRun r es).map Event.seq).Nodup := by
  have hfilter : ((ofRun r es).map fun e => (e.runId, e.seq)).Nodup :=
    h.sublist (List.filter_sublist.map _)
  have hpair : (ofRun r es).map (fun e => (e.runId, e.seq))
      = ((ofRun r es).map Event.seq).map (Prod.mk r) := by
    rw [List.map_map]
    refine List.map_congr_left fun e he => ?_
    rw [← of_decide_eq_true (List.mem_filter.mp he).2]
    rfl
  rw [hpair] at hfilter
  exact hfilter.of_map _

namespace WritableDataSource

def apply : WritableDataSource → Event → WritableDataSource
  | memory store, event => memory (store.apply event)
  | sqlalchemy store, event => sqlalchemy (store.apply event)

/-- A flow's atoms in name order. -/
def getAtoms (s : WritableDataSource) (runId : String) : Option (List AtomSnapshot) :=
  (s.getFlow runId).map fun flow => flow.atomNames.filterMap flow.atoms.get?

/-- What a store is after a call. -/
def perform (s : WritableDataSource) : Call → WritableDataSource
  | .apply event => s.apply event
  | .applyMany events => s.applyMany events

/-- To either store one event is a batch of one. -/
theorem perform_eq (s : WritableDataSource) (call : Call) :
    s.perform call = s.applyMany call.events := by
  cases call <;> cases s <;> rfl

/-- A store holds a log: the events of each run in order of arrival, and their fold. -/
structure Recorded (s : WritableDataSource) (log : List Event) : Prop where
  getFlow : ∀ r, s.getFlow r = applyEvents none (ofRun r log)
  held : ∀ r, s.held r = ofRun r log

/-- Two stores answer every question of a reader alike. -/
structure Agree (s s' : WritableDataSource) : Prop where
  getFlow : ∀ r, s.getFlow r = s'.getFlow r
  getAtoms : ∀ r, s.getAtoms r = s'.getAtoms r
  eventsSince : ∀ r since limit, 1 ≤ limit
    → s.eventsSince r since limit = s'.eventsSince r since limit

/-- Stores that hold the same log answer alike. -/
theorem Recorded.agree {s s' : WritableDataSource} {log : List Event} (h : s.Recorded log)
    (h' : s'.Recorded log) : s.Agree s' := by
  have hflow : ∀ r, s.getFlow r = s'.getFlow r := fun r => (h.getFlow r).trans (h'.getFlow r).symm
  refine ⟨hflow, ?_, ?_⟩
  · intro r
    rw [WritableDataSource.getAtoms, hflow, WritableDataSource.getAtoms]
  · intro r since limit hlimit
    rw [eventsSince_eq s r since hlimit, eventsSince_eq s' r since hlimit, h.held, h'.held]

/-- **One call** adds its events to the log. -/
theorem Recorded.perform {s : WritableDataSource} {log : List Event} {n : ℕ} {call : Call}
    (h : s.Recorded log) (hroom : s.Roomy n call.events)
    (hnodup : ((log ++ call.events).map fun e => (e.runId, e.seq)).Nodup)
    (hcap : ∀ r, (ofRun r (log ++ call.events)).length ≤ n) :
    (s.perform call).Recorded (log ++ call.events) where
  getFlow := by
    intro r
    rw [perform_eq, getFlow_applyMany hroom, h.getFlow, ofRun_append, applyEvents, applyEvents,
      applyEvents, List.foldl_append]
    rfl
  held := by
    intro r
    have hcat : s.held r ++ call.events.filter (·.runId = r) = ofRun r (log ++ call.events) := by
      rw [h.held, ofRun_append]
      rfl
    rw [perform_eq, held_applyMany_of_fresh hroom, hcat]
    · rw [hcat]
      exact nodup_seq_ofRun hnodup r
    · rw [hcat]
      exact hcap r

/-- A run of calls adds the events of each. -/
theorem Recorded.foldl_perform {s : WritableDataSource} {log : List Event} {n : ℕ}
    {calls : List Call} (h : s.Recorded log) (hroom : s.Roomy n (calls.flatMap Call.events))
    (hnodup : ((log ++ calls.flatMap Call.events).map fun e => (e.runId, e.seq)).Nodup)
    (hcap : ∀ r, (ofRun r (log ++ calls.flatMap Call.events)).length ≤ n) :
    (calls.foldl WritableDataSource.perform s).Recorded (log ++ calls.flatMap Call.events) := by
  induction calls generalizing s log with
  | nil => rwa [List.flatMap_nil, List.append_nil]
  | cons call calls ih =>
    rw [List.flatMap_cons] at hroom hnodup hcap ⊢
    rw [← List.append_assoc] at hnodup hcap ⊢
    have hpre : (log ++ call.events).Sublist
        (log ++ call.events ++ calls.flatMap Call.events) := List.sublist_append_left _ _
    have hstep : (s.perform call).Recorded (log ++ call.events) := by
      refine h.perform hroom.of_append_left (hnodup.sublist (hpre.map _)) fun r => ?_
      exact ((hpre.filter _).length_le).trans (hcap r)
    rw [List.foldl_cons]
    refine ih hstep ?_ hnodup hcap
    rw [perform_eq]
    exact hroom.applyMany

/-- A new store holds the empty log. -/
theorem recorded_init {maxEventsPerRun : ℕ} {store : MemoryDataSource}
    (h : MemoryDataSource.init maxEventsPerRun = .ok store) : (memory store).Recorded [] := by
  obtain ⟨-, -, -, hruns⟩ := MemoryDataSource.init_eq_ok h
  refine ⟨?_, ?_⟩
  · intro r
    show (store.runs.get? r).map (·.flow) = none
    rw [hruns]
    rfl
  · intro r
    show ((store.runs.get? r).map (·.events.items)).getD [] = []
    rw [hruns]
    rfl

theorem recorded_empty : (sqlalchemy {}).Recorded [] where
  getFlow := fun _ => rfl
  held := fun _ => rfl

/-- **The stores agree after every call**: on every flow, its atoms, and every page of its
events. -/
theorem agree_foldl_perform {maxEventsPerRun : ℕ} {store : MemoryDataSource}
    (hinit : MemoryDataSource.init maxEventsPerRun = .ok store) {calls : List Call}
    (hnodup : ((calls.flatMap Call.events).map fun e => (e.runId, e.seq)).Nodup)
    (hcap : ∀ r, (ofRun r (calls.flatMap Call.events)).length ≤ maxEventsPerRun) :
    Always (fun done => (done.foldl perform (memory store)).Agree
      (done.foldl perform (sqlalchemy {}))) calls := by
  intro done todo hcalls
  have hpre : (done.flatMap Call.events).Sublist (calls.flatMap Call.events) := by
    rw [hcalls, List.flatMap_append]
    exact List.sublist_append_left _ _
  have hnodup' := hnodup.sublist (hpre.map fun e => (e.runId, e.seq))
  have hcap' : ∀ r, (ofRun r (done.flatMap Call.events)).length ≤ maxEventsPerRun := fun r =>
    ((hpre.filter _).length_le).trans (hcap r)
  obtain ⟨-, hsize, hlimit, -⟩ := MemoryDataSource.init_eq_ok hinit
  have hroom : (memory store).Roomy maxEventsPerRun (done.flatMap Call.events) :=
    ⟨Or.inl hlimit, hsize.ge⟩
  exact ((recorded_init hinit).foldl_perform hroom hnodup' hcap').agree
    (recorded_empty.foldl_perform trivial hnodup' hcap')

/-- Two runs, one event alone and then a batch that is out of order. -/
theorem agree_two_runs :
    Always (fun done => (done.foldl perform (memory {})).Agree (done.foldl perform (sqlalchemy {})))
      [.apply (heartbeat 1), .applyMany [heartbeat 3, { heartbeat 1 with runId := "run-2" }],
        .apply (heartbeat 2)] := by
  have hcap : ∀ r, (ofRun r [heartbeat 1, heartbeat 3, { heartbeat 1 with runId := "run-2" },
      heartbeat 2]).length ≤ DEFAULT_MAX_EVENTS_PER_RUN := fun r =>
    (List.length_filter_le _ _).trans (by decide)
  have hinit : MemoryDataSource.init DEFAULT_MAX_EVENTS_PER_RUN = .ok {} := rfl
  exact agree_foldl_perform hinit (by decide) hcap

end WritableDataSource

end TaskflowMeter
