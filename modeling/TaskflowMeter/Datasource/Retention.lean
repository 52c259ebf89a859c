import TaskflowMeter.Datasource.Sqlalchemy

/-!
# Deleting runs from the SQL store

Runs are written by batches, and deleted one at a time or by age.  Both tables are written by
statements of their own.

## Main definitions

* `SQLADataSource.forget`, `SQLADataSource.prune` — the two ways to delete runs.
* `Call`, `callAll` — the calls that write, in any order.
* `History` — the events of each run since it was last deleted, which is what the tables are for.

## Main results

* `remembers_callAll` — **after any calls the two tables hold what the histories say.**
* `tables_agree` — the same runs are in both tables, each number is stored once, the first of its
  kind, and a row was observed when the latest of its events was; and `prune` deletes the old runs
  and nothing else.
-/

namespace TaskflowMeter

namespace SQLADataSource

/-- Delete the events of some runs. -/
def deleteEvents (db : SQLADataSource) (runIds : List String) : SQLADataSource :=
  { db with
    events := db.events.filterKeys fun key => key.1 ∉ runIds
    events_keyed := by
      intro key row hrow
      rw [Dict.get?_filterKeys] at hrow
      split at hrow
      · exact db.events_keyed key row hrow
      · cases hrow }

/-- Delete some events. -/
def deleteKeys (db : SQLADataSource) (keys : List (String × ℤ)) : SQLADataSource :=
  { db with
    events := db.events.filterKeys fun key => !keys.contains key
    events_keyed := by
      intro key row hrow
      rw [Dict.get?_filterKeys] at hrow
      split at hrow
      · exact db.events_keyed key row hrow
      · cases hrow }

/-- Delete the rows of some runs. -/
def deleteFlows (db : SQLADataSource) (runIds : List String) : SQLADataSource :=
  { db with
    flows := db.flows.filterKeys fun runId => runId ∉ runIds
    flows_keyed := by
      intro runId row hrow
      rw [Dict.get?_filterKeys] at hrow
      split at hrow
      · exact db.flows_keyed runId row hrow
      · cases hrow }

/-- Drop a run and its events.  Returns whether it was there. -/
def forget (db : SQLADataSource) (runId : String) : Bool × SQLADataSource :=
  (db.flows.keys.contains runId, (db.deleteEvents [runId]).deleteFlows [runId])

/-- The runs last observed before a time. -/
def stale (db : SQLADataSource) (before : ℚ) : List String :=
  (db.flows.values.filter fun row => row.observedAt < before).map (·.runId)

/-- Drop runs last observed before a time.  Returns how many. -/
def prune (db : SQLADataSource) (before : ℚ) : ℕ × SQLADataSource :=
  if db.stale before = [] then (0, db)
  else ((db.stale before).length, (db.deleteEvents (db.stale before)).deleteFlows (db.stale before))

/-- A call that writes. -/
inductive Call where
  | applyMany (batch : List Event)
  | forget (runId : String)
  | prune (before : ℚ)

def call (db : SQLADataSource) : Call → SQLADataSource
  | .applyMany batch => db.applyMany batch
  | .forget runId => (db.forget runId).2
  | .prune before => (db.prune before).2

def callAll (db : SQLADataSource) (calls : List Call) : SQLADataSource := calls.foldl call db

/-! ### What a deletion leaves -/

section

variable (db : SQLADataSource) (runIds : List String)

@[simp] theorem get?_flows_deleteEvents (r : String) :
    (db.deleteEvents runIds).flows.get? r = db.flows.get? r := rfl

@[simp] theorem get?_events_deleteFlows (key : String × ℤ) :
    (db.deleteFlows runIds).events.get? key = db.events.get? key := rfl

theorem get?_flows_deleteFlows (r : String) :
    (db.deleteFlows runIds).flows.get? r = if r ∈ runIds then none else db.flows.get? r := by
  have hget : (db.deleteFlows runIds).flows.get? r = _ := Dict.get?_filterKeys db.flows _ r
  rw [hget]
  by_cases h : r ∈ runIds <;> simp [h]

theorem get?_events_deleteEvents (key : String × ℤ) :
    (db.deleteEvents runIds).events.get? key
      = if key.1 ∈ runIds then none else db.events.get? key := by
  have hget : (db.deleteEvents runIds).events.get? key = _ := Dict.get?_filterKeys db.events _ key
  rw [hget]
  by_cases h : key.1 ∈ runIds <;> simp [h]

end

theorem mem_stale {db : SQLADataSource} {before : ℚ} {r : String} :
    r ∈ db.stale before ↔ ∃ row, db.flows.get? r = some row ∧ row.observedAt < before := by
  simp only [stale, List.mem_map, List.mem_filter, Dict.mem_values_iff, decide_eq_true_eq]
  constructor
  · rintro ⟨row, ⟨⟨r', hrow⟩, hlt⟩, rfl⟩
    exact ⟨row, by rw [db.flows_keyed r' row hrow, hrow], hlt⟩
  · rintro ⟨row, hrow, hlt⟩
    exact ⟨row, ⟨⟨r, hrow⟩, hlt⟩, db.flows_keyed r row hrow⟩

theorem nodup_stale (db : SQLADataSource) (before : ℚ) : (db.stale before).Nodup := by
  have hkeys : db.flows.values.map (·.runId) = db.flows.keys := by
    rw [Dict.values, List.map_map]
    exact List.map_congr_left fun p hp => db.flows_keyed p.1 p.2 (Dict.get?_eq_some_iff.mpr hp)
  refine List.Nodup.sublist (List.filter_sublist.map _) ?_
  rw [hkeys]
  exact db.flows.nodup_keys'

/-- Where there is nothing to prune, pruning nothing is deleting it. -/
theorem prune_eq (db : SQLADataSource) (before : ℚ) :
    (db.prune before).1 = (db.stale before).length
      ∧ (∀ r, (db.prune before).2.flows.get? r
          = if r ∈ db.stale before then none else db.flows.get? r)
      ∧ ∀ key, (db.prune before).2.events.get? key
          = if key.1 ∈ db.stale before then none else db.events.get? key := by
  rw [prune]
  split
  · next hnil => simp [hnil]
  · refine ⟨rfl, fun r => ?_, fun key => ?_⟩
    · rw [get?_flows_deleteFlows, get?_flows_deleteEvents]
    · rw [get?_events_deleteFlows, get?_events_deleteEvents]

/-! ### What a batch adds -/

theorem get?_events_insertEvent (db : SQLADataSource) (e : Event) (r : String) (n : ℤ) :
    (db.insertEvent e).events.get? (r, n)
      = (db.events.get? (r, n)).or
        (if e.runId = r ∧ e.seq = n then some (eventRow e) else none) := by
  rw [events_insertEvent]
  by_cases hkey : e.runId = r ∧ e.seq = n
  · obtain ⟨rfl, rfl⟩ := hkey
    split
    · next hmem =>
      obtain ⟨row, hrow⟩ := Dict.mem_keys_iff.mp hmem
      rw [hrow, Option.some_or]
    · next hnew => rw [Dict.get?_set_self, Dict.get?_eq_none_iff.mpr hnew]; simp
  · have hne : (r, n) ≠ (e.runId, e.seq) := fun heq =>
      hkey ⟨(Prod.mk.inj heq).1.symm, (Prod.mk.inj heq).2.symm⟩
    rw [if_neg hkey, Option.or_none]
    split
    · rfl
    · rw [Dict.get?_set, if_neg hne]

theorem get?_events_foldl_insertEvent {db : SQLADataSource} {es : List Event} {r : String}
    (hrun : ∀ e ∈ es, e.runId = r) (r' : String) (n : ℤ) :
    (es.foldl insertEvent db).events.get? (r', n)
      = if r' = r then (db.events.get? (r', n)).or ((es.find? fun e => e.seq = n).map eventRow)
        else db.events.get? (r', n) := by
  induction es generalizing db with
  | nil => simp
  | cons e es ih =>
    have hfirst := hrun e List.mem_cons_self
    rw [List.foldl_cons, ih fun x hx => hrun x (List.mem_cons_of_mem e hx), get?_events_insertEvent,
      List.find?_cons, hfirst]
    by_cases hr : r' = r
    · subst hr
      by_cases hn : e.seq = n <;> simp [hn]
    · simp [hr, Ne.symm hr]

/-- **A batch and the events table**: of each new number the first event is stored. -/
theorem get?_events_applyMany (db : SQLADataSource) (batch : List Event) (r : String) (n : ℤ) :
    (db.applyMany batch).events.get? (r, n)
      = (db.events.get? (r, n)).or
        (((batch.filter (·.runId = r)).find? fun e => e.seq = n).map eventRow) := by
  refine applyMany_part (f := fun db : SQLADataSource => db.events.get? (r, n))
    (g := fun es stored => stored.or ((es.find? fun e => e.seq = n).map eventRow)) ?_ ?_ db batch
  · simp
  · intro db runId es hne hrun
    obtain ⟨f, -, -, heq⟩ := db.applyRun_eq hne hrun
    rw [heq, get?_events_foldl_insertEvent hrun]
    rfl

/-! ### Histories -/

/-- The events of each run since it was last deleted, in order of application. -/
abbrev History := String → List Event

/-- What a call does to the histories. -/
def History.call (h : History) : Call → History
  | .applyMany batch => fun r => h r ++ batch.filter (·.runId = r)
  | .forget runId => fun r => if r = runId then [] else h r
  | .prune before => fun r => if ∀ e ∈ h r, e.ts < before then [] else h r

def History.callAll (calls : List Call) : History := calls.foldl History.call fun _ => []

/-- The tables hold what the histories say: a run's row is the fold of its history, and of each
number the first event is stored. -/
structure Remembers (db : SQLADataSource) (h : History) : Prop where
  flow : ∀ r, db.getFlow r = applyEvents none (h r)
  event : ∀ r n, db.events.get? (r, n) = ((h r).find? fun e => e.seq = n).map eventRow

section

variable {db : SQLADataSource} {h : History}

theorem Remembers.mem_keys_iff (hdb : Remembers db h) {r : String} :
    r ∈ db.flows.keys ↔ h r ≠ [] := by
  have hsome : (db.getFlow r).isSome ↔ r ∈ db.flows.keys := by
    rw [getFlow, loadFlow, Option.isSome_map, Dict.mem_keys_iff_isSome]
  rw [← hsome, hdb.flow r]
  constructor
  · rintro hflow hnil
    rw [hnil] at hflow
    cases hflow
  · intro hne
    obtain ⟨f, hf⟩ := applyEvents_ne_none none hne
    rw [hf]
    rfl

/-- The time of a fold of a run's events is that of the latest. -/
theorem isGreatest_observedAt {es : List Event} {f : FlowSnapshot}
    (hf : applyEvents none es = some f) :
    IsGreatest {t | ∃ e ∈ es, e.ts = t} f.observedAt := by
  have hmax : ∀ (es : List Event) (t : ℚ),
      t ≤ es.foldl (fun t e => max t e.ts) t ∧ (∀ e ∈ es, e.ts ≤ es.foldl (fun t e => max t e.ts) t)
        ∧ (es.foldl (fun t e => max t e.ts) t = t
          ∨ ∃ e ∈ es, e.ts = es.foldl (fun t e => max t e.ts) t) := by
    intro es
    induction es with
    | nil => intro t; simp
    | cons e es ih =>
      intro t
      obtain ⟨hle, hall, hsome⟩ := ih (max t e.ts)
      rw [List.foldl_cons]
      refine ⟨(le_max_left t e.ts).trans hle, ?_, ?_⟩
      · rw [List.forall_mem_cons]
        exact ⟨(le_max_right t e.ts).trans hle, hall⟩
      · rcases hsome with heq | ⟨x, hx, heq⟩
        · rcases max_choice t e.ts with hmax | hmax
          · exact .inl (heq.trans hmax)
          · exact .inr ⟨e, List.mem_cons_self, (heq.trans hmax).symm⟩
        · exact .inr ⟨x, List.mem_cons_of_mem e hx, heq⟩
  cases es with
  | nil => cases hf
  | cons e es =>
    rw [applyEvents_none_cons] at hf
    obtain rfl := Option.some.inj hf
    rw [observedAt_foldl]
    obtain ⟨-, hall, hsome⟩ := hmax (e :: es) (flowFromEvent e).observedAt
    refine ⟨?_, ?_⟩
    · rcases hsome with heq | hsome
      · exact ⟨e, List.mem_cons_self, heq.symm⟩
      · exact hsome
    · rintro t ⟨x, hx, rfl⟩
      exact hall x hx

theorem Remembers.isGreatest (hdb : Remembers db h) {r : String} {row : FlowRow}
    (hrow : db.flows.get? r = some row) : IsGreatest {t | ∃ e ∈ h r, e.ts = t} row.observedAt := by
  refine isGreatest_observedAt (f := flowFromRow row) ?_
  rw [← hdb.flow r, getFlow, loadFlow, hrow]
  rfl

/-- The old runs are those whose events are all old. -/
theorem Remembers.mem_stale_iff (hdb : Remembers db h) {before : ℚ} {r : String} :
    r ∈ db.stale before ↔ h r ≠ [] ∧ ∀ e ∈ h r, e.ts < before := by
  rw [mem_stale]
  constructor
  · rintro ⟨row, hrow, hlt⟩
    refine ⟨hdb.mem_keys_iff.mp (Dict.mem_keys_of_get? hrow), fun e he => ?_⟩
    exact ((hdb.isGreatest hrow).2 ⟨e, he, rfl⟩).trans_lt hlt
  · rintro ⟨hne, hall⟩
    obtain ⟨row, hrow⟩ := Dict.mem_keys_iff.mp (hdb.mem_keys_iff.mpr hne)
    obtain ⟨e, he, hts⟩ := (hdb.isGreatest hrow).1
    exact ⟨row, hrow, hts ▸ hall e he⟩

/-- Runs are deleted from the tables and from the histories alike. -/
theorem Remembers.delete (hdb : Remembers db h) {db' : SQLADataSource} {h' : History}
    {runIds : List String} (hhistory : ∀ r, h' r = if r ∈ runIds then [] else h r)
    (hflows : ∀ r, db'.flows.get? r = if r ∈ runIds then none else db.flows.get? r)
    (hevents : ∀ key, db'.events.get? key = if key.1 ∈ runIds then none else db.events.get? key) :
    Remembers db' h' := by
  refine ⟨fun r => ?_, fun r n => ?_⟩
  · have hflow := hdb.flow r
    rw [getFlow, loadFlow] at hflow ⊢
    rw [hflows, hhistory]
    split
    · rfl
    · exact hflow
  · rw [hevents, hhistory]
    split
    · rfl
    · exact hdb.event r n

/-- **Each call does to the tables what it does to the histories.** -/
theorem Remembers.call (hdb : Remembers db h) (c : Call) : Remembers (db.call c) (h.call c) := by
  cases c with
  | applyMany batch =>
    refine ⟨fun r => ?_, fun r n => ?_⟩
    · show (db.applyMany batch).getFlow r = _
      rw [getFlow_applyMany, hdb.flow, History.call, applyEvents, applyEvents, applyEvents,
        List.foldl_append]
    · show (db.applyMany batch).events.get? (r, n) = _
      rw [get?_events_applyMany, hdb.event, History.call, List.find?_append, Option.map_or]
  | forget runId =>
    have hdeleted : ∀ r, h.call (.forget runId) r = if r ∈ [runId] then [] else h r := by
      simp [History.call]
    refine hdb.delete hdeleted (fun r => ?_) fun key => ?_
    · exact get?_flows_deleteFlows (db.deleteEvents [runId]) [runId] r
    · exact get?_events_deleteEvents db [runId] key
  | prune before =>
    obtain ⟨-, hflows, hevents⟩ := db.prune_eq before
    refine hdb.delete (fun r => ?_) hflows hevents
    rw [History.call]
    by_cases hnil : h r = []
    · simp [hnil]
    · simp [hdb.mem_stale_iff, hnil]

/-- **After any calls the tables hold what the histories say.** -/
theorem remembers_callAll (calls : List Call) :
    Remembers (callAll {} calls) (History.callAll calls) := by
  induction calls using List.reverseRecOn with
  | nil => exact ⟨fun r => rfl, fun r n => rfl⟩
  | append_singleton calls c ih =>
    rw [callAll, History.callAll, List.foldl_append, List.foldl_append]
    exact ih.call c

/-- `prune` deletes the runs last observed before a time with all their events, changes nothing
else, and returns how many. -/
structure PrunesOld (db : SQLADataSource) (before : ℚ) : Prop where
  deleted : ∀ r row, db.flows.get? r = some row → row.observedAt < before →
    (db.prune before).2.flows.get? r = none ∧ ∀ n, (db.prune before).2.events.get? (r, n) = none
  kept : ∀ r, (∀ row, db.flows.get? r = some row → before ≤ row.observedAt) →
    (db.prune before).2.flows.get? r = db.flows.get? r
      ∧ ∀ n, (db.prune before).2.events.get? (r, n) = db.events.get? (r, n)
  counted : (db.prune before).1
    = (db.flows.keys.filter fun r => r ∉ (db.prune before).2.flows.keys).length

theorem prunesOld (db : SQLADataSource) (before : ℚ) : PrunesOld db before := by
  obtain ⟨hcount, hflows, hevents⟩ := db.prune_eq before
  refine ⟨fun r row hrow hlt => ?_, fun r hrow => ?_, ?_⟩
  · have hstale := mem_stale.mpr ⟨row, hrow, hlt⟩
    exact ⟨by rw [hflows, if_pos hstale], fun n => by rw [hevents, if_pos hstale]⟩
  · have hkept : r ∉ db.stale before := by
      intro hstale
      obtain ⟨row, hget, hlt⟩ := mem_stale.mp hstale
      exact absurd hlt (not_lt.mpr (hrow row hget))
    exact ⟨by rw [hflows, if_neg hkept], fun n => by rw [hevents, if_neg hkept]⟩
  · rw [hcount]
    refine List.Perm.length_eq ?_
    refine (List.perm_ext_iff_of_nodup (db.nodup_stale before)
      (db.flows.nodup_keys'.filter _)).mpr ?_
    intro r
    rw [List.mem_filter, decide_eq_true_eq, ← Dict.get?_eq_none_iff, hflows, Dict.mem_keys_iff]
    constructor
    · intro hstale
      obtain ⟨row, hrow, -⟩ := mem_stale.mp hstale
      exact ⟨⟨row, hrow⟩, if_pos hstale⟩
    · rintro ⟨⟨row, hrow⟩, hgone⟩
      by_contra hkept
      rw [if_neg hkept, hrow] at hgone
      cases hgone

end

/-- **Whatever is written and deleted, the two tables agree**: on the runs they hold, on each number
once and the first of its kind, and on the time of the latest event; and pruning deletes the old
runs and nothing else. -/
theorem tables_agree (calls : List Call) :
    let db := callAll {} calls
    let h := History.callAll calls
    (∀ r, (∃ n, (r, n) ∈ db.events.keys) ↔ r ∈ db.flows.keys)
      ∧ (db.events.values.map fun row => (row.runId, row.seq)).Nodup
      ∧ (∀ r n, db.events.get? (r, n) = ((h r).find? fun e => e.seq = n).map eventRow)
      ∧ (∀ r row, db.flows.get? r = some row →
          IsGreatest {t | ∃ e ∈ h r, e.ts = t} row.observedAt)
      ∧ ∀ before, PrunesOld db before := by
  intro db h
  have hdb : Remembers db h := remembers_callAll calls
  refine ⟨fun r => ?_, ?_, hdb.event, fun r row => hdb.isGreatest, prunesOld db⟩
  · rw [hdb.mem_keys_iff]
    constructor
    · rintro ⟨n, hn⟩ hnil
      obtain ⟨row, hrow⟩ := Dict.mem_keys_iff.mp hn
      rw [hdb.event, hnil] at hrow
      cases hrow
    · intro hne
      obtain ⟨e, es, hes⟩ := List.exists_cons_of_ne_nil hne
      refine ⟨e.seq, Dict.mem_keys_iff.mpr ⟨eventRow e, ?_⟩⟩
      rw [hdb.event, hes, List.find?_cons_of_pos (by simp)]
      rfl
  · have hkeys : (db.events.values.map fun row => (row.runId, row.seq)) = db.events.keys := by
      rw [Dict.values, List.map_map]
      exact List.map_congr_left fun p hp => db.events_keyed p.1 p.2 (Dict.get?_eq_some_iff.mpr hp)
    rw [hkeys]
    exact db.events.nodup_keys'

end SQLADataSource

end TaskflowMeter
