import TaskflowMeter.Datasource.Memory
import TaskflowMeter.Datasource.Sqlalchemy

/-!
# A datasource that is fed by a producer

What the two stores have in common, for results about either.

## Main definitions

* `WritableDataSource` — one of the stores; its operations are the store's own.
* `WritableDataSource.Roomy` — nothing is dropped or evicted.

## Main results

* `held_applyMany_of_fresh` — **a store with room keeps every new event of a batch.**
* `eventsSince_eq` — every page is made of the events held for the run, by one rule.
* `listFlows_eq_ok` — a page of flows is made of what has keys above the marker's.
-/

namespace TaskflowMeter

open Paging

/-- A datasource that is fed by a producer. -/
inductive WritableDataSource where
  | memory (store : MemoryDataSource)
  | sqlalchemy (store : SQLADataSource)

namespace WritableDataSource

def applyMany : WritableDataSource → List Event → WritableDataSource
  | memory store, events => memory (store.applyMany events)
  | sqlalchemy store, events => sqlalchemy (store.applyMany events)

def getFlow : WritableDataSource → String → Option FlowSnapshot
  | memory store => store.getFlow
  | sqlalchemy store => store.getFlow

def eventsSince : WritableDataSource → String → ℤ → ℤ → Except String EventPage
  | memory store => store.eventsSince
  | sqlalchemy store => store.eventsSince

def listFlows : WritableDataSource → FlowFilter → ℤ → Option String → Except ListError FlowPage
  | memory store => store.listFlows
  | sqlalchemy store => store.listFlows

/-- The flows that a filter admits, in the listing order. -/
def listed : WritableDataSource → FlowFilter → List FlowSnapshot
  | memory store, filter => sortFlows (store.matching filter)
  | sqlalchemy store, filter => sortFlows (store.matching filter)

/-- The events held for a run. -/
def held : WritableDataSource → String → List Event
  | memory store => store.held
  | sqlalchemy store => store.held

/-- Applying `events` drops no run, and `n` events of a run fit. -/
def Roomy (n : ℕ) (events : List Event) : WritableDataSource → Prop
  | memory store => store.Spares events ∧ n ≤ store.maxEventsPerRun
  | sqlalchemy _ => True

theorem Roomy.of_append_left {s : WritableDataSource} {n : ℕ} {es es' : List Event}
    (h : s.Roomy n (es ++ es')) : s.Roomy n es := by
  cases s with
  | memory store => exact ⟨h.1.of_append_left, h.2⟩
  | sqlalchemy store => trivial

theorem Roomy.applyMany {s : WritableDataSource} {n : ℕ} {es es' : List Event}
    (h : s.Roomy n (es ++ es')) : (s.applyMany es).Roomy n es' := by
  cases s with
  | memory store =>
    exact ⟨h.1.applyMany, by rw [MemoryDataSource.maxEventsPerRun_applyMany]; exact h.2⟩
  | sqlalchemy store => trivial

/-- Keeping the first event of each number keeps them all if the numbers are new. -/
theorem foldl_keepFirst {stored es : List Event} (h : ((stored ++ es).map Event.seq).Nodup) :
    es.foldl keepFirst stored = stored ++ es := by
  induction es generalizing stored with
  | nil => rw [List.foldl_nil, List.append_nil]
  | cons e es ih =>
    have hnew : ¬∃ x ∈ stored, x.seq = e.seq := by
      rintro ⟨x, hx, hseq⟩
      rw [List.map_append, List.nodup_append] at h
      exact h.2.2 x.seq (List.mem_map_of_mem hx) e.seq (List.mem_map_of_mem List.mem_cons_self) hseq
    rw [List.foldl_cons, keepFirst, if_neg hnew, ih, List.append_assoc, List.singleton_append]
    rwa [List.append_assoc, List.singleton_append]

/-- **A store with room keeps every new event of a batch**, in order of arrival. -/
theorem held_applyMany_of_fresh {s : WritableDataSource} {n : ℕ} {es : List Event}
    (h : s.Roomy n es) {r : String}
    (hnodup : ((s.held r ++ es.filter (·.runId = r)).map Event.seq).Nodup)
    (hlen : (s.held r ++ es.filter (·.runId = r)).length ≤ n) :
    (s.applyMany es).held r = s.held r ++ es.filter (·.runId = r) := by
  cases s with
  | memory store =>
    have hall := Deque.rtake_of_length_le (hlen.trans h.2)
    exact (MemoryDataSource.held_applyMany h.1 r).trans hall
  | sqlalchemy store =>
    have hall := foldl_keepFirst hnodup
    exact (SQLADataSource.held_applyMany store es r).trans hall

/-- A run's flow is the fold of its events. -/
theorem getFlow_applyMany {s : WritableDataSource} {n : ℕ} {es : List Event}
    (h : s.Roomy n es) (r : String) :
    (s.applyMany es).getFlow r = applyEvents (s.getFlow r) (es.filter (·.runId = r)) := by
  cases s with
  | memory store => exact MemoryDataSource.getFlow_applyMany h.1 r
  | sqlalchemy store => exact SQLADataSource.getFlow_applyMany store es r

/-- To a store in memory several batches are one. -/
theorem foldl_applyMany_memory (store : MemoryDataSource) (batches : List (List Event)) :
    batches.foldl applyMany (memory store) = memory (store.applyMany batches.flatten) := by
  induction batches generalizing store with
  | nil => rfl
  | cons batch batches ih =>
    rw [List.foldl_cons, List.flatten_cons, MemoryDataSource.applyMany, List.foldl_append]
    exact ih (store.applyMany batch)

theorem foldl_applyMany_sqlalchemy (store : SQLADataSource) (batches : List (List Event)) :
    batches.foldl applyMany (sqlalchemy store)
      = sqlalchemy (batches.foldl SQLADataSource.applyMany store) := by
  induction batches generalizing store with
  | nil => rfl
  | cons batch batches ih => exact ih (store.applyMany batch)

/-- What is held after several batches is what is held after one. -/
theorem held_foldl_applyMany (s : WritableDataSource) (batches : List (List Event)) (r : String) :
    (batches.foldl applyMany s).held r = (s.applyMany batches.flatten).held r := by
  cases s with
  | memory store => rw [foldl_applyMany_memory]; rfl
  | sqlalchemy store =>
    rw [foldl_applyMany_sqlalchemy]
    show (batches.foldl SQLADataSource.applyMany store).held r
      = (store.applyMany batches.flatten).held r
    rw [SQLADataSource.held_foldl_applyMany, SQLADataSource.held_applyMany]

/-- Every page is made of the events held for the run. -/
theorem eventsSince_eq (s : WritableDataSource) (r : String) (since : ℤ) {limit : ℤ}
    (hlimit : 1 ≤ limit) :
    s.eventsSince r since limit = .ok (eventPage (sortedBySeq (s.held r)) since limit) := by
  cases s with
  | memory store => exact MemoryDataSource.eventsSince_eq store r since hlimit
  | sqlalchemy store => exact SQLADataSource.eventsSince_eq store r since hlimit

/-! ### Listing -/

variable {s : WritableDataSource} {filter : FlowFilter}

theorem mem_listed {f : FlowSnapshot} :
    f ∈ s.listed filter ↔ s.getFlow f.runId = some f ∧ filter.admits f.state f.bookId = true := by
  cases s with
  | memory store => exact mem_sortFlows.trans MemoryDataSource.mem_matching
  | sqlalchemy store => exact mem_sortFlows.trans SQLADataSource.mem_matching

theorem sortedBy_listed : SortedBy listKey (s.listed filter) := by
  cases s with
  | memory store => exact store.sortedBy_matching filter
  | sqlalchemy store => exact store.sortedBy_matching filter

/-- A flow is kept under its own id. -/
theorem runId_getFlow {r : String} {f : FlowSnapshot} (h : s.getFlow r = some f) : f.runId = r := by
  cases s with
  | memory store =>
    obtain ⟨run, hrun, rfl⟩ := Option.map_eq_some_iff.mp h
    exact (store.kept r run hrun).runId_flow
  | sqlalchemy store => exact SQLADataSource.runId_getFlow f h

theorem listFlows_none {limit : ℤ} (hlimit : 1 ≤ limit) :
    s.listFlows filter limit none = .ok (pageOf limit.toNat (s.listed filter)) := by
  cases s with
  | memory store => exact store.listFlows_none filter hlimit
  | sqlalchemy store => exact store.listFlows_none filter hlimit

/-- After a flow that is listed. -/
theorem listFlows_some {limit : ℤ} (hlimit : 1 ≤ limit) {f : FlowSnapshot}
    (hf : f ∈ s.listed filter) :
    s.listFlows filter limit (some f.runId)
      = .ok (pageOf limit.toNat (after listKey (listKey f) (s.listed filter))) := by
  obtain ⟨hget, hadmits⟩ := mem_listed.mp hf
  cases s with
  | memory store => exact MemoryDataSource.listFlows_some hlimit hget hadmits
  | sqlalchemy store => exact SQLADataSource.listFlows_some filter hlimit hget

theorem listFlows_unknown {limit : ℤ} (hlimit : 1 ≤ limit) {m : String} (h : s.getFlow m = none) :
    s.listFlows filter limit (some m) = .error (unknownMarker m) := by
  cases s with
  | memory store =>
    refine MemoryDataSource.listFlows_unknown hlimit fun f hf => ?_
    have hnone : store.getFlow m = none := h
    rw [hnone] at hf
    simp at hf
  | sqlalchemy store => exact SQLADataSource.listFlows_unknown filter hlimit h

/-- **A page after a marker** is made of what has keys above those of the flow that the
marker names, as it is now. -/
theorem listFlows_eq_ok {limit : ℤ} (hlimit : 1 ≤ limit) {m : String} {page : FlowPage}
    (h : s.listFlows filter limit (some m) = .ok page) :
    ∃ f, s.getFlow m = some f
      ∧ page = pageOf limit.toNat (after listKey (listKey f) (s.listed filter)) := by
  cases hf : s.getFlow m with
  | none =>
    rw [listFlows_unknown hlimit hf] at h
    simp at h
  | some f =>
    refine ⟨f, rfl, ?_⟩
    obtain rfl := runId_getFlow hf
    by_cases hadmits : filter.admits f.state f.bookId = true
    · rw [listFlows_some hlimit (mem_listed.mpr ⟨hf, hadmits⟩)] at h
      exact (Except.ok.inj h).symm
    · cases s with
      | memory store =>
        -- a flow that the filter no longer admits is no marker to this store
        have hunknown : (memory store).listFlows filter limit (some f.runId) = _ :=
          MemoryDataSource.listFlows_unknown hlimit fun g hg => by
            obtain rfl := Option.some.inj (hf.symm.trans hg)
            simpa using hadmits
        rw [hunknown] at h
        simp at h
      | sqlalchemy store =>
        have hsome : (sqlalchemy store).listFlows filter limit (some f.runId) = _ :=
          SQLADataSource.listFlows_some filter hlimit hf
        rw [hsome] at h
        exact (Except.ok.inj h).symm

end WritableDataSource

end TaskflowMeter
