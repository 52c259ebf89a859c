import TaskflowMeter.Datasource.Memory

/-!
# The limit on the runs of the in-process datasource

A store of at most `max_runs` runs makes room for a new one by dropping the run observed longest
ago.  The new run is in the table by then, with the time of its first event, so it may be the one
to go; its event is then folded into nothing.

## Main definitions

* `Write`, `writeAll` — the calls that write, in any order.
* `WithinLimit` — no more runs than the limit.
* `Applied` — what an event should leave behind.

## Main results

* `withinLimit_writeAll` — the limit is kept in every state.
* `applied_iff` — **an event is lost exactly where its run is new to a full store whose runs were
  all observed later.**
-/

namespace TaskflowMeter

namespace MemoryDataSource

/-- A call that writes. -/
inductive Write
  | apply (event : Event)
  | forget (runId : String)

def write (s : MemoryDataSource) : Write → MemoryDataSource
  | .apply event => s.apply event
  | .forget runId => (s.forget runId).2

def writeAll (s : MemoryDataSource) (writes : List Write) : MemoryDataSource :=
  writes.foldl write s

/-- No more runs than the limit. -/
def WithinLimit (s : MemoryDataSource) : Prop := ∀ m ∈ s.maxRuns, s.runs.values.length ≤ m

/-- The latest event recorded for a run. -/
def latest (s : MemoryDataSource) (runId : String) : Option Event := (s.held runId).getLast?

/-- What an event should leave behind: room is kept, the event is recorded, and a run that went was
the one observed longest ago of those held before. -/
structure Applied (s : MemoryDataSource) (event : Event) : Prop where
  within : (s.apply event).WithinLimit
  recorded : (s.apply event).latest event.runId = some event
  evicted : ∀ runId, runId ∈ s.runs.keys ∨ runId = event.runId → runId ∉ (s.apply event).runs.keys →
    ∃ run, s.runs.get? runId = some run
      ∧ ∀ other ∈ s.runs.values, run.flow.observedAt ≤ other.flow.observedAt

variable {s : MemoryDataSource} {e : Event}

/-! ### The runs after an event -/

theorem withinLimit_iff_card : s.WithinLimit ↔ ∀ m ∈ s.maxRuns, s.runs.keys.toFinset.card ≤ m := by
  rw [WithinLimit, Dict.length_values]

theorem WithinLimit.of_keys_subset {s' : MemoryDataSource} (h : s.WithinLimit)
    (hmax : s'.maxRuns = s.maxRuns) (hsub : s'.runs.keys ⊆ s.runs.keys) : s'.WithinLimit := by
  rw [withinLimit_iff_card] at h ⊢
  intro m hm
  rw [hmax] at hm
  refine (Finset.card_le_card fun r hr => ?_).trans (h m hm)
  exact List.mem_toFinset.mpr (hsub (List.mem_toFinset.mp hr))

theorem runs_apply_of_known {run : Run} (h : s.runs.get? e.runId = some run) :
    (s.apply e).runs = s.runs.set e.runId (run.update e) := by
  show runsAfter s.maxEventsPerRun s.maxRuns s.runs e = _
  rw [runsAfter, h]

theorem keys_apply_of_known {run : Run} (h : s.runs.get? e.runId = some run) :
    (s.apply e).runs.keys = s.runs.keys := by
  rw [runs_apply_of_known h, Dict.keys_set, if_pos (Dict.mem_keys_of_get? h)]

/-- The runs after an event of a new run that stays. -/
theorem mem_keys_apply_of_stays (h : e.runId ∉ s.runs.keys) (hstay : ¬ s.TurnsAway e) :
    ((∀ m ∈ s.maxRuns, s.runs.values.length + 1 ≤ m)
        ∧ ∀ r, r ∈ (s.apply e).runs.keys ↔ r = e.runId ∨ r ∈ s.runs.keys)
      ∨ ∃ v, victim s.runs = some v ∧ s.runs.get? v.flow.runId = some v
        ∧ ∀ r, r ∈ (s.apply e).runs.keys ↔ r = e.runId ∨ r ≠ v.flow.runId ∧ r ∈ s.runs.keys := by
  have hafter := runsAfter_of_stays h hstay rfl
  rcases evictIfNeeded_of_stays h hstay rfl with ⟨hroom, hevict⟩ | ⟨v, hv, hget, hevict⟩
  · refine Or.inl ⟨hroom, fun r => ?_⟩
    rw [hafter, hevict, Dict.mem_keys_set, Dict.mem_keys_set]
    tauto
  · refine Or.inr ⟨v, hv, hget, fun r => ?_⟩
    rw [hafter, hevict, Dict.mem_keys_set, Dict.mem_keys_erase, Dict.mem_keys_set]
    tauto

/-- Applying an event keeps the limit. -/
theorem WithinLimit.apply (h : s.WithinLimit) (e : Event) : (s.apply e).WithinLimit := by
  cases hrun : s.runs.get? e.runId with
  | some run => exact h.of_keys_subset rfl fun r hr => keys_apply_of_known hrun ▸ hr
  | none =>
    have hnew := Dict.get?_eq_none_iff.mp hrun
    by_cases haway : s.TurnsAway e
    · rwa [apply_of_turnsAway hnew haway]
    · rw [withinLimit_iff_card] at h ⊢
      intro m hm
      rcases mem_keys_apply_of_stays hnew haway with ⟨hroom, hkeys⟩ | ⟨v, -, hget, hkeys⟩
      · have hinsert : (s.apply e).runs.keys.toFinset = insert e.runId s.runs.keys.toFinset := by
          ext r
          simp [hkeys]
        rw [hinsert, Finset.card_insert_of_notMem (by simpa using hnew), ← Dict.length_values]
        exact hroom m hm
      · -- one comes and one goes
        have hmem : v.flow.runId ∈ s.runs.keys.toFinset :=
          List.mem_toFinset.mpr (Dict.mem_keys_of_get? hget)
        have hinsert : (s.apply e).runs.keys.toFinset
            = insert e.runId (s.runs.keys.toFinset.erase v.flow.runId) := by
          ext r
          simp [hkeys]
        rw [hinsert, Finset.card_insert_of_notMem (by simp [hnew]), Finset.card_erase_add_one hmem]
        exact h m hm

theorem WithinLimit.write (h : s.WithinLimit) (w : Write) : (s.write w).WithinLimit := by
  cases w with
  | apply event => exact h.apply event
  | forget runId =>
    have hsub : (s.runs.erase runId).keys ⊆ s.runs.keys := fun r hr => (Dict.mem_keys_erase.mp hr).2
    exact h.of_keys_subset rfl hsub

/-- **The limit is kept** in every state that a store can reach. -/
theorem withinLimit_writeAll (h : s.WithinLimit) (writes : List Write) :
    (s.writeAll writes).WithinLimit := by
  induction writes generalizing s with
  | nil => exact h
  | cons w writes ih => exact ih (h.write w)

/-! ### Where an event is kept -/

theorem latest_of_update {run : Run} (hsize : 1 ≤ run.events.maxlen)
    (h : (s.apply e).runs.get? e.runId = some (run.update e)) :
    (s.apply e).latest e.runId = some e := by
  rw [latest, held, h]
  exact Deque.getLast?_append hsize e

theorem applied_of_known {run : Run} (h : s.runs.get? e.runId = some run) (hlimit : s.WithinLimit) :
    s.Applied e := by
  have hsize : 1 ≤ run.events.maxlen := by
    rw [(s.kept e.runId run h).maxlen_events]
    exact s.one_le_maxEventsPerRun
  refine ⟨hlimit.apply e, latest_of_update hsize ?_, ?_⟩
  · rw [runs_apply_of_known h, Dict.get?_set_self]
  · rintro r (hr | rfl) hgone <;> rw [keys_apply_of_known h] at hgone
    · exact absurd hr hgone
    · exact absurd (Dict.mem_keys_of_get? h) hgone

theorem applied_of_stays (h : e.runId ∉ s.runs.keys) (hstay : ¬ s.TurnsAway e)
    (hlimit : s.WithinLimit) : s.Applied e := by
  have hsize : 1 ≤ (Run.new (flowFromEvent e) s.maxEventsPerRun).events.maxlen :=
    s.one_le_maxEventsPerRun
  refine ⟨hlimit.apply e, latest_of_update hsize ?_, fun r hr hgone => ?_⟩
  · rw [runsAfter_of_stays h hstay rfl, Dict.get?_set_self]
  · rcases mem_keys_apply_of_stays h hstay with ⟨-, hkeys⟩ | ⟨v, hv, hget, hkeys⟩
    · exact absurd ((hkeys r).mpr hr.symm) hgone
    · have hvictim : r = v.flow.runId := by
        by_contra hne
        exact hgone ((hkeys r).mpr (hr.symm.imp_right fun hmem => ⟨hne, hmem⟩))
      exact ⟨v, hvictim ▸ hget, fun x hx =>
        List.le_of_mem_argmin (f := fun run : Run => run.flow.observedAt) hx hv⟩

/-- A run that is turned away is not there afterwards. -/
theorem not_applied_of_turnsAway (h : e.runId ∉ s.runs.keys) (haway : s.TurnsAway e) :
    ¬ s.Applied e := by
  intro happlied
  have hrecorded := happlied.recorded
  rw [apply_of_turnsAway h haway, latest, held, Dict.get?_eq_none_iff.mpr h] at hrecorded
  cases hrecorded

end MemoryDataSource

open MemoryDataSource

/-- **An event is kept, and the run observed longest ago goes for it,** exactly where its run is
already held, or there is room, or a run that is held was observed no later. -/
theorem applied_iff {maxEvents m : ℕ} {s : MemoryDataSource}
    (h : MemoryDataSource.init maxEvents (some m) = .ok s) (writes : List Write) (e : Event) :
    (s.writeAll writes).Applied e
      ↔ e.runId ∈ (s.writeAll writes).runs.keys ∨ ¬ (s.writeAll writes).TurnsAway e := by
  obtain ⟨-, -, -, hempty⟩ := init_eq_ok h
  have hstart : s.WithinLimit := by simp [WithinLimit, hempty]
  have hlimit := withinLimit_writeAll hstart writes
  by_cases hknown : e.runId ∈ (s.writeAll writes).runs.keys
  · obtain ⟨run, hrun⟩ := Dict.mem_keys_iff.mp hknown
    simp only [hknown, true_or, iff_true]
    exact applied_of_known hrun hlimit
  · by_cases haway : (s.writeAll writes).TurnsAway e
    · simp only [hknown, haway, not_true, or_self, iff_false]
      exact not_applied_of_turnsAway hknown haway
    · simp only [haway, not_false_eq_true, or_true, iff_true]
      exact applied_of_stays hknown haway hlimit

/-- A later run takes the place of an earlier one. -/
theorem applied_later :
    ∃ s, MemoryDataSource.init 1000 (some 1) = .ok s
      ∧ (s.writeAll [.apply { kind := .flowState, runId := "a", ts := 4, seq := 1 }]).Applied
          { kind := .flowState, runId := "b", ts := 5, seq := 1 } :=
  ⟨_, rfl, (@applied_iff 1000 1 _ rfl _ _).mpr (Or.inr (by decide))⟩

/-- **An earlier run goes at once, and its event with it.** -/
theorem first_event_lost :
    ∃ s, MemoryDataSource.init 1000 (some 1) = .ok s
      ∧ ¬ (s.writeAll [.apply { kind := .flowState, runId := "a", ts := 5, seq := 1 }]).Applied
          { kind := .flowState, runId := "b", ts := 4, seq := 1 } :=
  ⟨_, rfl, not_applied_of_turnsAway (by decide) (by decide)⟩

end TaskflowMeter
