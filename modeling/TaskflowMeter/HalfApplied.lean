import TaskflowMeter.Datasource.Writable
import TaskflowMeter.RoundTripLaws

/-!
# A poll that is half applied

A store applies the events of a poll one by one, and a reader may look in between.  The flow's own
event comes last when the flow has finished, and first otherwise.

## Main definitions

* `ShowsFlow` — a stored flow shows what a snapshot shows.
* `AtomsShown` — every atom of a snapshot is stored with its state, progress and details.
* `WritableDataSource.applyEach` — events applied one by one.

## Main results

* `half_applied` — **a reader who looks between two events never sees the finish state just reached
  while an atom is still as it was before**, and sees any other new state from the first event on.
* `WritableDataSource.atomsShown_of_finished` — so it is in either store.
-/

namespace TaskflowMeter

open LastWrite

/-- A stored flow shows what a snapshot shows. -/
structure ShowsFlow (f s : FlowSnapshot) : Prop where
  state : f.state = s.state
  atoms : ∀ name, Option.Rel Shows (f.atoms.get? name) (s.atoms.get? name)

theorem ShowsFlow.refl (s : FlowSnapshot) : ShowsFlow s s where
  state := rfl
  atoms name := by
    cases s.atoms.get? name with
    | none => exact .none
    | some a => exact .some ⟨rfl, rfl, rfl⟩

/-- Every atom of a snapshot is stored with its state, progress and details. -/
def AtomsShown (f new : FlowSnapshot) : Prop :=
  ∀ name current, new.atoms.get? name = some current →
    ∃ a, f.atoms.get? name = some a ∧ Shows a current

/-! ### The events of a poll, stamped -/

theorem exists_stampAll_concat (runId : String) (stamp : ℚ) (allocator : SequenceAllocator)
    (es : List Event) (e : Event) :
    ∃ x, (stampAll runId stamp allocator (es ++ [e])).1
      = (stampAll runId stamp allocator es).1 ++ [x] := by
  induction es generalizing allocator with
  | nil => exact ⟨_, rfl⟩
  | cons e' es ih =>
    obtain ⟨x, hx⟩ := ih (allocator.allocate runId).2
    exact ⟨x, by simp [stampAll, hx]⟩

/-- A stamped event says what it said before. -/
theorem sayState_of_mem_stampAll {runId : String} {stamp : ℚ} {allocator : SequenceAllocator}
    {es : List Event} {v : Option (Option String)} (h : ∀ e ∈ es, sayState e = v) {e : Event}
    (he : e ∈ (stampAll runId stamp allocator es).1) : sayState e = v := by
  have hmem : e.unstamped ∈ es.map Event.unstamped := by
    rw [← unstamped_stampAll runId stamp allocator es]
    exact List.mem_map_of_mem he
  obtain ⟨x, hx, heq⟩ := List.mem_map.mp hmem
  rw [← sayState_unstamped, ← heq, sayState_unstamped, h x hx]

theorem sayState_atomEvents {old : Option FlowSnapshot} {new : FlowSnapshot} :
    ∀ e ∈ atomEvents old new, sayState e = none := by
  intro e he
  rcases (kind_of_mem_atomEvents he).1 with hk | hk <;> simp [sayState, hk]

/-- A new state has one event. -/
theorem flowEvents_eq {old : Option FlowSnapshot} {new : FlowSnapshot}
    (h : ∀ o ∈ old, o.state ≠ new.state) :
    ∃ e, flowEvents old new = [e] ∧ sayState e = some new.state := by
  have hnot : ¬ old.any (fun o => o.state = new.state) = true := by
    cases old with
    | none => simp
    | some o => simpa using h o rfl
  rw [flowEvents, if_neg hnot]
  exact ⟨_, rfl, rfl⟩

/-- Events that say nothing of the flow's state leave it alone. -/
theorem state_applyEvents_of_silent {stored : Option FlowSnapshot} {es : List Event}
    (h : ∀ e ∈ es, sayState e = none) :
    ∀ f ∈ applyEvents stored es, f.state = stored.bind (·.state) := by
  have hsilent : lastSaid sayState es = none := by
    rw [lastSaid, List.filterMap_eq_nil_iff.mpr h]
    rfl
  intro f hf
  cases stored with
  | some g =>
    rw [applyEvents_some, Option.mem_some_iff] at hf
    rw [← hf, state_foldl, hsilent]
    rfl
  | none =>
    cases es with
    | nil => cases hf
    | cons e es =>
      rw [applyEvents_none_cons, Option.mem_some_iff] at hf
      rw [← hf, state_foldl, hsilent]
      rfl

/-! ### After some of them -/

section

variable {stored old : Option FlowSnapshot} {new : FlowSnapshot} {runId : String} {stamp : ℚ}
  {allocator : SequenceAllocator} {seen : List Event}

/-- After all of them every atom is shown. -/
theorem atomsShown_of_all (hkeyed : new.Keyed) (hstored : InStep ShowsFlow stored old)
    {f : FlowSnapshot}
    (hf : applyEvents stored (stampAll runId stamp allocator (diffEvents old new)).1 = some f) :
    AtomsShown f new := by
  set events := (stampAll runId stamp allocator (diffEvents old new)).1 with hevents
  have hne : stored = none → events ≠ [] := by
    rintro rfl hnil
    cases hstored
    have hlength := length_stampAll runId stamp allocator (diffEvents none new)
    rw [← hevents, hnil] at hlength
    exact diffEvents_none_ne_nil new (List.length_eq_zero_iff.mp hlength.symm)
  rw [applyEvents_eq hne] at hf
  obtain rfl := Option.some.inj hf
  have hbase : ∀ name, Option.Rel Shows ((foldBase stored events).atoms.get? name)
      (old.bind fun o => o.atoms.get? name) := by
    intro name
    cases hstored with
    | fresh =>
      have hatoms : (foldBase none events).atoms = ∅ := by cases events <;> rfl
      rw [hatoms]
      exact .none
    | seen h => exact h.atoms name
  intro name current hcurrent
  rw [get?_atoms_foldl, hevents, foldl_ofAtom_stampAll, filter_ofAtom_diffEvents hkeyed, hcurrent]
  exact shows_foldl_atomChange (hbase name) new current name

/-- **The finish state is shown last.** -/
theorem atomsShown_of_finished (hkeyed : new.Keyed) (hstored : InStep ShowsFlow stored old)
    (hchanged : ∀ o ∈ old, o.state ≠ new.state) (hfinished : new.isFinished)
    (hseen : seen <+: (stampAll runId stamp allocator (diffEvents old new)).1) {f : FlowSnapshot}
    (hf : applyEvents stored seen = some f) (hstate : f.state = new.state) : AtomsShown f new := by
  obtain ⟨e, hflow, -⟩ := flowEvents_eq hchanged
  have hdiff : diffEvents old new = atomEvents old new ++ [e] := by
    rw [diffEvents, if_pos hfinished, hflow]
  obtain ⟨x, hlast⟩ := exists_stampAll_concat runId stamp allocator (atomEvents old new) e
  rw [hdiff, hlast] at hseen
  rcases List.prefix_concat_iff.mp hseen with hall | hatoms
  · rw [← hlast, ← hdiff] at hall
    rw [hall] at hf
    exact atomsShown_of_all hkeyed hstored hf
  · -- until then the flow is in the state it was stored in
    have hbefore := state_applyEvents_of_silent
      (fun x hx => sayState_of_mem_stampAll sayState_atomEvents (hatoms.subset hx)) f hf
    rw [hstate] at hbefore
    cases hstored with
    | fresh =>
      rw [FlowSnapshot.isFinished, hbefore] at hfinished
      cases hfinished
    | seen h => exact absurd (h.state.symm.trans hbefore.symm) (hchanged _ rfl)

/-- **Any other state is shown first.** -/
theorem state_of_not_finished (hchanged : ∀ o ∈ old, o.state ≠ new.state)
    (hfinished : ¬ new.isFinished)
    (hseen : seen <+: (stampAll runId stamp allocator (diffEvents old new)).1) (hne : seen ≠ []) :
    ∃ f, applyEvents stored seen = some f ∧ f.state = new.state := by
  obtain ⟨e, hflow, hsays⟩ := flowEvents_eq hchanged
  rw [diffEvents, if_neg hfinished, hflow, List.singleton_append, stampAll] at hseen
  obtain ⟨x, rest, rfl⟩ := List.exists_cons_of_ne_nil hne
  obtain ⟨rfl, hrest⟩ := List.cons_prefix_cons.mp hseen
  have hsilent : rest.filterMap sayState = [] :=
    List.filterMap_eq_nil_iff.mpr fun y hy =>
      sayState_of_mem_stampAll sayState_atomEvents (hrest.subset hy)
  have hfirst : sayState { e with seq := (allocator.allocate runId).1, ts := stamp }
      = some new.state :=
    hsays
  refine ⟨_, applyEvents_eq (by simp), ?_⟩
  rw [state_foldl, lastSaid, List.filterMap_cons_some hfirst, hsilent]
  rfl

end

/-- Within one run a diff is what has changed, stamped. -/
theorem eq_stampAll_of_diffFlow {old : Option FlowSnapshot} {new : FlowSnapshot}
    {allocator allocator' : SequenceAllocator} {ts : Option ℚ} {events : List Event}
    (h : diffFlow old new allocator ts = .ok (events, allocator')) :
    events = (stampAll new.runId (ts.getD new.observedAt) allocator (diffEvents old new)).1 := by
  rw [diffFlow] at h
  split at h
  · cases h
  · exact (congrArg Prod.fst (Except.ok.inj h)).symm

/-! ### In a store -/

namespace WritableDataSource

/-- Events that are applied one by one. -/
def applyEach (s : WritableDataSource) (events : List Event) : WritableDataSource :=
  events.foldl (fun s e => s.applyMany [e]) s

theorem getFlow_applyEach {s : WritableDataSource} {n : ℕ} {r : String} {es : List Event}
    (h : s.Roomy n es) (hes : ∀ e ∈ es, e.runId = r) :
    (s.applyEach es).getFlow r = applyEvents (s.getFlow r) es := by
  induction es generalizing s with
  | nil => rfl
  | cons e es ih =>
    have hfirst : s.Roomy n ([e] ++ es) := h
    have hstep := ih hfirst.applyMany fun x hx => hes x (List.mem_cons_of_mem e hx)
    have hrun : [e].filter (fun x => x.runId = r) = [e] := by simp [hes e (by simp)]
    rw [applyEach, List.foldl_cons]
    rw [applyEach] at hstep
    rw [hstep, getFlow_applyMany hfirst.of_append_left, hrun]
    rfl

/-- **What a reader of a store sees** between two events of a poll. -/
theorem atomsShown_of_finished {s : WritableDataSource} {n : ℕ} {old : Option FlowSnapshot}
    {new : FlowSnapshot} {allocator allocator' : SequenceAllocator} {ts : Option ℚ}
    {events seen : List Event} (hdiff : diffFlow old new allocator ts = .ok (events, allocator'))
    (hkeyed : new.Keyed) (hstored : InStep ShowsFlow (s.getFlow new.runId) old)
    (hchanged : ∀ o ∈ old, o.state ≠ new.state) (hfinished : new.isFinished)
    (hseen : seen <+: events) (hroomy : s.Roomy n seen) {f : FlowSnapshot}
    (hf : (s.applyEach seen).getFlow new.runId = some f) (hstate : f.state = new.state) :
    AtomsShown f new := by
  obtain rfl := eq_stampAll_of_diffFlow hdiff
  have hrun : ∀ e ∈ seen, e.runId = new.runId := fun e he =>
    runId_of_mem_stampAll (fun x => runId_of_mem_diffEvents) e (hseen.subset he)
  rw [getFlow_applyEach hroomy hrun] at hf
  exact TaskflowMeter.atomsShown_of_finished hkeyed hstored hchanged hfinished hseen hf hstate

end WritableDataSource

/-- **A reader who looks between two events never sees the finish state just reached while an atom
is still as it was before**; a state that is no finish state is seen from the first event on. -/
theorem half_applied {stored old : Option FlowSnapshot} {new : FlowSnapshot}
    {allocator allocator' : SequenceAllocator} {ts : Option ℚ} {events : List Event}
    (hdiff : diffFlow old new allocator ts = .ok (events, allocator')) (hkeyed : new.Keyed)
    (hchanged : ∀ o ∈ old, o.state ≠ new.state) (hstored : InStep ShowsFlow stored old)
    {seen : List Event} (hseen : seen <+: events) :
    (new.isFinished → ∀ f ∈ applyEvents stored seen, f.state = new.state → AtomsShown f new)
      ∧ (¬ new.isFinished → seen ≠ [] → ∃ f ∈ applyEvents stored seen, f.state = new.state) := by
  obtain rfl := eq_stampAll_of_diffFlow hdiff
  exact ⟨fun hfinished f hf => atomsShown_of_finished hkeyed hstored hchanged hfinished hseen hf,
    fun hfinished hne => state_of_not_finished hchanged hfinished hseen hne⟩

/-- A flow of two tasks, one of which tells how far it is. -/
def twoTasksAt (state : String) (progress : ℚ) : FlowSnapshot where
  runId := "r"
  state := some state
  atoms := ((∅ : Dict String AtomSnapshot).set "a" { name := "a", state := some state }).set "b"
    { name := "b", state := some state, progress := progress }

/-- Both tasks succeed, and then the flow: after the first of the events it is still running, and
after all of them it has succeeded, as have both tasks. -/
theorem half_applied_twoTasks :
    ∃ events allocator f,
      diffFlow (some (twoTasksAt "RUNNING" 0)) (twoTasksAt "SUCCESS" 1) {} none
          = .ok (events, allocator)
        ∧ events.length = 4
        ∧ (applyEvents (some (twoTasksAt "RUNNING" 0)) (events.take 1)).map
            FlowSnapshot.state = some (some "RUNNING")
        ∧ applyEvents (some (twoTasksAt "RUNNING" 0)) events = some f
        ∧ f.state = some "SUCCESS" ∧ AtomsShown f (twoTasksAt "SUCCESS" 1) := by
  have hstep : InStep ShowsFlow (some (twoTasksAt "RUNNING" 0))
      (some (twoTasksAt "RUNNING" 0)) := .seen (.refl _)
  refine ⟨_, _, _, rfl, rfl, rfl, applyEvents_some _ _, rfl, ?_⟩
  exact (@half_applied _ (some (twoTasksAt "RUNNING" 0)) _ {} _ none _ rfl (by decide)
    (by simp [twoTasksAt]) hstep _ (List.prefix_refl _)).1 (by decide) _ (applyEvents_some _ _) rfl

end TaskflowMeter
