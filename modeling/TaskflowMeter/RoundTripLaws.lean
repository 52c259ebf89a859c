import TaskflowMeter.RoundTrip

/-!
# What a fold of diffs reproduces

## Main definitions

* `Observed` — an atom as a poll's own events describe it: state, progress, details.
* `SameFields` — two atoms agree on the fields that only ride along on events.
* `Carried` — the changes of those fields that an event of the poll carries.

## Main results

* `storedAfter_reproduces` — **the store reproduces every snapshot's state, its atom
  names, and each atom's state, progress and details.**
* `storedAfter_sameFields_iff` — it reproduces the other fields after every poll
  exactly when every poll carries the changes it sees.
-/

namespace TaskflowMeter

open LastWrite

/-! ### One atom -/

/-- What a state event says of an atom's failure: only a new one is sent. -/
theorem detail_failure_atomStateEvent (new : FlowSnapshot) (before : Option AtomSnapshot)
    (current : AtomSnapshot) :
    (atomStateEvent new before current).detail "failure"
      = if before.all (fun b => b.failure != current.failure) then current.failure else .null := by
  unfold atomStateEvent newEvent Event.detail
  by_cases h : current.failure = .null <;> simp only [h] <;> split_ifs <;>
    simp_all [Dict.getD, Dict.get?_set]

theorem detail_revertFailure_atomStateEvent (new : FlowSnapshot) (before : Option AtomSnapshot)
    (current : AtomSnapshot) :
    (atomStateEvent new before current).detail "revert_failure"
      = if before.all (fun b => b.revertFailure != current.revertFailure)
        then current.revertFailure else .null := by
  unfold atomStateEvent newEvent Event.detail
  by_cases h : current.revertFailure = .null <;> simp only [h] <;> split_ifs <;>
    simp_all [Dict.getD, Dict.get?_set]

theorem detail_hasResult_atomStateEvent (new : FlowSnapshot) (before : Option AtomSnapshot)
    (current : AtomSnapshot) :
    ((atomStateEvent new before current).detail "has_result").truthy = current.hasResult := by
  unfold atomStateEvent newEvent Event.detail
  cases current.hasResult <;> split_ifs <;> simp_all [Dict.getD, Dict.get?_set, Json.truthy]

theorem detail_progressDetails_atomProgressEvent (new : FlowSnapshot) (current : AtomSnapshot) :
    (atomProgressEvent new current).detail "progress_details" = current.progressDetails := by
  unfold atomProgressEvent newEvent Event.detail
  by_cases h : current.progressDetails = .null <;> simp_all [Dict.getD]

/-- An atom after its state event. -/
theorem foldAtom_atomStateEvent (a : Option AtomSnapshot) (new : FlowSnapshot)
    (before : Option AtomSnapshot) (current : AtomSnapshot) (name : String) :
    foldAtom a (atomStateEvent new before current) name
      = { a.getD { name := name } with
          uuid := current.uuid.or (a.getD { name := name }).uuid
          atomType := current.atomType
          intention := current.intention.or (a.getD { name := name }).intention
          progress := current.progress
          state := current.state
          failure :=
            if before.all (fun b => b.failure != current.failure) ∧ current.failure ≠ .null
            then current.failure else (a.getD { name := name }).failure
          revertFailure :=
            if before.all (fun b => b.revertFailure != current.revertFailure)
              ∧ current.revertFailure ≠ .null
            then current.revertFailure else (a.getD { name := name }).revertFailure
          hasResult := current.hasResult || (a.getD { name := name }).hasResult } := by
  have hkind : (atomStateEvent new before current).kind = .atomState := rfl
  unfold foldAtom
  rw [hkind]
  simp only [detail_failure_atomStateEvent, detail_revertFailure_atomStateEvent,
    detail_hasResult_atomStateEvent]
  -- a detail that is left out is one that folds to nothing
  congr 1
  · by_cases h : before.all (fun b => b.failure != current.failure) = true <;> simp [h]
  · by_cases h : before.all (fun b => b.revertFailure != current.revertFailure) = true <;> simp [h]

/-- An atom after its progress event. -/
theorem foldAtom_atomProgressEvent (a : Option AtomSnapshot) (new : FlowSnapshot)
    (current : AtomSnapshot) (name : String) :
    foldAtom a (atomProgressEvent new current) name
      = { a.getD { name := name } with
          uuid := current.uuid.or (a.getD { name := name }).uuid
          atomType := current.atomType
          intention := current.intention.or (a.getD { name := name }).intention
          progress := current.progress
          progressDetails := current.progressDetails } := by
  have hkind : (atomProgressEvent new current).kind = .atomProgress := rfl
  unfold foldAtom
  rw [hkind]
  simp only [detail_progressDetails_atomProgressEvent]
  rfl

/-- An atom as a poll's own events describe it. -/
structure Observed (a b : AtomSnapshot) : Prop where
  name : a.name = b.name
  state : a.state = b.state
  progress : a.progress = b.progress
  progressDetails : a.progressDetails = b.progressDetails

/-- Two atoms agree on the fields that only ride along on state and progress events. -/
@[mk_iff]
structure SameFields (a b : AtomSnapshot) : Prop where
  uuid : a.uuid = b.uuid
  atomType : a.atomType = b.atomType
  intention : a.intention = b.intention
  failure : a.failure = b.failure
  revertFailure : a.revertFailure = b.revertFailure
  hasResult : a.hasResult = b.hasResult

/-- Whether a poll reports an atom at all. -/
def reported (before current : AtomSnapshot) : Bool :=
  stateChanged (some before) current || progressChanged (some before) current

/-- Each change of a riding-along field is carried by an event of the same poll:
the atom is reported, and for the failures and the result its state has changed;
and only a change to a set value is carried. -/
@[mk_iff]
structure CarriedAtom (before current : AtomSnapshot) : Prop where
  uuid : before.uuid = current.uuid ∨ (current.uuid ≠ none ∧ reported before current)
  atomType : before.atomType = current.atomType ∨ reported before current
  intention : before.intention = current.intention
    ∨ (current.intention ≠ none ∧ reported before current)
  failure : before.failure = current.failure
    ∨ (current.failure ≠ .null ∧ before.state ≠ current.state)
  revertFailure : before.revertFailure = current.revertFailure
    ∨ (current.revertFailure ≠ .null ∧ before.state ≠ current.state)
  hasResult : before.hasResult = current.hasResult
    ∨ (current.hasResult = true ∧ before.state ≠ current.state)

/-- An atom after its events of a poll, whatever was stored of it. -/
theorem foldl_atomChange (a before : Option AtomSnapshot) (new : FlowSnapshot)
    (current : AtomSnapshot) (name : String) :
    (atomChange new before current).foldl (foldAtom? name) a
      = match stateChanged before current, progressChanged before current with
        | true, true => some (foldAtom (some (foldAtom a (atomStateEvent new before current) name))
            (atomProgressEvent new current) name)
        | true, false => some (foldAtom a (atomStateEvent new before current) name)
        | false, true => some (foldAtom a (atomProgressEvent new current) name)
        | false, false => a := by
  rw [atomChange]
  cases stateChanged before current <;> cases progressChanged before current <;> rfl

/-- Two atoms show the same state, progress and progress details. -/
structure Shows (a b : AtomSnapshot) : Prop where
  state : a.state = b.state
  progress : a.progress = b.progress
  progressDetails : a.progressDetails = b.progressDetails

theorem Observed.shows {a b : AtomSnapshot} (h : Observed a b) : Shows a b :=
  ⟨h.state, h.progress, h.progressDetails⟩

/-- An atom that shows what was observed before shows, after its events of a poll, what is now. -/
theorem shows_foldl_atomChange {a before : Option AtomSnapshot} (h : Option.Rel Shows a before)
    (new : FlowSnapshot) (current : AtomSnapshot) (name : String) :
    ∃ a', (atomChange new before current).foldl (foldAtom? name) a = some a'
      ∧ Shows a' current := by
  rw [foldl_atomChange]
  simp only [foldAtom_atomStateEvent, foldAtom_atomProgressEvent]
  cases h with
  | none =>
    -- a new atom always has a state event; one without progress needs no other
    cases hp : progressChanged none current with
    | true => exact ⟨_, rfl, rfl, rfl, rfl⟩
    | false =>
      simp only [progressChanged, Bool.or_eq_false_iff, bne_eq_false_iff_eq] at hp
      exact ⟨_, rfl, rfl, rfl, by simp [hp.2]⟩
  | @some x b hxb =>
    cases hs : stateChanged (some b) current <;> cases hp : progressChanged (some b) current <;>
      simp only [stateChanged, progressChanged, Option.all_some, bne_eq_false_iff_eq,
        Bool.or_eq_false_iff] at hs hp
    · exact ⟨x, rfl, hxb.state.trans hs, hxb.progress.trans hp.1, hxb.progressDetails.trans hp.2⟩
    · exact ⟨_, rfl, hxb.state.trans hs, rfl, rfl⟩
    · exact ⟨_, rfl, rfl, rfl, hxb.progressDetails.trans hp.2⟩
    · exact ⟨_, rfl, rfl, rfl, rfl⟩

/-- An event never renames an atom. -/
theorem name_foldAtom_option (a : Option AtomSnapshot) (e : Event) (name : String) :
    (foldAtom a e name).name = (a.map (·.name)).getD name := by
  unfold foldAtom
  cases a <;> cases e.kind <;> rfl

theorem name_foldl_foldAtom? {a : Option AtomSnapshot} {name : String} {es : List Event}
    {a' : AtomSnapshot} (h : es.foldl (foldAtom? name) a = some a') :
    a'.name = (a.map (·.name)).getD name := by
  induction es generalizing a with
  | nil =>
    rw [List.foldl_nil] at h
    rw [h]
    rfl
  | cons e es ih =>
    rw [ih h]
    exact name_foldAtom_option a e name

/-- **One atom, one poll**: the store follows its state, progress and details. -/
theorem observed_foldl_atomChange {a before : Option AtomSnapshot}
    (h : Option.Rel Observed a before)
    (new : FlowSnapshot) (current : AtomSnapshot) (name : String) (hname : current.name = name)
    (hbefore : ∀ b ∈ before, b.name = name) :
    ∃ a', (atomChange new before current).foldl (foldAtom? name) a = some a'
      ∧ Observed a' current := by
  have hshows : Option.Rel Shows a before := by
    cases h with
    | none => exact .none
    | some hxb => exact .some hxb.shows
  obtain ⟨a', ha', hstate, hprogress, hdetails⟩ := shows_foldl_atomChange hshows new current name
  refine ⟨a', ha', ?_, hstate, hprogress, hdetails⟩
  rw [name_foldl_foldAtom? ha', hname]
  cases h with
  | none => rfl
  | some hxb => exact hxb.name.trans (hbefore _ rfl)

/-- A new atom's fields all arrive with its first event. -/
theorem sameFields_foldl_atomChange_none (new : FlowSnapshot) (current : AtomSnapshot)
    (name : String) :
    ∃ a', (atomChange new none current).foldl (foldAtom? name) none = some a'
      ∧ SameFields a' current := by
  rw [foldl_atomChange]
  simp only [stateChanged, Option.all_none, foldAtom_atomStateEvent, foldAtom_atomProgressEvent]
  cases progressChanged none current <;>
    refine ⟨_, rfl, ?_, rfl, ?_, ?_, ?_, ?_⟩ <;> simp <;> intro h <;> exact h.symm

theorem or_eq_left_iff {α : Type} {o p : Option α} : o.or p = o ↔ p = o ∨ o ≠ none := by
  cases o <;> simp

/-- **One known atom, one poll**: the store keeps its other fields in step exactly
when the poll carries their changes. -/
theorem sameFields_foldl_atomChange_some {x b : AtomSnapshot} (h : SameFields x b)
    (new : FlowSnapshot) (current : AtomSnapshot) (name : String) :
    ∃ a', (atomChange new (some b) current).foldl (foldAtom? name) (some x) = some a'
      ∧ (SameFields a' current ↔ CarriedAtom b current) := by
  have hrep : reported b current
      = (stateChanged (some b) current || progressChanged (some b) current) := rfl
  rw [foldl_atomChange]
  simp only [foldAtom_atomStateEvent, foldAtom_atomProgressEvent]
  cases hs : stateChanged (some b) current <;> cases hp : progressChanged (some b) current <;>
    rw [hs, hp] at hrep <;>
    simp only [stateChanged, Option.all_some, bne_eq_false_iff_eq, bne_iff_ne] at hs <;>
    refine ⟨_, rfl, ?_⟩ <;> rw [sameFields_iff, carriedAtom_iff]
  · -- nothing is reported: the fields must not have changed
    simp [hrep, hs, h.uuid, h.atomType, h.intention, h.failure, h.revertFailure, h.hasResult]
  · -- only progress is: the failures and the result are not carried
    simp [hrep, hs, h.uuid, h.intention, h.failure, h.revertFailure, h.hasResult, or_eq_left_iff]
  · -- the state has changed: every change to a set value is carried
    simp only [Option.getD_some, or_eq_left_iff, h.uuid, h.intention, h.failure, h.revertFailure,
      h.hasResult, hrep]
    grind
  · simp only [Option.getD_some, or_eq_left_iff, h.uuid, h.intention, h.failure, h.revertFailure,
      h.hasResult, hrep]
    grind

/-! ### A whole run: state, progress and details -/

/-- A stored flow reproduces what a snapshot says of the flow's state and of each
atom's name, state, progress and details. -/
structure ReproducesObserved (f s : FlowSnapshot) : Prop where
  state : f.state = s.state
  atoms : ∀ name, Option.Rel Observed (f.atoms.get? name) (s.atoms.get? name)

theorem rel_cases {α β : Type} {r : α → β → Prop} {o : Option α} {p : Option β}
    (h : Option.Rel r o p) :
    (o = none ∧ p = none) ∨ ∃ x y, o = some x ∧ p = some y ∧ r x y := by
  cases h with
  | none => exact Or.inl ⟨rfl, rfl⟩
  | some hxy => exact Or.inr ⟨_, _, rfl, rfl, hxy⟩

/-- What a store holds of a run, next to the snapshot seen last. -/
inductive InStep (P : FlowSnapshot → FlowSnapshot → Prop) :
    Option FlowSnapshot → Option FlowSnapshot → Prop
  | fresh : InStep P none none
  | seen {f s : FlowSnapshot} (h : P f s) : InStep P (some f) (some s)

theorem atoms_foldBase_none (old : FlowSnapshot) (a : SequenceAllocator) :
    (foldBase none (pollEvents none old a)).atoms = ∅ := by
  cases h : pollEvents none old a <;> rfl

/-- **One poll**: the store follows the new snapshot. -/
theorem reproducesObserved_poll {stored old : Option FlowSnapshot} {new : FlowSnapshot}
    (h : InStep ReproducesObserved stored old) (hold : ∀ o ∈ old, o.Keyed) (hkeyed : new.Keyed)
    (hpersists : ∀ o ∈ old, ∀ name ∈ o.atoms.keys, name ∈ new.atoms.keys) (a : SequenceAllocator) :
    ∃ f, applyEvents stored (pollEvents old new a) = some f ∧ ReproducesObserved f new := by
  have hne : stored = none → pollEvents old new a ≠ [] := by
    rintro rfl
    cases h
    exact pollEvents_none_ne_nil new a
  refine ⟨_, applyEvents_eq hne, ?_, ?_⟩
  · -- the poll has at most one event that says a state
    rw [state_foldl, pollEvents, lastSaid_stampAll sayState_unstamped,
      lastSaid_sayState_diffEvents]
    cases h with
    | fresh => rfl
    | @seen f s h =>
      by_cases hs : s.state = new.state
      · simp [hs, foldBase, h.state]
      · simp [hs]
  · intro name
    rw [get?_atoms_foldl_pollEvents hkeyed]
    have hrel : Option.Rel Observed ((foldBase stored (pollEvents old new a)).atoms.get? name)
        (old.bind fun o => o.atoms.get? name) := by
      cases h with
      | fresh => rw [atoms_foldBase_none]; exact Option.Rel.none
      | seen h => exact h.atoms name
    cases hc : new.atoms.get? name with
    | none =>
      -- an atom that is not in the new snapshot was never there
      have hnone : (old.bind fun o => o.atoms.get? name) = none := by
        cases old with
        | none => rfl
        | some o =>
          rw [Option.bind_some, Dict.get?_eq_none_iff]
          intro hmem
          exact Dict.get?_eq_none_iff.mp hc (hpersists o rfl name hmem)
      rw [hnone] at hrel
      exact hrel
    | some current =>
      have hbefore : ∀ b ∈ old.bind fun o => o.atoms.get? name, b.name = name := by
        intro b hb
        obtain ⟨o, ho, hb⟩ := Option.mem_bind_iff.mp hb
        exact hold o ho name b hb
      obtain ⟨a', ha', hobs⟩ := observed_foldl_atomChange hrel new current name
        (hkeyed name current hc) hbefore
      simp only [Option.map_some, Option.getD_some]
      rw [ha']
      exact Option.Rel.some hobs

/-- What the store holds after each poll is in step with the snapshot seen last. -/
theorem inStep_storedAfter {runId : String} {l : List FlowSnapshot} (allocator : SequenceAllocator)
    (h : Timeline runId l) : InStep ReproducesObserved (storedAfter allocator l) l.getLast? := by
  induction l using List.reverseRecOn with
  | nil => exact InStep.fresh
  | append_singleton l s ih =>
    obtain ⟨a, ha⟩ := storedAfter_concat allocator h.ofRun
    have hold : ∀ o ∈ l.getLast?, o.Keyed := fun o ho =>
      h.keyed o (List.mem_append_left _ (List.mem_of_getLast? ho))
    obtain ⟨f, hf, hrep⟩ := reproducesObserved_poll (ih h.of_append_left) hold
      (h.keyed s (by simp)) h.persists_last a
    rw [ha, hf, List.getLast?_concat]
    exact InStep.seen hrep

/-- After every poll of a run the store holds a flow that reproduces the snapshot. -/
theorem storedAfter_observed {runId : String} {l : List FlowSnapshot} {s : FlowSnapshot}
    (h : Timeline runId (l ++ [s])) (allocator : SequenceAllocator) :
    ∃ f, storedAfter allocator (l ++ [s]) = some f ∧ ReproducesObserved f s := by
  have hstep := inStep_storedAfter allocator h
  rw [List.getLast?_concat] at hstep
  generalize storedAfter allocator (l ++ [s]) = st at hstep ⊢
  cases hstep with
  | @seen f _ hrep => exact ⟨f, rfl, hrep⟩

/-- An atom's name, state, progress and details. -/
def observed (a : AtomSnapshot) : String × Option String × ℚ × Json :=
  (a.name, a.state, a.progress, a.progressDetails)

theorem ReproducesObserved.completion {f s : FlowSnapshot} (h : ReproducesObserved f s) :
    f.completion = s.completion := by
  refine FlowSnapshot.completion_congr fun name => ?_
  rcases rel_cases (h.atoms name) with ⟨ha, hb⟩ | ⟨x, y, ha, hb, hxy⟩ <;> rw [ha, hb]
  exact congrArg some (AtomSnapshot.completion_congr hxy.state hxy.progress)

theorem ReproducesObserved.mem_keys {f s : FlowSnapshot} (h : ReproducesObserved f s)
    (name : String) : name ∈ f.atoms.keys ↔ name ∈ s.atoms.keys := by
  rw [Dict.mem_keys_iff_isSome, Dict.mem_keys_iff_isSome]
  rcases rel_cases (h.atoms name) with ⟨ha, hb⟩ | ⟨x, y, ha, hb, -⟩ <;> simp [ha, hb]

theorem ReproducesObserved.runningAtoms {f s : FlowSnapshot} (h : ReproducesObserved f s) :
    f.runningAtoms.map observed = s.runningAtoms.map observed := by
  rw [FlowSnapshot.runningAtoms, FlowSnapshot.runningAtoms, FlowSnapshot.atomNames_congr h.mem_keys,
    List.map_filterMap, List.map_filterMap]
  refine List.filterMap_congr fun name _ => ?_
  rcases rel_cases (h.atoms name) with ⟨ha, hb⟩ | ⟨x, y, ha, hb, hxy⟩
  · rw [ha, hb]
  · have hobs : observed x = observed y := by
      rw [observed, observed, hxy.name, hxy.state, hxy.progress, hxy.progressDetails]
    rw [ha, hb, Option.filter_some, Option.filter_some, AtomSnapshot.isRunning_congr hxy.state]
    split
    · exact congrArg some hobs
    · rfl

/-- **The store reproduces every snapshot** as far as its state, its atom names and
each atom's state, progress and details go, after every poll of a run. -/
theorem storedAfter_reproduces {runId : String} {snapshots : List FlowSnapshot}
    (h : Timeline runId snapshots) (allocator : SequenceAllocator) (l : List FlowSnapshot)
    (s : FlowSnapshot) (post : List FlowSnapshot) (hsplit : snapshots = l ++ s :: post) :
    ∃ f, storedAfter allocator (l ++ [s]) = some f
      ∧ f.state = s.state
      ∧ (∀ name, name ∈ f.atoms.keys ↔ name ∈ s.atoms.keys)
      ∧ (∀ name a b, f.atoms.get? name = some a → s.atoms.get? name = some b →
          a.state = b.state ∧ a.progress = b.progress ∧ a.progressDetails = b.progressDetails)
      ∧ f.completion = s.completion
      ∧ f.isFinished = s.isFinished
      ∧ f.runningAtoms.map observed = s.runningAtoms.map observed := by
  have hpre : Timeline runId (l ++ [s]) := h.upTo hsplit
  obtain ⟨f, hf, hrep⟩ := storedAfter_observed hpre allocator
  refine ⟨f, hf, hrep.state, hrep.mem_keys, ?_, hrep.completion,
    FlowSnapshot.isFinished_congr hrep.state, hrep.runningAtoms⟩
  intro name a b ha hb
  have hab := hrep.atoms name
  rw [ha, hb] at hab
  cases hab with
  | some hab => exact ⟨hab.state, hab.progress, hab.progressDetails⟩

/-- A running atom whose backend metadata is not empty, as taskflow's own storage
leaves it once a task has reported progress. -/
def runningWithMeta : FlowSnapshot where
  runId := "run-1"
  state := some States.RUNNING
  atoms := (∅ : Dict String AtomSnapshot).set "a"
    { name := "a"
      state := some States.RUNNING
      «meta» := (∅ : Dict String Json).set "progress" (.num 0) }

/-- The same run once the task has succeeded. -/
def succeeded : FlowSnapshot where
  runId := "run-1"
  state := some States.SUCCESS
  atoms := (∅ : Dict String AtomSnapshot).set "a"
    { name := "a", state := some States.SUCCESS, progress := 1, hasResult := true }

/-- The running atoms themselves are not reproduced: no event carries `meta`. -/
theorem runningAtoms_not_reproduced :
    Timeline "run-1" [runningWithMeta] ∧
      (storedAfter {} [runningWithMeta]).map FlowSnapshot.runningAtoms
        ≠ some runningWithMeta.runningAtoms := by decide

/-- The law at a task that starts and then succeeds. -/
theorem storedAfter_reproduces_success :
    ∃ f, storedAfter {} ([runningWithMeta] ++ [succeeded]) = some f ∧ f.state = succeeded.state
      ∧ f.completion = 1 := by
  have hrun : Timeline "run-1" [runningWithMeta, succeeded] := by decide
  obtain ⟨f, hf, hstate, -, -, hcompletion, -⟩ :=
    storedAfter_reproduces hrun {} [runningWithMeta] succeeded [] rfl
  exact ⟨f, hf, hstate, by rw [hcompletion]; decide +kernel⟩

/-! ### A whole run: the other fields -/

/-- Every atom that was there before has its changes carried. -/
def Carried (old new : FlowSnapshot) : Prop :=
  ∀ name before current, old.atoms.get? name = some before →
    new.atoms.get? name = some current → CarriedAtom before current

/-- A stored flow has exactly a snapshot's atoms, with the same riding-along fields. -/
def ReproducesFields (f s : FlowSnapshot) : Prop :=
  ∀ name, Option.Rel SameFields (f.atoms.get? name) (s.atoms.get? name)

/-- **One poll**: the store keeps the riding-along fields in step exactly when the
poll carries their changes. -/
theorem reproducesFields_poll {stored old : Option FlowSnapshot} {new : FlowSnapshot}
    (h : InStep ReproducesFields stored old) (hkeyed : new.Keyed)
    (hpersists : ∀ o ∈ old, ∀ name ∈ o.atoms.keys, name ∈ new.atoms.keys) (a : SequenceAllocator) :
    ∃ f, applyEvents stored (pollEvents old new a) = some f
      ∧ (ReproducesFields f new ↔ ∀ o ∈ old, Carried o new) := by
  have hne : stored = none → pollEvents old new a ≠ [] := by
    rintro rfl
    cases h
    exact pollEvents_none_ne_nil new a
  refine ⟨_, applyEvents_eq hne, ?_⟩
  -- the law for one atom name; the laws for all names together are the statement
  have hatom : ∀ name, Option.Rel SameFields
      (((pollEvents old new a).foldl fold (foldBase stored (pollEvents old new a))).atoms.get? name)
      (new.atoms.get? name) ↔ ∀ o ∈ old, ∀ before current, o.atoms.get? name = some before →
        new.atoms.get? name = some current → CarriedAtom before current := by
    intro name
    rw [get?_atoms_foldl_pollEvents hkeyed]
    cases h with
    | fresh =>
      rw [atoms_foldBase_none]
      cases hc : new.atoms.get? name with
      | none => simp
      | some current =>
        obtain ⟨a', ha', hsame⟩ := sameFields_foldl_atomChange_none new current name
        simp only [Option.map_some, Option.getD_some, Option.bind_none, Dict.get?_empty]
        rw [ha']
        simpa using Option.Rel.some hsame
    | @seen f o h =>
      show Option.Rel SameFields (List.foldl _ (f.atoms.get? name) _) _ ↔ _
      simp only [Option.mem_def, Option.some.injEq, forall_eq', Option.bind_some]
      cases hc : new.atoms.get? name with
      | none =>
        have ho : o.atoms.get? name = none := by
          rw [Dict.get?_eq_none_iff]
          intro hmem
          exact Dict.get?_eq_none_iff.mp hc (hpersists o rfl name hmem)
        have hrel := h name
        rw [ho] at hrel
        simpa using hrel
      | some current =>
        simp only [Option.map_some, Option.getD_some]
        rcases rel_cases (h name) with ⟨hf, ho⟩ | ⟨x, b, hf, ho, hxb⟩
        · obtain ⟨a', ha', hsame⟩ := sameFields_foldl_atomChange_none new current name
          rw [hf, ho, ha']
          simpa using Option.Rel.some hsame
        · obtain ⟨a', ha', hiff⟩ := sameFields_foldl_atomChange_some hxb new current name
          rw [hf, ho, ha']
          simpa using hiff
  constructor
  · intro hall o ho name before current hb hc
    exact (hatom name).mp (hall name) o ho before current hb hc
  · intro hcar name
    exact (hatom name).mpr fun o ho before current hb hc => hcar o ho name before current hb hc

/-- What the store holds after each poll has the fields of the snapshot seen last, as
long as every poll has carried the changes it saw. -/
theorem inStep_fields {runId : String} {l : List FlowSnapshot} (allocator : SequenceAllocator)
    (h : Timeline runId l)
    (hcar : ∀ pre old new post, l = pre ++ old :: new :: post → Carried old new) :
    InStep ReproducesFields (storedAfter allocator l) l.getLast? := by
  induction l using List.reverseRecOn with
  | nil => exact InStep.fresh
  | append_singleton l s ih =>
    have hstep := ih h.of_append_left fun pre old new post heq =>
      hcar pre old new (post ++ [s]) (by rw [heq]; simp)
    obtain ⟨a, ha⟩ := storedAfter_concat allocator h.ofRun
    obtain ⟨f, hf, hiff⟩ := reproducesFields_poll hstep (h.keyed s (by simp)) (h.persists_last) a
    rw [ha, hf, List.getLast?_concat]
    refine InStep.seen (hiff.mpr fun o ho => ?_)
    obtain ⟨pre, hpre⟩ := List.getLast?_eq_some_iff.mp ho
    exact hcar pre o s [] (by rw [hpre]; simp)

/-- Where the stored atoms are the snapshot's, it is enough to look at the snapshot's. -/
theorem reproducesFields_iff {f s : FlowSnapshot} (h : ReproducesObserved f s) :
    ReproducesFields f s ↔ ∀ name b, s.atoms.get? name = some b →
      ∃ a, f.atoms.get? name = some a ∧ SameFields a b := by
  constructor
  · intro hrep name b hb
    rcases rel_cases (hrep name) with ⟨-, hnone⟩ | ⟨x, y, hx, hy, hxy⟩
    · rw [hb] at hnone; simp at hnone
    · rw [hb, Option.some.injEq] at hy
      exact ⟨x, hx, hy ▸ hxy⟩
  · intro hall name
    rcases rel_cases (h.atoms name) with ⟨hx, hy⟩ | ⟨x, y, hx, hy, -⟩
    · rw [hx, hy]; exact Option.Rel.none
    · obtain ⟨a, ha, hay⟩ := hall name y hy
      rw [ha, hy]
      exact Option.Rel.some hay

/-- **The store reproduces the riding-along fields after every poll of a run exactly
when every poll carries the changes it sees.** -/
theorem storedAfter_sameFields_iff {runId : String} {snapshots : List FlowSnapshot}
    (h : Timeline runId snapshots) (allocator : SequenceAllocator) :
    (∀ l s post, snapshots = l ++ s :: post →
      ∃ f, storedAfter allocator (l ++ [s]) = some f
        ∧ ∀ name b, s.atoms.get? name = some b →
            ∃ a, f.atoms.get? name = some a ∧ SameFields a b)
      ↔ ∀ l old new post, snapshots = l ++ old :: new :: post → Carried old new := by
  constructor
  · intro hall l old new post hsplit
    have hsplit' : snapshots = (l ++ [old]) ++ new :: post := by rw [hsplit]; simp
    have hrun : Timeline runId ((l ++ [old]) ++ [new]) := h.upTo hsplit'
    -- both polls are reproduced, so the second carried its changes
    obtain ⟨f, hf, hfields⟩ := hall l old (new :: post) hsplit
    obtain ⟨f', hf', hfields'⟩ := hall (l ++ [old]) new post hsplit'
    obtain ⟨g, hg, hobs⟩ := storedAfter_observed hrun.of_append_left allocator
    obtain ⟨g', hg', hobs'⟩ := storedAfter_observed hrun allocator
    obtain rfl : f = g := Option.some.inj (hf.symm.trans hg)
    obtain rfl : f' = g' := Option.some.inj (hf'.symm.trans hg')
    obtain ⟨a, ha⟩ := storedAfter_concat allocator hrun.ofRun
    have hlast : (l ++ [old]).getLast? = some old := List.getLast?_concat
    obtain ⟨f₁, hf₁, hiff⟩ := reproducesFields_poll
      (InStep.seen ((reproducesFields_iff hobs).mpr hfields)) (hrun.keyed new (by simp))
      (hlast ▸ hrun.persists_last) a
    rw [hf, hlast, hf₁, hf', Option.some.injEq] at ha
    subst ha
    exact hiff.mp ((reproducesFields_iff hobs').mpr hfields') old rfl
  · intro hcar l s post hsplit
    have hpre : Timeline runId (l ++ [s]) := h.upTo hsplit
    have hstep := inStep_fields allocator hpre fun pre old new post' heq =>
      hcar pre old new (post' ++ post) (by
        rw [hsplit, ← List.singleton_append, ← List.append_assoc, heq]
        simp)
    obtain ⟨f, hf, hobs⟩ := storedAfter_observed hpre allocator
    rw [hf, List.getLast?_concat] at hstep
    cases hstep with
    | seen hrep => exact ⟨f, hf, (reproducesFields_iff hobs).mp hrep⟩

/-- A task that has failed. -/
def failed : FlowSnapshot where
  runId := "run-1"
  state := some States.RUNNING
  atoms := (∅ : Dict String AtomSnapshot).set "a"
    { name := "a"
      state := some States.FAILURE
      failure := .obj [("exception_str", .str "boom")] }

/-- The same task once its retry has reset it: pending again, without a failure. -/
def retried : FlowSnapshot where
  runId := "run-1"
  state := some States.RUNNING
  atoms := (∅ : Dict String AtomSnapshot).set "a" { name := "a", state := some States.PENDING }

/-- A failure that a retry clears stays in the store. -/
theorem cleared_failure_not_reproduced :
    Timeline "run-1" [failed, retried] ∧
      ((storedAfter {} [failed, retried]).bind fun f => (f.atoms.get? "a").map (·.failure))
        ≠ (retried.atoms.get? "a").map (·.failure) := by decide

/-- The law at that run: the second poll does not carry the change it sees. -/
theorem storedAfter_sameFields_retried :
    ¬∀ l s post, [failed, retried] = l ++ s :: post →
      ∃ f, storedAfter {} (l ++ [s]) = some f
        ∧ ∀ name b, s.atoms.get? name = some b →
            ∃ a, f.atoms.get? name = some a ∧ SameFields a b := by
  intro hall
  have hrun : Timeline "run-1" [failed, retried] := by decide
  have hcar := (storedAfter_sameFields_iff hrun {}).mp hall [] failed retried [] rfl
  have hfailure := (hcar "a" _ _ rfl rfl).failure
  revert hfailure
  decide

end TaskflowMeter
