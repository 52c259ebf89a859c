import TaskflowMeter.Datasource.Writable
import TaskflowMeter.Redelivery

/-!
# The order of the events of a run

A flow and its atoms are reported by different threads, so that their events may
reach a store in an order other than the one they were numbered in.

## Main definitions

* `SameSnapshot` — two snapshots are the same, with their atoms as a mapping.
* `FlowSaidAlike` — two lists of events say the same last of each field of a flow.
* `SnapshotOfHighest` — a snapshot says what the highest-numbered events said.
* `LastIsHighest` — the last events to arrive say what the highest-numbered ones say.
* `WritableDataSource.taken` — the events of a new run that leave a trace in a store.

## Main results

* `foldl_fold_perm` — **only the order within the flow, and within each atom, matters**
  to a fold.
* `foldl_fold_eq_foldl_iff` — **two lists of events lead to the same snapshot exactly when they say
  the same of each field.**
* `snapshotOfHighest_foldl_applyMany` — **the snapshot agrees with the numbers exactly when
  the last events to arrive say what the highest-numbered ones say.**
-/

namespace TaskflowMeter

open LastWrite

/-! ### What may be swapped -/

/-- Two snapshots are the same, with their atoms as a mapping. -/
structure SameSnapshot (f g : FlowSnapshot) : Prop where
  runId : f.runId = g.runId
  name : f.name = g.name
  state : f.state = g.state
  bookId : f.bookId = g.bookId
  bookName : f.bookName = g.bookName
  observedAt : f.observedAt = g.observedAt
  «meta» : f.«meta» = g.«meta»
  atoms : ∀ name, f.atoms.get? name = g.atoms.get? name

/-- The latest of the events is the latest in any order. -/
theorem observedAt_foldl_perm {es es' : List Event} (h : es.Perm es') (f : FlowSnapshot) :
    (es.foldl fold f).observedAt = (es'.foldl fold f).observedAt := by
  rw [observedAt_foldl, observedAt_foldl]
  refine h.foldl_eq' ?_ _
  intro e _ e' _ t
  exact max_right_comm t e.ts e'.ts

/-- What is said of the flow depends on its own events only. -/
theorem lastSaid_flowState {β : Type} {say : Event → Option β}
    (hsay : ∀ e, (say e).isSome → e.kind = .flowState) {es es' : List Event}
    (h : es.filter (·.kind = .flowState) = es'.filter (·.kind = .flowState)) :
    lastSaid say es = lastSaid say es' := by
  have hp : ∀ e : Event, (say e).isSome → decide (e.kind = .flowState) = true := fun e he =>
    decide_eq_true (hsay e he)
  rw [← lastSaid_filter hp es, h, lastSaid_filter hp es']

/-- **Only the order within the flow and within each atom matters**: two orders of the
same events that agree on these lead from one snapshot to the same. -/
theorem foldl_fold_perm (f : FlowSnapshot) {es es' : List Event} (hperm : es.Perm es')
    (hflow : es.filter (·.kind = .flowState) = es'.filter (·.kind = .flowState))
    (hatom : ∀ name, es.filter (ofAtom name) = es'.filter (ofAtom name)) :
    SameSnapshot (es.foldl fold f) (es'.foldl fold f) where
  runId := by rw [runId_foldl, runId_foldl]
  bookId := by rw [bookId_foldl, bookId_foldl]
  bookName := by rw [bookName_foldl, bookName_foldl]
  «meta» := by rw [meta_foldl, meta_foldl]
  observedAt := observedAt_foldl_perm hperm f
  state := by
    have hsay : ∀ e, (sayState e).isSome → e.kind = .flowState := by
      intro e he
      by_contra hk
      simp [sayState, hk] at he
    rw [state_foldl, state_foldl, lastSaid_flowState hsay hflow]
  name := by
    have hsay : ∀ e, (sayName e).isSome → e.kind = .flowState := by
      intro e he
      by_contra hk
      simp [sayName, hk] at he
    rw [name_foldl, name_foldl, lastSaid_flowState hsay hflow]
  atoms := by
    intro name
    rw [get?_atoms_foldl, get?_atoms_foldl, hatom name]

/-! ### Two lists of events -/

/-- The atoms that there are after an event: one that was not there comes last. -/
def mention (names : List String) (event : Event) : List String :=
  match event.kind, event.atomName with
  | .atomState, some name | .atomProgress, some name =>
      if name ∈ names then names else names ++ [name]
  | _, _ => names

theorem keys_atoms_foldl (f : FlowSnapshot) (es : List Event) :
    (es.foldl fold f).atoms.keys = es.foldl mention f.atoms.keys := by
  have hstep : ∀ (f : FlowSnapshot) (e : Event),
      (fold f e).atoms.keys = mention f.atoms.keys e := by
    intro f e
    unfold fold mention
    cases e.kind <;> cases e.atomName <;> simp [Dict.keys_set]
  induction es generalizing f with
  | nil => rfl
  | cons e es ih => rw [List.foldl_cons, ih, hstep, List.foldl_cons]

/-- Two lists of events say the same of a flow: what they say last of each of its fields is the
same, the latest of both are equally late, and they bring in the same atoms, of which they say
the same. -/
structure FlowSaidAlike (f : FlowSnapshot) (es es' : List Event) : Prop where
  state : SaidAlike sayState es es' f.state
  name : SaidAlike sayName es es' f.name
  observedAt : es.foldl (fun t e => max t e.ts) f.observedAt
    = es'.foldl (fun t e => max t e.ts) f.observedAt
  names : es.foldl mention f.atoms.keys = es'.foldl mention f.atoms.keys
  atoms : ∀ name, AtomSaidAlike ((f.atoms.get? name).getD { name := name })
    (es.filter (ofAtom name)) (es'.filter (ofAtom name))

/-- An atom that was not there is as if it was there with no field set. -/
theorem foldl_foldAtom?_of_ne_nil (name : String) (a : Option AtomSnapshot) {es : List Event}
    (h : es ≠ []) :
    es.foldl (foldAtom? name) a = es.foldl (foldAtom? name) (some (a.getD { name := name })) := by
  obtain ⟨e, es, rfl⟩ := List.exists_cons_of_ne_nil h
  cases a <;> rfl

theorem foldl_foldAtom?_eq_none_iff (name : String) (es : List Event) :
    es.foldl (foldAtom? name) none = none ↔ es = [] := by
  cases es with
  | nil => simp
  | cons e es =>
    rw [foldl_foldAtom?_of_ne_nil name none (List.cons_ne_nil e es), foldl_foldAtom?_some]
    simp

/-- Two lists of events make the same of what may be an atom. -/
theorem foldl_foldAtom?_eq_foldl_iff (name : String) (a : Option AtomSnapshot)
    (es es' : List Event) :
    es.foldl (foldAtom? name) a = es'.foldl (foldAtom? name) a
      ↔ AtomSaidAlike (a.getD { name := name }) es es' ∧ (a = none → (es = [] ↔ es' = [])) := by
  have hsome : ∀ a : AtomSnapshot, es.foldl (foldAtom? name) (some a)
      = es'.foldl (foldAtom? name) (some a) ↔ AtomSaidAlike a es es' := by
    intro a
    rw [foldl_foldAtom?_some, foldl_foldAtom?_some, Option.some.injEq, foldl_foldAtom_eq_foldl_iff]
  cases a with
  | some a => simpa using hsome a
  | none =>
    rw [← hsome]
    by_cases hes : es = [] <;> by_cases hes' : es' = []
    · simp [hes, hes']
    · subst hes
      rw [List.foldl_nil, eq_comm, foldl_foldAtom?_eq_none_iff]
      simp [hes']
    · subst hes'
      simp [foldl_foldAtom?_eq_none_iff, hes]
    · rw [foldl_foldAtom?_of_ne_nil name none hes, foldl_foldAtom?_of_ne_nil name none hes']
      simp [hes, hes']

/-- **Two lists of events lead to the same snapshot** exactly when they say the same of each
field. -/
theorem foldl_fold_eq_foldl_iff (f : FlowSnapshot) (es es' : List Event) :
    es.foldl fold f = es'.foldl fold f ↔ FlowSaidAlike f es es' := by
  have hatom : ∀ name, (es.foldl fold f).atoms.get? name = (es'.foldl fold f).atoms.get? name
      ↔ AtomSaidAlike ((f.atoms.get? name).getD { name := name })
          (es.filter (ofAtom name)) (es'.filter (ofAtom name))
        ∧ (f.atoms.get? name = none
          → (es.filter (ofAtom name) = [] ↔ es'.filter (ofAtom name) = [])) := by
    intro name
    rw [get?_atoms_foldl, get?_atoms_foldl, foldl_foldAtom?_eq_foldl_iff]
  constructor
  · intro heq
    refine ⟨?_, ?_, ?_, ?_, fun name => ?_⟩
    · rw [← get_foldl_eq_get_foldl_iff state_fold, heq]
    · rw [← get_foldl_eq_get_foldl_iff name_fold, heq]
    · rw [← observedAt_foldl, heq, observedAt_foldl]
    · rw [← keys_atoms_foldl, heq, keys_atoms_foldl]
    · exact ((hatom name).mp (by rw [heq])).1
  · rintro ⟨hstate, hname, hobserved, hnames, hatoms⟩
    rw [← get_foldl_eq_get_foldl_iff state_fold] at hstate
    rw [← get_foldl_eq_get_foldl_iff name_fold] at hname
    rw [← observedAt_foldl, ← observedAt_foldl] at hobserved
    rw [← keys_atoms_foldl, ← keys_atoms_foldl] at hnames
    have hdict : (es.foldl fold f).atoms = (es'.foldl fold f).atoms := by
      refine Dict.ext_get? hnames fun name => (hatom name).mpr ⟨hatoms name, fun hnone => ?_⟩
      -- an atom that was not there is brought in by both or by neither
      have hthere : ∀ es : List Event,
          name ∉ (es.foldl fold f).atoms.keys ↔ es.filter (ofAtom name) = [] := by
        intro es
        rw [← Dict.get?_eq_none_iff, get?_atoms_foldl, hnone, foldl_foldAtom?_eq_none_iff]
      rw [← hthere, ← hthere, hnames]
    have hrun := (runId_foldl f es).trans (runId_foldl f es').symm
    have hbook := (bookId_foldl f es).trans (bookId_foldl f es').symm
    have hbookName := (bookName_foldl f es).trans (bookName_foldl f es').symm
    have hmeta := (meta_foldl f es).trans (meta_foldl f es').symm
    generalize es.foldl fold f = g at *
    generalize es'.foldl fold f = g' at *
    cases g
    cases g'
    simp_all

/-- A task of the flow reports a state. -/
def taskEvent (name : String) (seq : ℤ) (state : String) : Event where
  runId := "run-1"
  seq := seq
  ts := seq
  kind := .atomState
  atomName := some name
  state := some state

/-- Two tasks of a running flow finish, and either may be recorded before the other. -/
theorem parallel_tasks_either_order :
    SameSnapshot
      ([flowEvent 1 States.RUNNING, taskEvent "a" 2 States.SUCCESS, taskEvent "b" 3 States.FAILURE,
        heartbeat 4].foldl fold { runId := "run-1" })
      ([heartbeat 4, taskEvent "b" 3 States.FAILURE, flowEvent 1 States.RUNNING,
        taskEvent "a" 2 States.SUCCESS].foldl fold { runId := "run-1" }) := by
  refine foldl_fold_perm { runId := "run-1" } (by decide) (by decide) ?_
  intro name
  by_cases hb : name = "b"
  · subst hb
    decide
  · simp [List.filter_cons, ofAtom, taskEvent, flowEvent, heartbeat, Ne.symm hb]

/-! ### What may not -/

/-- A snapshot says what the highest-numbered events said: those of the flow, and of
each atom. -/
structure SnapshotOfHighest (flow : Option FlowSnapshot) (events : List Event) : Prop where
  state : ∀ v, HighestSaid Event.seq sayState events v → ∃ f, flow = some f ∧ f.state = v
  atomState : ∀ name v, HighestSaid Event.seq sayAtomState (events.filter (ofAtom name)) v →
    ∃ f a, flow = some f ∧ f.atoms.get? name = some a ∧ a.state = v
  progress : ∀ name v, HighestSaid Event.seq Event.progress (events.filter (ofAtom name)) v →
    ∃ f a, flow = some f ∧ f.atoms.get? name = some a ∧ a.progress = v

/-- Of the events that a store takes in, the last to arrive say what the
highest-numbered of all the events say.  Where none says anything a flow, or an atom, that
has been heard of has no state and no progress. -/
structure LastIsHighest (events taken : List Event) : Prop where
  state : ∀ v, HighestSaid Event.seq sayState events v →
    taken ≠ [] ∧ (lastSaid sayState taken).getD none = v
  atomState : ∀ name v, HighestSaid Event.seq sayAtomState (events.filter (ofAtom name)) v →
    taken.filter (ofAtom name) ≠ []
      ∧ (lastSaid sayAtomState (taken.filter (ofAtom name))).getD none = v
  progress : ∀ name v, HighestSaid Event.seq Event.progress (events.filter (ofAtom name)) v →
    taken.filter (ofAtom name) ≠ []
      ∧ (lastSaid Event.progress (taken.filter (ofAtom name))).getD 0 = v

/-- Events that arrive in the order of their numbers, and are all taken in. -/
theorem lastIsHighest_of_seqStrict {es : List Event} (h : SeqStrict es) : LastIsHighest es es where
  state := by
    intro v hv
    have hlast := lastSaid_of_highestSaid h hv
    obtain ⟨e, he, -⟩ := hv
    exact ⟨List.ne_nil_of_mem he, by rw [hlast]; rfl⟩
  atomState := by
    intro name v hv
    have hlast := lastSaid_of_highestSaid (h.filter _) hv
    obtain ⟨e, he, -⟩ := hv
    exact ⟨List.ne_nil_of_mem he, by rw [hlast]; rfl⟩
  progress := by
    intro name v hv
    have hlast := lastSaid_of_highestSaid (h.filter _) hv
    obtain ⟨e, he, -⟩ := hv
    exact ⟨List.ne_nil_of_mem he, by rw [hlast]; rfl⟩

/-- A new flow has the state that was said last, or none. -/
theorem state_applyEvents_none_iff {es : List Event} {v : Option String} :
    (∃ f, applyEvents none es = some f ∧ f.state = v)
      ↔ es ≠ [] ∧ (lastSaid sayState es).getD none = v := by
  cases es with
  | nil => simp [applyEvents]
  | cons e es =>
    have hstate := state_foldl (flowFromEvent e) (e :: es)
    rw [applyEvents_none_cons]
    constructor
    · rintro ⟨f, hf, rfl⟩
      obtain rfl := Option.some.inj hf
      exact ⟨List.cons_ne_nil e es, hstate.symm⟩
    · rintro ⟨-, hlast⟩
      exact ⟨_, rfl, hstate.trans hlast⟩

/-- The atoms of a new flow are made of their own events. -/
theorem atom_applyEvents_none_iff {es : List Event} {name : String} {p : AtomSnapshot → Prop} :
    (∃ f a, applyEvents none es = some f ∧ f.atoms.get? name = some a ∧ p a)
      ↔ ∃ a, (es.filter (ofAtom name)).foldl (foldAtom? name) none = some a ∧ p a := by
  cases es with
  | nil => simp [applyEvents]
  | cons e es =>
    have hatom : ((e :: es).foldl fold (flowFromEvent e)).atoms.get? name
        = ((e :: es).filter (ofAtom name)).foldl (foldAtom? name) none := get?_atoms_foldl _ _ name
    rw [applyEvents_none_cons, ← hatom]
    constructor
    · rintro ⟨f, a, hf, ha, hp⟩
      obtain rfl := Option.some.inj hf
      exact ⟨a, ha, hp⟩
    · rintro ⟨a, ha, hp⟩
      exact ⟨_, a, rfl, ha, hp⟩

/-- A field of a new atom is what was said of it last, or what the field is at first. -/
theorem get_foldAtom?_none_iff {β : Type} (get : AtomSnapshot → β) {say : Event → Option β}
    {name : String} (hstep : ∀ a e, get (foldAtom (some a) e name) = (say e).getD (get a))
    {es : List Event} {v : β} :
    (∃ a, es.foldl (foldAtom? name) none = some a ∧ get a = v)
      ↔ es ≠ [] ∧ (lastSaid say es).getD (get { name := name }) = v := by
  cases es with
  | nil => simp
  | cons e es =>
    -- the first event finds no atom, which is as if it found an empty one
    have hfirst : (e :: es).foldl (foldAtom? name) none
        = (e :: es).foldl (foldAtom? name) (some { name := name }) := rfl
    rw [hfirst, foldl_foldAtom?_some, ← get_foldl hstep]
    constructor
    · rintro ⟨a, ha, rfl⟩
      obtain rfl := Option.some.inj ha
      exact ⟨List.cons_ne_nil e es, rfl⟩
    · rintro ⟨-, hlast⟩
      exact ⟨_, rfl, hlast⟩

/-- **The fold of what is taken in** says what the highest-numbered events said exactly
when these arrive last. -/
theorem snapshotOfHighest_iff (events taken : List Event) :
    SnapshotOfHighest (applyEvents none taken) events ↔ LastIsHighest events taken := by
  have hatomState : ∀ name v, (∃ f a, applyEvents none taken = some f
      ∧ f.atoms.get? name = some a ∧ a.state = v)
        ↔ taken.filter (ofAtom name) ≠ []
          ∧ (lastSaid sayAtomState (taken.filter (ofAtom name))).getD none = v := fun name v =>
    atom_applyEvents_none_iff.trans
      (get_foldAtom?_none_iff AtomSnapshot.state fun a e => state_foldAtom a e name)
  have hprogress : ∀ name v, (∃ f a, applyEvents none taken = some f
      ∧ f.atoms.get? name = some a ∧ a.progress = v)
        ↔ taken.filter (ofAtom name) ≠ []
          ∧ (lastSaid Event.progress (taken.filter (ofAtom name))).getD 0 = v := fun name v =>
    atom_applyEvents_none_iff.trans
      (get_foldAtom?_none_iff AtomSnapshot.progress fun a e => progress_foldAtom a e name)
  constructor
  · rintro ⟨h, hs, hp⟩
    exact ⟨fun v hv => state_applyEvents_none_iff.mp (h v hv),
      fun name v hv => (hatomState name v).mp (hs name v hv),
      fun name v hv => (hprogress name v).mp (hp name v hv)⟩
  · rintro ⟨h, hs, hp⟩
    exact ⟨fun v hv => state_applyEvents_none_iff.mpr (h v hv),
      fun name v hv => (hatomState name v).mpr (hs name v hv),
      fun name v hv => (hprogress name v).mpr (hp name v hv)⟩

namespace WritableDataSource

/-- The events of a new run that leave a trace: the others are turned away by a full
store. -/
def taken : WritableDataSource → List Event → List Event
  | memory store, events => events.dropWhile fun e => store.TurnsAway e
  | sqlalchemy _, events => events

/-- A new run is the fold of what is taken in of it. -/
theorem getFlow_foldl_applyMany_new {s : WritableDataSource} {r : String}
    (hnew : s.getFlow r = none) {batches : List (List Event)}
    (hrun : ∀ e ∈ batches.flatten, e.runId = r) :
    (batches.foldl applyMany s).getFlow r = applyEvents none (s.taken batches.flatten) := by
  cases s with
  | memory store =>
    rw [foldl_applyMany_memory]
    exact MemoryDataSource.getFlow_applyMany_new hnew hrun
  | sqlalchemy store =>
    rw [foldl_applyMany_sqlalchemy]
    have hall : batches.flatten.filter (·.runId = r) = batches.flatten := ofRun_eq_self hrun
    show (batches.foldl SQLADataSource.applyMany store).getFlow r = applyEvents none batches.flatten
    rw [SQLADataSource.getFlow_foldl_applyMany, hall]
    exact congrArg (applyEvents · _) hnew

/-- **The snapshot agrees with the numbers exactly when, for the flow's state and for each
atom's state and progress, the last event to arrive says what the highest-numbered one
says.** -/
theorem snapshotOfHighest_foldl_applyMany {s : WritableDataSource} {r : String}
    (hnew : s.getFlow r = none) {batches : List (List Event)}
    (hrun : ∀ e ∈ batches.flatten, e.runId = r) :
    SnapshotOfHighest ((batches.foldl applyMany s).getFlow r) batches.flatten
      ↔ LastIsHighest batches.flatten (s.taken batches.flatten) := by
  rw [getFlow_foldl_applyMany_new hnew hrun]
  exact snapshotOfHighest_iff _ _

/-- A flow that has ended is running again once its first event arrives, late. -/
theorem late_event_reopens_flow :
    ¬SnapshotOfHighest
      (([[flowEvent 2 States.SUCCESS], [flowEvent 1 States.RUNNING]].foldl applyMany
        (sqlalchemy {})).getFlow "run-1")
      [flowEvent 2 States.SUCCESS, flowEvent 1 States.RUNNING] := by
  intro h
  obtain ⟨f, hf, hstate⟩ := h.state (some States.SUCCESS)
    ⟨flowEvent 2 States.SUCCESS, List.mem_cons_self, rfl, by decide⟩
  obtain rfl := Option.some.inj (hf.symm.trans rfl)
  revert hstate
  decide

/-- In the order of their numbers the same events leave it ended. -/
theorem events_in_order :
    SnapshotOfHighest
      (([[flowEvent 1 States.RUNNING], [flowEvent 2 States.SUCCESS]].foldl applyMany
        (sqlalchemy {})).getFlow "run-1")
      [flowEvent 1 States.RUNNING, flowEvent 2 States.SUCCESS] := by
  have hnew : (sqlalchemy {}).getFlow "run-1" = none := rfl
  have hrun : ∀ e ∈ [[flowEvent 1 States.RUNNING], [flowEvent 2 States.SUCCESS]].flatten,
      e.runId = "run-1" := by decide
  refine (snapshotOfHighest_foldl_applyMany hnew hrun).mpr (lastIsHighest_of_seqStrict ?_)
  unfold SeqStrict
  decide

end WritableDataSource

end TaskflowMeter
