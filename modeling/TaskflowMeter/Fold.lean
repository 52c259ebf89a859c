import TaskflowMeter.Diff
import TaskflowMeter.Lib.LastWrite

/-!
# Folding events back into a snapshot

## Main definitions

* `flowFromEvent` — seed a run from the first event seen for it.
* `fold`, `foldAtom` — a snapshot updated by an event.
* `applyEvents` — what a store holds of a run after a list of its events.
* `contiguousFrom` — the unbroken run of events starting at a number.

## Main results

* `get?_atoms_foldl` — **an atom after a fold** depends only on that atom's own
  events, in their order.
* `state_foldl`, `name_foldl`, `observedAt_foldl` — the flow's own fields.
-/

namespace TaskflowMeter

open LastWrite

/-- `None` stays `None`; anything else becomes its text. -/
def optionalStr (value : Json) : Option String :=
  if value = .null then none else some value.pyStr

/-- Seed a run from the first event seen for it. -/
def flowFromEvent (event : Event) : FlowSnapshot where
  runId := event.runId
  name := (event.details.getD "flow_name" (.str "")).pyStr
  bookId := event.bookId
  bookName := optionalStr (event.detail "book_name")
  observedAt := event.ts

/-- An atom updated by an event about it. -/
def foldAtom (atom : Option AtomSnapshot) (event : Event) (name : String) : AtomSnapshot :=
  let atom := atom.getD { name := name }
  -- what an event leaves out is kept as it was
  let atom := { atom with
    uuid := event.atomUuid.or atom.uuid
    atomType := event.atomType.getD atom.atomType
    intention := event.intention.or atom.intention
    progress := event.progress.getD atom.progress }
  match event.kind with
  | .atomState =>
      let failure := event.detail "failure"
      let revertFailure := event.detail "revert_failure"
      { atom with
        state := event.state
        failure := if failure ≠ .null then failure else atom.failure
        revertFailure := if revertFailure ≠ .null then revertFailure else atom.revertFailure
        hasResult := (event.detail "has_result").truthy || atom.hasResult }
  | .atomProgress => { atom with progressDetails := event.detail "progress_details" }
  | _ => atom

/-- A flow updated by an event.  An atom event without a name is only logged. -/
def fold (flow : FlowSnapshot) (event : Event) : FlowSnapshot :=
  let flow := { flow with observedAt := max flow.observedAt event.ts }
  match event.kind with
  | .flowState =>
      let name := ((optionalStr (event.detail "flow_name")).filter (· ≠ "")).getD flow.name
      { flow with state := event.state, name := name }
  | .atomState | .atomProgress =>
      match event.atomName with
      | none => flow
      | some name =>
          { flow with atoms := flow.atoms.set name (foldAtom (flow.atoms.get? name) event name) }
  | _ => flow

/-- What a store holds of a run after one more event: the first one seeds the run. -/
def applyEvent (stored : Option FlowSnapshot) (event : Event) : Option FlowSnapshot :=
  some (fold (stored.getD (flowFromEvent event)) event)

/-- What a store holds of a run after a list of its events. -/
def applyEvents (stored : Option FlowSnapshot) (events : List Event) : Option FlowSnapshot :=
  events.foldl applyEvent stored

/-- The loop of `contiguousFrom`: the events left, the number expected next, and
what has been taken. -/
def contiguousLoop (limit : ℤ) : List Event → ℤ → List Event → List Event
  | [], _, taken => taken
  | event :: events, expected, taken =>
      if event.seq < expected then contiguousLoop limit events expected taken
      else if event.seq ≠ expected then taken
      else
        let taken := taken ++ [event]
        if limit ≤ taken.length then taken
        else contiguousLoop limit events (expected + 1) taken

/-- Take the unbroken run of events starting at `expected`. -/
def contiguousFrom (events : List Event) (expected limit : ℤ) : List Event :=
  contiguousLoop limit events expected []

/-! ### The fields of a fold -/

@[simp] theorem runId_fold (f : FlowSnapshot) (e : Event) : (fold f e).runId = f.runId := by
  unfold fold; cases e.kind <;> simp <;> split <;> rfl

@[simp] theorem bookId_fold (f : FlowSnapshot) (e : Event) : (fold f e).bookId = f.bookId := by
  unfold fold; cases e.kind <;> simp <;> split <;> rfl

@[simp] theorem bookName_fold (f : FlowSnapshot) (e : Event) :
    (fold f e).bookName = f.bookName := by
  unfold fold; cases e.kind <;> simp <;> split <;> rfl

@[simp] theorem meta_fold (f : FlowSnapshot) (e : Event) : (fold f e).«meta» = f.«meta» := by
  unfold fold; cases e.kind <;> simp <;> split <;> rfl

@[simp] theorem observedAt_fold (f : FlowSnapshot) (e : Event) :
    (fold f e).observedAt = max f.observedAt e.ts := by
  unfold fold; cases e.kind <;> simp <;> split <;> rfl

/-- What an event says of the flow's state. -/
def sayState (event : Event) : Option (Option String) :=
  if event.kind = .flowState then some event.state else none

/-- What an event says of the flow's name: an empty name says nothing. -/
def sayName (event : Event) : Option String :=
  if event.kind = .flowState then (optionalStr (event.detail "flow_name")).filter (· ≠ "")
  else none

theorem state_fold (f : FlowSnapshot) (e : Event) :
    (fold f e).state = (sayState e).getD f.state := by
  unfold fold sayState; cases e.kind <;> simp <;> split <;> rfl

theorem name_fold (f : FlowSnapshot) (e : Event) :
    (fold f e).name = (sayName e).getD f.name := by
  unfold fold sayName; cases e.kind <;> simp <;> split <;> rfl

/-- Whether an event is about the atom `name`. -/
def ofAtom (name : String) (event : Event) : Bool :=
  (event.kind = .atomState ∨ event.kind = .atomProgress) ∧ event.atomName = some name

theorem get?_atoms_fold (f : FlowSnapshot) (e : Event) (name : String) :
    (fold f e).atoms.get? name
      = if ofAtom name e then some (foldAtom (f.atoms.get? name) e name)
        else f.atoms.get? name := by
  have hset : ∀ a, (f.atoms.set a (foldAtom (f.atoms.get? a) e a)).get? name
      = if a = name then some (foldAtom (f.atoms.get? name) e name) else f.atoms.get? name := by
    intro a
    rw [Dict.get?_set]
    by_cases h : a = name
    · subst h; simp
    · rw [if_neg h, if_neg (Ne.symm h)]
  unfold fold ofAtom
  cases e.kind <;> simp <;> cases e.atomName <;> simp [hset]

/-! ### A whole list of events -/

@[simp] theorem runId_foldl (f : FlowSnapshot) (es : List Event) :
    (es.foldl fold f).runId = f.runId := by
  induction es generalizing f with
  | nil => rfl
  | cons e es ih => rw [List.foldl_cons, ih, runId_fold]

@[simp] theorem bookId_foldl (f : FlowSnapshot) (es : List Event) :
    (es.foldl fold f).bookId = f.bookId := by
  induction es generalizing f with
  | nil => rfl
  | cons e es ih => rw [List.foldl_cons, ih, bookId_fold]

@[simp] theorem bookName_foldl (f : FlowSnapshot) (es : List Event) :
    (es.foldl fold f).bookName = f.bookName := by
  induction es generalizing f with
  | nil => rfl
  | cons e es ih => rw [List.foldl_cons, ih, bookName_fold]

@[simp] theorem meta_foldl (f : FlowSnapshot) (es : List Event) :
    (es.foldl fold f).«meta» = f.«meta» := by
  induction es generalizing f with
  | nil => rfl
  | cons e es ih => rw [List.foldl_cons, ih, meta_fold]

/-- The flow's state is what the last flow-state event said. -/
theorem state_foldl (f : FlowSnapshot) (es : List Event) :
    (es.foldl fold f).state = (lastSaid sayState es).getD f.state :=
  get_foldl state_fold f es

/-- The flow's name is the last nonempty one a flow-state event carried. -/
theorem name_foldl (f : FlowSnapshot) (es : List Event) :
    (es.foldl fold f).name = (lastSaid sayName es).getD f.name :=
  get_foldl name_fold f es

/-- The flow was observed when the latest of its events was. -/
theorem observedAt_foldl (f : FlowSnapshot) (es : List Event) :
    (es.foldl fold f).observedAt = es.foldl (fun t e => max t e.ts) f.observedAt := by
  induction es generalizing f with
  | nil => rfl
  | cons e es ih => rw [List.foldl_cons, ih, observedAt_fold, List.foldl_cons]

/-- Folding never takes a flow back in time. -/
theorem observedAt_le_foldl (f : FlowSnapshot) (es : List Event) :
    f.observedAt ≤ (es.foldl fold f).observedAt := by
  induction es generalizing f with
  | nil => exact le_rfl
  | cons e es ih =>
    have hstep : f.observedAt ≤ (fold f e).observedAt := by
      rw [observedAt_fold]
      exact le_max_left _ _
    exact hstep.trans (ih (fold f e))

/-- An atom updated by one of its events, whether or not it was known. -/
def foldAtom? (name : String) (atom : Option AtomSnapshot) (event : Event) : Option AtomSnapshot :=
  some (foldAtom atom event name)

/-- **An atom after a fold**: only its own events count, in their order. -/
theorem get?_atoms_foldl (f : FlowSnapshot) (es : List Event) (name : String) :
    (es.foldl fold f).atoms.get? name
      = (es.filter (ofAtom name)).foldl (foldAtom? name) (f.atoms.get? name) := by
  induction es generalizing f with
  | nil => rfl
  | cons e es ih =>
    rw [List.foldl_cons, ih, get?_atoms_fold, List.filter_cons]
    by_cases h : ofAtom name e
    · rw [if_pos h, if_pos h, List.foldl_cons]; rfl
    · rw [if_neg h, if_neg h]

theorem applyEvents_some (f : FlowSnapshot) (es : List Event) :
    applyEvents (some f) es = some (es.foldl fold f) := by
  induction es generalizing f with
  | nil => rfl
  | cons e es ih => rw [applyEvents, List.foldl_cons, applyEvent]; exact ih _

theorem applyEvents_none_cons (e : Event) (es : List Event) :
    applyEvents none (e :: es) = some ((e :: es).foldl fold (flowFromEvent e)) := by
  rw [applyEvents, List.foldl_cons, applyEvent, List.foldl_cons]
  exact applyEvents_some _ _

/-- What a store holds of a run is about that run. -/
theorem runId_applyEvents {stored : Option FlowSnapshot} {runId : String} {es : List Event}
    (hstored : ∀ f ∈ stored, f.runId = runId) (hes : ∀ e ∈ es, e.runId = runId) :
    ∀ f ∈ applyEvents stored es, f.runId = runId := by
  intro f hf
  cases stored with
  | some g =>
    rw [applyEvents_some, Option.mem_some_iff] at hf
    rw [← hf, runId_foldl]
    exact hstored g rfl
  | none =>
    cases es with
    | nil => simp [applyEvents] at hf
    | cons e es =>
      rw [applyEvents_none_cons, Option.mem_some_iff] at hf
      rw [← hf, runId_foldl]
      exact hes e List.mem_cons_self

theorem applyEvents_ne_none (stored : Option FlowSnapshot) {es : List Event} (h : es ≠ []) :
    ∃ f, applyEvents stored es = some f := by
  obtain ⟨e, es, rfl⟩ := List.exists_cons_of_ne_nil h
  cases stored with
  | some f => exact ⟨_, applyEvents_some f _⟩
  | none => exact ⟨_, applyEvents_none_cons e es⟩

/-! ### The number and the time of an event do not matter to a fold -/

theorem sayState_unstamped (e : Event) : sayState e.unstamped = sayState e := rfl

theorem sayName_unstamped (e : Event) : sayName e.unstamped = sayName e := rfl

/-- A register that ignores stamps reads the same from stamped events. -/
theorem lastSaid_stampAll {β : Type} {say : Event → Option β}
    (hsay : ∀ e : Event, say e.unstamped = say e) (runId : String) (stamp : ℚ)
    (allocator : SequenceAllocator) (es : List Event) :
    lastSaid say (stampAll runId stamp allocator es).1 = lastSaid say es := by
  have hmap : ∀ l : List Event, l.filterMap say = (l.map Event.unstamped).filterMap say := by
    intro l
    rw [List.filterMap_map]
    exact List.filterMap_congr fun e _ => (hsay e).symm
  rw [lastSaid, hmap, unstamped_stampAll, ← hmap, lastSaid]

/-- So does an atom. -/
theorem foldl_ofAtom_stampAll (name : String) (a : Option AtomSnapshot) (runId : String)
    (stamp : ℚ) (allocator : SequenceAllocator) (es : List Event) :
    ((stampAll runId stamp allocator es).1.filter (ofAtom name)).foldl (foldAtom? name) a
      = (es.filter (ofAtom name)).foldl (foldAtom? name) a := by
  have hmap : ∀ l : List Event, (l.filter (ofAtom name)).foldl (foldAtom? name) a
      = ((l.map Event.unstamped).filter (ofAtom name)).foldl (foldAtom? name) a := by
    intro l
    rw [List.filter_map, List.foldl_map]
    rfl
  rw [hmap, unstamped_stampAll, ← hmap]

end TaskflowMeter
