import TaskflowMeter.Events
import TaskflowMeter.Lib.Consecutive

/-!
# A pair of snapshots, as the events that explain the difference

## Main definitions

* `diffFlow` — the events describing `old → new`, numbered by an allocator.
* `diffEvents` — the same events before they are stamped.
* `flowEvents`, `atomEvents`, `progressChanged` — what changed.

## Main results

* `unstamped_stampAll` — stamping changes nothing but `seq` and `ts`.
* `isRun_seq_stampAll` — the numbers follow on from the allocator without a gap.
* `diffEvents_eq_nil` — nothing is reported when nothing visible changed.
-/

namespace TaskflowMeter

/-- Build an event with placeholder `seq` and `ts`. -/
def newEvent (flow : FlowSnapshot) (kind : EventKind) (atom : Option AtomSnapshot := none)
    (state : Option String := none) (oldState : Option String := none)
    (progress : Option ℚ := none) (details : Dict String Json := ∅) : Event where
  runId := flow.runId
  seq := 0
  ts := 0
  kind := kind
  bookId := flow.bookId
  atomName := atom.map (·.name)
  atomUuid := atom.bind (·.uuid)
  atomType := atom.map (·.atomType)
  state := state
  oldState := oldState
  intention := atom.bind (·.intention)
  progress := progress
  details := details

/-- The flow's own event, when its state changed. -/
def flowEvents (old : Option FlowSnapshot) (new : FlowSnapshot) : List Event :=
  if old.any fun o => o.state = new.state then []
  else
    let details : Dict String Json :=
      -- first sight of this run: the identity that later events do not repeat
      if old.isNone then
        let details := (∅ : Dict String Json).set "flow_name" (.str new.name)
        match new.bookName with
        | some bookName => details.set "book_name" (.str bookName)
        | none => details
      else ∅
    [newEvent new .flowState none new.state (old.bind (·.state)) none details]

/-- Whether an atom's progress is worth an event. -/
def progressChanged (before : Option AtomSnapshot) (current : AtomSnapshot) : Bool :=
  match before with
  | none => current.progress != 0 || current.progressDetails != .null
  | some before =>
      before.progress != current.progress || before.progressDetails != current.progressDetails

def atomStateEvent (flow : FlowSnapshot) (before : Option AtomSnapshot) (current : AtomSnapshot) :
    Event :=
  let details : Dict String Json := ∅
  -- a failure is sent when it is new; that it has gone is not
  let details :=
    if current.failure != .null && before.all (fun b => b.failure != current.failure) then
      details.set "failure" current.failure
    else details
  let details :=
    if current.revertFailure != .null
        && before.all (fun b => b.revertFailure != current.revertFailure) then
      details.set "revert_failure" current.revertFailure
    else details
  let details := if current.hasResult then details.set "has_result" (.bool true) else details
  newEvent flow .atomState (some current) current.state (before.bind (·.state))
    (some current.progress) details

def atomProgressEvent (flow : FlowSnapshot) (current : AtomSnapshot) : Event :=
  let details : Dict String Json := ∅
  let details :=
    if current.progressDetails != .null then
      details.set "progress_details" current.progressDetails
    else details
  newEvent flow .atomProgress (some current) current.state none (some current.progress) details

/-- Whether an atom's state is worth an event: it is new, or its state moved. -/
def stateChanged (before : Option AtomSnapshot) (current : AtomSnapshot) : Bool :=
  before.all fun b => b.state != current.state

/-- The events of one atom: its state first, then its progress. -/
def atomChange (new : FlowSnapshot) (before : Option AtomSnapshot) (current : AtomSnapshot) :
    List Event :=
  (if stateChanged before current then [atomStateEvent new before current] else [])
    ++ if progressChanged before current then [atomProgressEvent new current] else []

/-- The events of the atoms, in name order.  A vanished atom is only logged. -/
def atomEvents (old : Option FlowSnapshot) (new : FlowSnapshot) : List Event :=
  new.atomNames.flatMap fun name =>
    ((new.atoms.get? name).map fun current =>
      atomChange new (old.bind fun o => o.atoms.get? name) current).getD []

/-- The events describing `old → new`: the flow's own event comes last when the
flow has reached a finish state, and first otherwise. -/
def diffEvents (old : Option FlowSnapshot) (new : FlowSnapshot) : List Event :=
  if new.isFinished then atomEvents old new ++ flowEvents old new
  else flowEvents old new ++ atomEvents old new

/-- Number the events in emission order and stamp them with a time. -/
def stampAll (runId : String) (stamp : ℚ) :
    SequenceAllocator → List Event → List Event × SequenceAllocator
  | allocator, [] => ([], allocator)
  | allocator, event :: events =>
      let next := allocator.allocate runId
      let rest := stampAll runId stamp next.2 events
      ({ event with seq := next.1, ts := stamp } :: rest.1, rest.2)

/-- The events describing `old → new`, with `old` absent for a run's first
observation.  The timestamp is the observation time unless one is given. -/
def diffFlow (old : Option FlowSnapshot) (new : FlowSnapshot) (allocator : SequenceAllocator)
    (ts : Option ℚ := none) : Except String (List Event × SequenceAllocator) :=
  match old.filter fun o => o.runId ≠ new.runId with
  | some o => .error s!"cannot diff across runs: {(Json.str o.runId).repr} -> {(Json.str new.runId).repr}"
  | none => .ok (stampAll new.runId (ts.getD new.observedAt) allocator (diffEvents old new))

/-! ### Stamping -/

/-- An event without its number and time. -/
def Event.unstamped (event : Event) : Event := { event with seq := 0, ts := 0 }

theorem unstamped_stampAll (runId : String) (stamp : ℚ) (allocator : SequenceAllocator)
    (events : List Event) :
    (stampAll runId stamp allocator events).1.map Event.unstamped
      = events.map Event.unstamped := by
  induction events generalizing allocator with
  | nil => rfl
  | cons event events ih => simp only [stampAll, List.map_cons, ih]; rfl

/-- The numbers handed out follow on from the allocator, without a gap. -/
theorem isRun_seq_stampAll (runId : String) (stamp : ℚ) (allocator : SequenceAllocator)
    (events : List Event) :
    Consecutive.IsRun (allocator.peek runId + 1)
      ((stampAll runId stamp allocator events).1.map Event.seq) := by
  induction events generalizing allocator with
  | nil => trivial
  | cons event events ih =>
    refine ⟨rfl, ?_⟩
    have h := ih (allocator.allocate runId).2
    rwa [SequenceAllocator.peek_allocate, if_pos rfl] at h

theorem length_stampAll (runId : String) (stamp : ℚ) (allocator : SequenceAllocator)
    (events : List Event) :
    (stampAll runId stamp allocator events).1.length = events.length := by
  induction events generalizing allocator with
  | nil => rfl
  | cons event events ih => simp only [stampAll, List.length_cons, ih]

theorem peek_stampAll (runId r : String) (stamp : ℚ) (allocator : SequenceAllocator)
    (events : List Event) :
    (stampAll runId stamp allocator events).2.peek r
      = if r = runId then allocator.peek runId + events.length else allocator.peek r := by
  induction events generalizing allocator with
  | nil => simp only [stampAll, List.length_nil, Nat.cast_zero, add_zero]; split <;> simp_all
  | cons event events ih =>
    rw [stampAll, ih, SequenceAllocator.peek_allocate, SequenceAllocator.peek_allocate, if_pos rfl]
    split
    · rw [List.length_cons]; push_cast; ring
    · rfl

/-- Within one run a diff never fails. -/
theorem diffFlow_eq_ok {old : Option FlowSnapshot} {new : FlowSnapshot}
    (h : ∀ o ∈ old, o.runId = new.runId) (allocator : SequenceAllocator) (ts : Option ℚ) :
    diffFlow old new allocator ts
      = .ok (stampAll new.runId (ts.getD new.observedAt) allocator (diffEvents old new)) := by
  cases old with
  | none => rfl
  | some o => simp [diffFlow, Option.filter, h o rfl]

/-- Every atom event is about an atom of the new snapshot. -/
theorem mem_atomEvents {old : Option FlowSnapshot} {new : FlowSnapshot} {e : Event}
    (h : e ∈ atomEvents old new) :
    ∃ name current, new.atoms.get? name = some current
      ∧ e ∈ atomChange new (old.bind fun o => o.atoms.get? name) current := by
  rw [atomEvents, List.mem_flatMap] at h
  obtain ⟨name, -, he⟩ := h
  cases hc : new.atoms.get? name with
  | none => rw [hc] at he; simp at he
  | some current => rw [hc] at he; exact ⟨name, current, hc, he⟩

theorem mem_atomChange {new : FlowSnapshot} {before : Option AtomSnapshot} {current : AtomSnapshot}
    {e : Event} (h : e ∈ atomChange new before current) :
    e = atomStateEvent new before current ∨ e = atomProgressEvent new current := by
  rw [atomChange, List.mem_append] at h
  rcases h with h | h <;> split at h <;> simp_all

/-- A flow-state event is the flow's own. -/
theorem mem_flowEvents {old : Option FlowSnapshot} {new : FlowSnapshot} {e : Event}
    (h : e ∈ flowEvents old new) : e.kind = .flowState ∧ e.runId = new.runId := by
  rw [flowEvents] at h
  split at h
  · simp at h
  · rw [List.mem_singleton] at h; subst h; exact ⟨rfl, rfl⟩

theorem mem_diffEvents {old : Option FlowSnapshot} {new : FlowSnapshot} {e : Event} :
    e ∈ diffEvents old new ↔ e ∈ flowEvents old new ∨ e ∈ atomEvents old new := by
  rw [diffEvents]
  split <;> rw [List.mem_append]
  exact or_comm

/-- The kind and the run of an atom's events. -/
theorem kind_of_mem_atomEvents {old : Option FlowSnapshot} {new : FlowSnapshot} {e : Event}
    (h : e ∈ atomEvents old new) :
    (e.kind = .atomState ∨ e.kind = .atomProgress) ∧ e.runId = new.runId := by
  obtain ⟨name, current, -, he⟩ := mem_atomEvents h
  rcases mem_atomChange he with rfl | rfl
  · exact ⟨Or.inl rfl, rfl⟩
  · exact ⟨Or.inr rfl, rfl⟩

theorem runId_of_mem_diffEvents {old : Option FlowSnapshot} {new : FlowSnapshot} {e : Event}
    (h : e ∈ diffEvents old new) : e.runId = new.runId := by
  rcases mem_diffEvents.mp h with h | h
  · exact (mem_flowEvents h).2
  · exact (kind_of_mem_atomEvents h).2

/-- Before they are stamped, the events of a diff have no number and no time. -/
theorem unstamped_of_mem_diffEvents {old : Option FlowSnapshot} {new : FlowSnapshot} {e : Event}
    (h : e ∈ diffEvents old new) : e.unstamped = e := by
  rcases mem_diffEvents.mp h with h | h
  · rw [flowEvents] at h
    split at h
    · simp at h
    · rw [List.mem_singleton.mp h]
      rfl
  · obtain ⟨name, current, -, he⟩ := mem_atomEvents h
    rcases mem_atomChange he with rfl | rfl <;> rfl

theorem map_unstamped_diffEvents (old : Option FlowSnapshot) (new : FlowSnapshot) :
    (diffEvents old new).map Event.unstamped = diffEvents old new :=
  (List.map_congr_left fun _ => unstamped_of_mem_diffEvents).trans (List.map_id _)

theorem runId_of_mem_stampAll {runId : String} {stamp : ℚ} {allocator : SequenceAllocator}
    {events : List Event} {r : String} (h : ∀ e ∈ events, e.runId = r) :
    ∀ e ∈ (stampAll runId stamp allocator events).1, e.runId = r := by
  induction events generalizing allocator with
  | nil => simp [stampAll]
  | cons event events ih =>
    intro e he
    rw [stampAll, List.mem_cons] at he
    rcases he with rfl | he
    · exact h event List.mem_cons_self
    · exact ih (fun e he => h e (List.mem_cons_of_mem _ he)) e he

/-! ### A quiet poll -/

/-- The two snapshots agree on the flow's state and on every atom's state,
progress and progress details. -/
def SameProgress (old new : FlowSnapshot) : Prop :=
  old.state = new.state ∧ ∀ name current, new.atoms.get? name = some current →
    ∃ before, old.atoms.get? name = some before ∧ before.state = current.state ∧
      before.progress = current.progress ∧ before.progressDetails = current.progressDetails

/-- Nothing is reported when nothing visible changed. -/
theorem diffEvents_eq_nil {old new : FlowSnapshot} (h : SameProgress old new) :
    diffEvents (some old) new = [] := by
  have hflow : flowEvents (some old) new = [] := by simp [flowEvents, h.1]
  have hatom : atomEvents (some old) new = [] := by
    rw [atomEvents, List.flatMap_eq_nil_iff]
    intro name _
    cases hc : new.atoms.get? name with
    | none => rfl
    | some current =>
      obtain ⟨before, hb, hs, hp, hd⟩ := h.2 name current hc
      simp [hb, atomChange, stateChanged, progressChanged, hs, hp, hd]
  simp [diffEvents, hflow, hatom]

/-- A run's first observation always reports its flow. -/
theorem diffEvents_none_ne_nil (new : FlowSnapshot) : diffEvents none new ≠ [] := by
  rw [diffEvents]
  split <;> simp [flowEvents]

end TaskflowMeter
