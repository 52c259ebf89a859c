import TaskflowMeter.Delivery

/-!
# Attaching to a running engine

What the engine says of itself is turned into events, which are numbered by the
attachment's own allocator and submitted to its own pipeline.

## Main definitions

* `Engine` — what is read of an engine: its run, and its compiled graph.
* `describeGraph` — the graph as plain data.
* `Said`, `Said.event` — what a receiver is told, and the event that is built of it.
* `Notice`, `Attachment.event?` — the same with its time, as an attachment is notified of it.
* `Attachment.moves` — a session: notices, and whatever the pipeline does.

## Main results

* `event?_eq_none_iff` — only an attachment without structure is silent.
-/

namespace TaskflowMeter

/-- A node of a compiled graph. -/
structure GraphNode where
  name : String
  kind : String
  deriving DecidableEq, Repr

/-- What is read of an engine. -/
structure Engine where
  flowUuid : String
  /-- The nodes and edges of the execution graph, unless it cannot be compiled. -/
  executionGraph : Option (List GraphNode × List (String × String)) := none

/-- The kinds of node that are atoms. -/
def ATOMS : List String := [TASK, RETRY]

/-- Render the compiled execution graph as plain data. -/
def describeGraph (engine : Engine) : Option (Dict String Json) :=
  engine.executionGraph.map fun (nodes, edges) =>
    let sortedNodes := nodes.insertionSort fun a b =>
      a.kind < b.kind ∨ (a.kind = b.kind ∧ a.name ≤ b.name)
    let sortedEdges := edges.insertionSort fun a b => a.1 < b.1 ∨ (a.1 = b.1 ∧ a.2 ≤ b.2)
    let graph : Dict String Json := (∅ : Dict String Json).set "nodes"
      (.arr (sortedNodes.map fun n => .obj [("name", .str n.name), ("kind", .str n.kind)]))
    let graph := graph.set "edges"
      (.arr (sortedEdges.map fun e => .obj [("from", .str e.1), ("to", .str e.2)]))
    graph.set "atom_count" (.num (nodes.filter fun n => ATOMS.contains n.kind).length)

/-- The result that comes with a notification: `None`, a failure as plain data, or any
other object. -/
inductive Result where
  | nothing
  | failure (data : Json)
  | value
  deriving DecidableEq, Repr

/-- What a receiver is told. -/
inductive Said where
  /-- The block is entered; the graph could be described, or not. -/
  | attached (graph : Option (Dict String Json))
  | flow (state : String) (oldState flowName : Option String)
  | atom (atomType state : String) (oldState name uuid : Option String) (result : Option Result)
  | progress (name : String) (uuid : Option String) (progress : Option ℚ)
      (payload : Dict String Json)

namespace Said

/-- What a result adds to an event. -/
def resultDetails (state : String) : Option Result → Dict String Json
  | none => ∅
  | some result =>
      let extra := (∅ : Dict String Json).set "has_result" (.bool (result ≠ .nothing))
      match result with
      | .failure data =>
          extra.set (if state = States.REVERT_FAILURE then "revert_failure" else "failure") data
      | _ => extra

/-- The event that is built of it. -/
def event (bookId : Option String) (runId : String) (seq : ℤ) (ts : ℚ) : Said → Event
  | .attached graph =>
    { runId := runId
      seq := seq
      ts := ts
      kind := .flowStructure
      bookId := bookId
      details := graph.getD ∅ }
  | .flow state oldState flowName =>
    { runId := runId
      seq := seq
      ts := ts
      kind := .flowState
      bookId := bookId
      state := some state
      oldState := oldState
      details := match flowName with
        | some flowName => (∅ : Dict String Json).set "flow_name" (.str flowName)
        | none => ∅ }
  | .atom atomType state oldState name uuid result =>
    { runId := runId
      seq := seq
      ts := ts
      kind := .atomState
      bookId := bookId
      atomName := name
      atomUuid := uuid
      atomType := some atomType
      state := some state
      oldState := oldState
      details := resultDetails state result }
  | .progress name uuid reported payload =>
    { runId := runId
      seq := seq
      ts := ts
      kind := .atomProgress
      bookId := bookId
      atomName := some name
      atomUuid := uuid
      atomType := some TASK
      progress := reported
      details :=
        if payload.entries = [] then ∅
        else (∅ : Dict String Json).set "progress_details" (.obj payload.entries) }

@[simp] theorem runId_event (bookId : Option String) (runId : String) (seq : ℤ) (ts : ℚ)
    (said : Said) : (said.event bookId runId seq ts).runId = runId := by cases said <;> rfl

@[simp] theorem seq_event (bookId : Option String) (runId : String) (seq : ℤ) (ts : ℚ)
    (said : Said) : (said.event bookId runId seq ts).seq = seq := by cases said <;> rfl

end Said

/-- What the engine says of itself, and when. -/
inductive Notice where
  /-- The block is entered. -/
  | attached (ts : ℚ)
  | flow (ts : ℚ) (state : String) (oldState flowName : Option String)
  | atom (ts : ℚ) (atomType state : String) (oldState name uuid : Option String)
      (result : Option Result)
  | progress (ts : ℚ) (name : String) (uuid : Option String) (progress : Option ℚ)
      (payload : Dict String Json)
  deriving DecidableEq, Repr

/-- How an engine is watched. -/
structure Attachment where
  engine : Engine
  bookId : Option String := none
  emitStructure : Bool := true

namespace Attachment

/-- The event that is built of a notice, before it is numbered. -/
def event? (a : Attachment) : Notice → Option Event
  | .attached ts =>
    if a.emitStructure then
      (describeGraph a.engine).map fun graph =>
        (Said.attached (some graph)).event a.bookId a.engine.flowUuid 0 ts
    else none
  | .flow ts state oldState flowName =>
    some ((Said.flow state oldState flowName).event a.bookId a.engine.flowUuid 0 ts)
  | .atom ts atomType state oldState name uuid result =>
    some ((Said.atom atomType state oldState name uuid result).event a.bookId a.engine.flowUuid 0 ts)
  | .progress ts name uuid progress payload =>
    some ((Said.progress name uuid progress payload).event a.bookId a.engine.flowUuid 0 ts)

/-- Every event is about the engine's run. -/
theorem runId_of_event? {a : Attachment} {n : Notice} {e : Event} (h : a.event? n = some e) :
    e.runId = a.engine.flowUuid := by
  cases n with
  | attached ts =>
    rw [event?] at h
    split at h
    · obtain ⟨graph, -, rfl⟩ := Option.map_eq_some_iff.mp h
      rfl
    · cases h
  | flow | atom | progress =>
    obtain rfl := Option.some.inj h
    rfl

/-- Nothing is emitted only for the start of a session whose structure is not wanted, or
cannot be read. -/
theorem event?_eq_none_iff {a : Attachment} {n : Notice} :
    a.event? n = none
      ↔ (∃ ts, n = .attached ts) ∧ (a.emitStructure = false ∨ a.engine.executionGraph = none) := by
  cases n with
  | attached ts =>
    rw [event?]
    cases a.emitStructure <;> simp [describeGraph]
  | flow | atom | progress => simp [event?]

/-- What happens in a session. -/
inductive Step where
  | notice (n : Notice)
  /-- The pipeline goes on. -/
  | work (m : EventPipeline.Work)

/-- A session, as the producers and their pipeline see it. -/
def moves (a : Attachment) (session : List Step) : List Collecting.Move :=
  session.filterMap fun
    | .notice n => (a.event? n).map .emit
    | .work m => some (.work m)

end Attachment

end TaskflowMeter
