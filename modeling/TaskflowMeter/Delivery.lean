import TaskflowMeter.Collect.Pipeline
import TaskflowMeter.Lib.Runs
import TaskflowMeter.Remnant

/-!
# Events that a full queue has dropped

Producers number their events with one allocator and submit them to a pipeline, whose
queue may be full.  Once nothing is on its way any more, a client walks through what has
reached the store.

## Main definitions

* `Collecting` — an allocator, and the pipeline that the producers submit to.
* `Collecting.store` — the store that the pipeline feeds.
* `Complete` — the client has everything, and was told of what is missing in between.

## Main results

* `Gathered` — **the events submitted for each run are numbered 1, 2, 3, …, and each is on
  its way, offered or discarded.**
* `complete_iff` — **the client's view is complete exactly when no discarded event lies
  between two that are stored.**
-/

namespace TaskflowMeter

open Consecutive Runs

/-- Producers that number their events with one allocator, and the pipeline that they
submit to. -/
structure Collecting (config : PipelineConfig) where
  allocator : SequenceAllocator := {}
  pipeline : EventPipeline config := {}

/-- The client has every event held, and was told of every number missing between two that
it has. -/
structure Complete (held : List Event) (client : Client) : Prop where
  received : ∀ e ∈ held, e ∈ client.received
  announced : ∀ a b m, HasSeq client.received a → HasSeq client.received b → a < m → m < b →
    HasSeq client.received m ∨ client.Announced m

namespace Collecting

variable {config : PipelineConfig}

inductive Move where
  /-- A producer numbers an event, and begins to submit it. -/
  | emit (event : Event)
  /-- The pipeline goes on. -/
  | work (m : EventPipeline.Work)

def step (w : Collecting config) : Move → Collecting config
  | .emit event =>
      let next := w.allocator.allocate event.runId
      { allocator := next.2
        pipeline := w.pipeline.submit { event with seq := next.1 } }
  | .work m => { w with pipeline := w.pipeline.work m }

/-- The store that the first publisher feeds with every batch it is offered. -/
def store (s : WritableDataSource) (w : Collecting config) : WritableDataSource :=
  w.pipeline.offered.foldl WritableDataSource.applyMany s

/-- Nothing is queued or on its way. -/
def Settled (w : Collecting config) : Prop := w.pipeline.inFlight = []

/-! ### Numbering -/

/-- **The events submitted for each run are numbered 1, 2, 3, …**, and each is on its way,
offered or discarded. -/
structure Gathered (w : Collecting config) : Prop where
  accounted : w.pipeline.Accounted
  isRun : ∀ r, IsRun 1 ((ofRun r w.pipeline.submitted).map Event.seq)
  peek : ∀ r, w.allocator.peek r = (ofRun r w.pipeline.submitted).length

theorem gathered_new : Gathered ({} : Collecting config) :=
  ⟨⟨List.Perm.nil, rfl⟩, fun _ => trivial, fun _ => rfl⟩

theorem Gathered.emit {w : Collecting config} (h : Gathered w) (event : Event) :
    Gathered (w.step (.emit event)) := by
  have hsubmitted : (w.step (.emit event)).pipeline.submitted
      = w.pipeline.submitted ++ [{ event with seq := w.allocator.peek event.runId + 1 }] := rfl
  refine ⟨h.accounted.submit _, ?_, ?_⟩
  · intro r
    rw [hsubmitted, ofRun_append, ofRun_singleton, List.map_append, isRun_append]
    refine ⟨h.isRun r, ?_⟩
    split
    · next hr =>
      refine ⟨?_, trivial⟩
      show w.allocator.peek event.runId + 1 = _
      rw [h.peek, hr, List.length_map, add_comm]
    · trivial
  · intro r
    show (w.allocator.allocate event.runId).2.peek r = _
    rw [hsubmitted, ofRun_append, ofRun_singleton, List.length_append,
      SequenceAllocator.peek_allocate]
    by_cases hr : r = event.runId
    · rw [if_pos hr, if_pos hr, h.peek, hr]
      push_cast
      rfl
    · rw [if_neg hr, if_neg hr, h.peek]
      simp

theorem Gathered.step {w : Collecting config} (h : Gathered w) (m : Move) :
    Gathered (w.step m) := by
  cases m with
  | emit event => exact h.emit event
  | work m =>
    refine ⟨h.accounted.work m, ?_, ?_⟩
    · intro r
      show IsRun 1 ((ofRun r (w.pipeline.work m).submitted).map Event.seq)
      rw [EventPipeline.submitted_work]
      exact h.isRun r
    · intro r
      show w.allocator.peek r = (ofRun r (w.pipeline.work m).submitted).length
      rw [EventPipeline.submitted_work]
      exact h.peek r

theorem gathered_run (config : PipelineConfig) (moves : List Move) :
    Gathered (run step ({} : Collecting config) moves) := by
  induction moves using List.reverseRecOn with
  | nil => exact gathered_new
  | append_singleton moves m ih =>
    rw [run_concat]
    exact ih.step m

/-- The event of a move, before it is numbered. -/
def Move.emitted? : Move → Option Event
  | .emit event => some event
  | .work _ => none

/-- An event without its number. -/
def unnumbered (event : Event) : Event := { event with seq := 0 }

/-- The events submitted are those that producers emit, in order, but for their numbers. -/
theorem submitted_run (config : PipelineConfig) (moves : List Move) :
    (run step ({} : Collecting config) moves).pipeline.submitted.map unnumbered
      = (moves.filterMap Move.emitted?).map unnumbered := by
  induction moves using List.reverseRecOn with
  | nil => rfl
  | append_singleton moves m ih =>
    rw [run_concat, List.filterMap_append, List.map_append, ← ih]
    cases m with
    | emit event => exact List.map_append
    | work m =>
      show (EventPipeline.work _ m).submitted.map _ = _
      rw [EventPipeline.submitted_work]
      exact (List.append_nil _).symm

/-! ### Once nothing is on its way -/

/-- The events of a run are those that were offered and those that were discarded. -/
theorem Gathered.numbered {w : Collecting config} (h : Gathered w) (hsettled : w.Settled)
    (r : String) : Numbered r (ofRun r w.pipeline.submitted).length
      (ofRun r w.pipeline.discarded ++ ofRun r w.pipeline.offered.flatten) := by
  have hperm := h.accounted.perm
  rw [hsettled, List.nil_append] at hperm
  apply numbered_of_isRun (h.isRun r)
  rw [← ofRun_append]
  exact (hperm.trans List.perm_append_comm).filter _

/-- A store with room holds what was offered. -/
theorem Gathered.held_store {w : Collecting config} (h : Gathered w) (hsettled : w.Settled)
    {s : WritableDataSource} {runId : String} (hnew : s.held runId = [])
    (hroomy : s.Roomy (ofRun runId w.pipeline.offered.flatten).length w.pipeline.offered.flatten) :
    (w.store s).held runId = ofRun runId w.pipeline.offered.flatten := by
  have hnodup := (h.numbered hsettled runId).nodup
  rw [List.map_append, List.nodup_append] at hnodup
  rw [store, WritableDataSource.held_foldl_applyMany]
  have hall := WritableDataSource.held_applyMany_of_fresh hroomy (r := runId)
  rw [hnew] at hall
  exact hall hnodup.2.1 le_rfl

/-- **A client's view is complete exactly when no discarded event lies between two that are
stored.**  Producers number their events with one allocator and submit them, in any order
and to a queue of any size; when nothing is on its way any more, a client walks from the
beginning, with any limits. -/
theorem complete_iff {s : WritableDataSource} {runId : String} (hnew : s.held runId = [])
    {moves : List Move} {w : Collecting config} (hw : w = run step {} moves)
    (hsettled : w.Settled)
    (hroomy : s.Roomy (ofRun runId w.pipeline.offered.flatten).length w.pipeline.offered.flatten)
    {limits : List ℤ} (hlimits : ∀ limit ∈ limits, 1 ≤ limit) (hne : limits ≠ [])
    (henough : ((w.store s).held runId).length ≤ limits.length) :
    Complete ((w.store s).held runId) (Client.walk (w.store s) runId 0 limits)
      ↔ NotBetween ((w.store s).held runId) (ofRun runId w.pipeline.discarded) 0 := by
  have hgathered : Gathered w := hw ▸ gathered_run config moves
  have hnumbered := hgathered.numbered hsettled runId
  have hwalk := walkedThrough_walk (w.store s) runId 0 hlimits hne henough
  rw [← hgathered.held_store hsettled hnew hroomy] at hnumbered
  rw [← hwalk.obtains_iff hnumbered le_rfl]
  constructor
  · intro hcomplete e he _
    exact hcomplete.received e he
  · intro hobtains
    refine ⟨?_, ?_⟩
    · intro e he
      have hpos := ((hnumbered.hasSeq_iff e.seq).mp ⟨e, List.mem_append_right _ he, rfl⟩).1
      exact hobtains e he (by omega)
    · -- a walk leaves no hole between two numbers that it has
      intro a b m ha hb ham hmb
      exact Or.inl (hwalk.hasSeq_of_between ha hb ham.le hmb.le)

/-! ### A queue of one -/

/-- Room for one event. -/
def oneSlot : PipelineConfig where
  maxQueue := 1

/-- The next operation of the sender, none of whose publishers raises. -/
def sendOk : Move := .work (.send fun _ => none)

/-- Submit an event to a queue that has room, as the `i`-th call. -/
def submitted (i : ℕ) : List Move :=
  [.emit (heartbeat 0), .work (.advance i), .work (.advance i)]

/-- Submit an event to a queue that is full, as the `i`-th call. -/
def submittedToFull (i : ℕ) : List Move :=
  .emit (heartbeat 0) :: List.replicate 6 (.work (.advance i))

/-- The sender has taken event 1 when event 3 discards event 2. -/
def discardsTwo : List Move :=
  submitted 0 ++ [sendOk] ++ submitted 1 ++ submittedToFull 2 ++ List.replicate 3 sendOk

/-- Event 3 is stored, and no client that begins before it will ever receive it. -/
theorem event_after_drop_never_received :
    (run step ({} : Collecting oneSlot) discardsTwo).Settled
      ∧ ∀ s ∈ [WritableDataSource.memory {}, WritableDataSource.sqlalchemy {}],
        ∀ limits : List ℤ, (∀ limit ∈ limits, 1 ≤ limit) →
          ¬Complete (((run step ({} : Collecting oneSlot) discardsTwo).store s).held "run-1")
            (Client.walk ((run step ({} : Collecting oneSlot) discardsTwo).store s) "run-1" 0
              limits) := by
  have hmemory : ((run step ({} : Collecting oneSlot) discardsTwo).store (.memory {})).held "run-1"
      = [heartbeat 1, heartbeat 3] := by decide
  have hsqlalchemy : ((run step ({} : Collecting oneSlot) discardsTwo).store
      (.sqlalchemy {})).held "run-1" = [heartbeat 1, heartbeat 3] := by decide
  have hstuck : ∀ s : WritableDataSource, s.held "run-1" = [heartbeat 1, heartbeat 3] →
      ∀ limits : List ℤ, (∀ limit ∈ limits, 1 ≤ limit) →
        ¬Complete (s.held "run-1") (Client.walk s "run-1" 0 limits) := by
    -- to have event 3 the client would have to have been given event 2
    intro s hs limits hlimits hcomplete
    have hthree : heartbeat 3 ∈ s.held "run-1" := by rw [hs]; decide
    have hstart : startOf (sortedBySeq (s.held "run-1")) 0 ≤ 2 := by rw [hs]; decide
    obtain ⟨x, hx, hseq⟩ := Client.hasSeq_held_of_received s "run-1" 0 hlimits
      ⟨_, hcomplete.received _ hthree, rfl⟩ hstart (by decide)
    rw [hs] at hx
    revert hseq
    revert x
    decide
  refine ⟨rfl, ?_⟩
  intro s hs
  rcases List.mem_cons.mp hs with rfl | hs
  · exact hstuck _ hmemory
  · rw [List.mem_singleton.mp hs]
    exact hstuck _ hsqlalchemy

/-- Event 2 discards event 1, and is sent; event 3 follows. -/
def discardsOne : List Move :=
  submitted 0 ++ submittedToFull 1 ++ List.replicate 7 sendOk ++ submitted 2
    ++ List.replicate 3 sendOk

/-- There the client is told that event 1 is gone, and receives the others. -/
theorem complete_after_first_dropped :
    Complete (((run step ({} : Collecting oneSlot) discardsOne).store (.memory {})).held "run-1")
      (Client.walk ((run step ({} : Collecting oneSlot) discardsOne).store (.memory {})) "run-1" 0
        [1, 1]) := by
  have hlimits : ∀ limit ∈ [(1 : ℤ), 1], 1 ≤ limit := by decide
  have hroomy : (WritableDataSource.memory {}).Roomy
      (ofRun "run-1" (run step ({} : Collecting oneSlot) discardsOne).pipeline.offered.flatten).length
      (run step ({} : Collecting oneSlot) discardsOne).pipeline.offered.flatten :=
    ⟨Or.inl rfl, by decide⟩
  have hsettled : (run step ({} : Collecting oneSlot) discardsOne).Settled := rfl
  exact (complete_iff rfl rfl hsettled hroomy hlimits (by decide) (by decide)).mpr (by decide)

end Collecting

end TaskflowMeter
