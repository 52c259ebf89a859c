import TaskflowMeter.Collect.Pipeline
import TaskflowMeter.Lib.Runs

/-!
# The threads around one pipeline

A started pipeline again, one operation at a time and with everyone who touches it: any
number of calls of `submit` and `flush`, one call of `stop`, and the sender, which offers a
batch to one publisher after the other.  Every entry carries its place in the order in which
entries entered the queue, so that two equal events are still told apart.

## Main definitions

* `Queued` — an entry with its number.
* `Barrier` — the state of all threads, and what has become of the entries.
* `Barrier.Move`, `Barrier.step` — one operation of one thread.
* `Barrier.Refines` — a state of the pipeline with batches delivered at once.

## Main results

* `refines_run` — **whatever the threads do, `EventPipeline` does with them.**
* `unfinished_ne_zero` — the sender never marks an entry as done that is so already.
-/

namespace TaskflowMeter

/-- An entry of the queue, with its place in the order in which entries entered. -/
structure Queued where
  number : ℕ
  entry : Entry

def Queued.event? (queued : Queued) : Option (ℕ × Event) :=
  queued.entry.event?.map fun event => (queued.number, event)

/-- The events of a batch, which is what publishers are given. -/
def eventsOf (taken : List Queued) : List (ℕ × Event) := taken.filterMap Queued.event?

/-- Whether the sentinel is in a batch. -/
def isStopping (taken : List Queued) : Bool := (taken.map Queued.entry).contains .stop

/-- A call of `submit`, with the number that its event was given on the queue. -/
structure Submitting where
  phase : Submit
  number : Option ℕ := none

/-- The sender: what it is about to do. -/
inductive Sending where
  /-- Wait for an entry. -/
  | get
  /-- Take what is already waiting, up to a batch. -/
  | takeMore (taken : List Queued)
  /-- Offer the batch to the next publisher: what those before it have made of it. -/
  | publish (taken : List Queued) (had : List (Option String))
  | taskDone (left : ℕ) (stopping : Bool)
  | checkEmpty (stopping : Bool)
  | setIdle (stopping : Bool)
  | exited

/-- The batch that the sender is at. -/
def Sending.batch : Sending → List Queued
  | takeMore taken | publish taken _ => taken
  | _ => []

/-- What the publishers have made of the batch so far. -/
def Sending.had : Sending → List (Option String)
  | publish _ had => had
  | _ => []

/-- Whether the sender has had the sentinel. -/
def Sending.stopping : Sending → Bool
  | taskDone _ stopping | checkEmpty stopping | setIdle stopping => stopping
  | exited => true
  | get | takeMore _ | publish _ _ => false

/-- The sender of a pipeline that offers a batch to all publishers at once. -/
def Sending.erase : Sending → Sender
  | .get => .get
  | .takeMore taken => .takeMore (taken.map Queued.entry)
  | .publish taken _ => .deliver (taken.map Queued.entry)
  | .taskDone left stopping => .taskDone left stopping
  | .checkEmpty stopping => .checkEmpty stopping
  | .setIdle stopping => .setIdle stopping
  | .exited => .exited

/-- A call of `flush`, with the calls of `submit` that had returned when it was made. -/
inductive Flushing where
  | waiting (before : List ℕ)
  | returned (before : List ℕ) (idle : Bool)

/-- The call of `stop`: what it is about to do. -/
inductive Stopping where
  | notCalled
  /-- Wait for the queue to empty, or until the time is up. -/
  | flush
  /-- Put the sentinel, when there is room. -/
  | put
  | join
  | returned
  deriving DecidableEq

/-- A pipeline that has been started, and the threads around it. -/
structure Barrier (config : PipelineConfig) where
  queue : BoundedQueue Queued config.maxQueue := {}
  idle : Bool := true
  stats : PipelineStats := {}
  calls : List Submitting := []
  sender : Sending := .get
  flushes : List Flushing := []
  stopping : Stopping := .notCalled
  /-- The entries in the order in which they entered, the batches offered to each publisher,
  the batches that all publishers have had, the entries discarded to make room, and the
  events that the drop handler was told of. -/
  entered : List Queued := []
  offers : ℕ → List (List (ℕ × Event)) := fun _ => []
  delivered : List (List Queued) := []
  discarded : List Queued := []
  told : List Event := []

namespace Barrier

variable {config : PipelineConfig}

/-- Put an entry on the queue, unless it is full. -/
def put? (p : Barrier config) (entry : Entry) : Option (Barrier config) :=
  (p.queue.put? ⟨p.entered.length, entry⟩).map fun queue =>
    { p with queue := queue, entered := p.entered ++ [⟨p.entered.length, entry⟩] }

/-- A call of `submit` begins. -/
def submit (p : Barrier config) (event : Event) : Barrier config :=
  { p with
    calls := p.calls ++ [{ phase := .put event }]
    stats := { p.stats with submitted := p.stats.submitted + 1 } }

/-- The next operation of a call of `submit`. -/
def advance (p : Barrier config) (number : Option ℕ) : Submit → Barrier config × Submitting
  | .put event =>
    match p.put? (.event event) with
    | some p' => (p', ⟨.clearIdle, some p.entered.length⟩)
    | none => (p, ⟨.makeRoom event, number⟩)
  | .makeRoom event =>
    match p.queue.get? with
    -- whatever is the oldest, the sentinel included
    | some (oldest, queue) =>
        ({ p with queue := queue, discarded := p.discarded ++ [oldest] }, ⟨.taskDone event, number⟩)
    | none => (p, ⟨.count event, number⟩)
  | .taskDone event =>
    match p.queue.taskDone? with
    | some queue => ({ p with queue := queue }, ⟨.count event, number⟩)
    | none => (p, ⟨.raised, number⟩)
  | .count event =>
    ({ p with
        stats := { p.stats with dropped := p.stats.dropped + 1 }
        told := p.told ++ [event] },
      ⟨.putAgain event, number⟩)
  | .putAgain event =>
    match p.put? (.event event) with
    | some p' => (p', ⟨.clearIdle, some p.entered.length⟩)
    -- another producer has been quicker, and the event never enters
    | none =>
        ({ p with stats := { p.stats with dropped := p.stats.dropped + 1 } },
          ⟨.returned false, number⟩)
  | .clearIdle => ({ p with idle := false }, ⟨.returned true, number⟩)
  | .returned queued => (p, ⟨.returned queued, number⟩)
  | .raised => (p, ⟨.raised, number⟩)

/-- The count of one publisher's answer. -/
def tally (events : ℕ) (stats : PipelineStats) : Option String → PipelineStats
  | none => { stats with delivered := stats.delivered + events }
  | some e => { stats with errors := stats.errors + 1, lastError := some e }

/-- The next operation of the sender; a publisher may raise. -/
def send (p : Barrier config) (raises : Option String) : Barrier config :=
  match p.sender with
  | .get =>
    match p.queue.get? with
    | some (queued, queue) => { p with queue := queue, sender := .takeMore [queued] }
    | none => p
  | .takeMore taken =>
    if taken.length < config.batchSize then
      match p.queue.get? with
      | some (queued, queue) => { p with queue := queue, sender := .takeMore (taken ++ [queued]) }
      | none => { p with sender := .publish taken [] }
    else { p with sender := .publish taken [] }
  | .publish taken had =>
    if (eventsOf taken).isEmpty ∨ config.publishers ≤ had.length then
      { p with
        delivered := p.delivered ++ [taken]
        sender := .taskDone taken.length (isStopping taken) }
    else
      { p with
        offers := Function.update p.offers had.length (p.offers had.length ++ [eventsOf taken])
        stats := tally (eventsOf taken).length p.stats raises
        sender := .publish taken (had ++ [raises]) }
  | .taskDone (left + 1) stopping =>
    match p.queue.taskDone? with
    | some queue => { p with queue := queue, sender := .taskDone left stopping }
    | none => { p with sender := .exited }
  | .taskDone 0 stopping => { p with sender := .checkEmpty stopping }
  | .checkEmpty stopping =>
    if p.queue.entries.isEmpty then { p with sender := .setIdle stopping }
    else { p with sender := if stopping then .exited else .get }
  | .setIdle stopping => { p with idle := true, sender := if stopping then .exited else .get }
  | .exited => p

/-- The calls of `submit` that have returned. -/
def returned (p : Barrier config) : List ℕ :=
  (List.range p.calls.length).filter fun i =>
    match p.calls[i]? with
    | some ⟨.returned _, _⟩ => true
    | _ => false

/-- What one thread may do. -/
inductive Move where
  | submit (event : Event)
  /-- The `i`-th call of `submit` goes on. -/
  | advance (i : ℕ)
  /-- The sender goes on. -/
  | send (raises : Option String)
  /-- A call of `flush` begins. -/
  | flush
  /-- The `i`-th call of `flush` finds the idle flag set. -/
  | wake (i : ℕ)
  /-- The time of the `i`-th call of `flush` is up. -/
  | giveUp (i : ℕ)
  /-- `stop` is called, which may be done once. -/
  | stop (drain : Bool)
  /-- The call of `stop` goes on. -/
  | stopNext

/-- One operation of one thread. -/
def step (p : Barrier config) : Move → Barrier config
  | .submit event => p.submit event
  | .advance i =>
    match p.calls[i]? with
    | some call =>
        let next := p.advance call.number call.phase
        { next.1 with calls := p.calls.set i next.2 }
    | none => p
  | .send raises => p.send raises
  | .flush => { p with flushes := p.flushes ++ [.waiting p.returned] }
  | .wake i =>
    match p.flushes[i]? with
    | some (.waiting before) =>
        if p.idle then { p with flushes := p.flushes.set i (.returned before true) } else p
    | _ => p
  | .giveUp i =>
    match p.flushes[i]? with
    | some (.waiting before) => { p with flushes := p.flushes.set i (.returned before false) }
    | _ => p
  | .stop drain =>
    if p.stopping = .notCalled then { p with stopping := if drain then .flush else .put } else p
  | .stopNext =>
    match p.stopping with
    | .flush => { p with stopping := .put }
    | .put =>
      match p.put? .stop with
      | some p' => { p' with stopping := .join }
      -- the call waits for room
      | none => p
    | .join => { p with stopping := .returned }
    | .notCalled | .returned => p

/-- The state after a run from the start. -/
def after (config : PipelineConfig) (moves : List Move) : Barrier config :=
  Runs.run step {} moves

theorem after_concat (moves : List Move) (a : Move) :
    after config (moves ++ [a]) = (after config moves).step a := Runs.run_concat ..

/-! ### Batches delivered at once -/

/-- A state of the pipeline with batches delivered at once: it is behind by the publishers that
have had the batch in progress. -/
structure Refines (p : Barrier config) (q : EventPipeline config) : Prop where
  queue : BoundedQueue.Maps Queued.entry p.queue q.queue
  idle : q.idle = p.idle
  calls : q.calls = p.calls.map Submitting.phase
  sender : q.sender = p.sender.erase
  offered : q.offered
    = ((p.delivered.map eventsOf).filter (!·.isEmpty)).map fun batch => batch.map Prod.snd
  told : q.told = p.told
  stats : p.stats = p.sender.had.foldl (tally (eventsOf p.sender.batch).length) q.stats
  had : p.sender.had.length ≤ config.publishers
  events : p.sender.had ≠ [] → eventsOf p.sender.batch ≠ []

/-- What is left of a batch without the numbers. -/
theorem filterMap_entry (taken : List Queued) :
    (taken.map Queued.entry).filterMap Entry.event? = (eventsOf taken).map Prod.snd := by
  rw [eventsOf, List.filterMap_map, List.map_filterMap]
  congr 1
  funext queued
  rcases queued with ⟨number, _ | _⟩ <;> rfl

/-- The publishers' answers, read off by the place of the publisher. -/
theorem foldl_range_getD (had : List (Option String)) (events : ℕ) (stats : PipelineStats) :
    (List.range had.length).foldl (fun stats i => tally events stats (had.getD i none)) stats
      = had.foldl (tally events) stats := by
  have hhad : (List.range had.length).map (fun i => had.getD i none) = had := by
    apply List.ext_getElem
    · simp
    · intro i h₁ h₂
      simp [List.getD_eq_getElem?_getD, h₂]
  conv_rhs => rw [← hhad]
  rw [List.foldl_map]

/-- Putting an entry is putting it. -/
theorem Refines.put? {p : Barrier config} {q : EventPipeline config} (h : Refines p q)
    (entry : Entry) : Option.Rel (fun p' queue => Refines p' { q with queue := queue })
      (p.put? entry) (q.queue.put? entry) := by
  have hrel := h.queue.put? ⟨p.entered.length, entry⟩
  unfold Barrier.put?
  rcases hrel' : p.queue.put? ⟨p.entered.length, entry⟩ with _ | queue <;>
    rcases hq : q.queue.put? entry with _ | queue' <;>
    rw [hrel', hq] at hrel
  · exact .none
  · cases hrel
  · cases hrel
  · exact .some { h with queue := Option.rel_some_some.mp hrel }

/-- Counting what the publishers have no part in. -/
theorem Refines.count {p : Barrier config} {q : EventPipeline config} (h : Refines p q)
    (f : PipelineStats → PipelineStats)
    (hf : ∀ events stats raises, tally events (f stats) raises = f (tally events stats raises)) :
    Refines { p with stats := f p.stats } { q with stats := f q.stats } :=
  { h with stats := (congrArg f h.stats).trans (List.foldl_hom f (hf _)).symm }

/-- What one operation of the pipeline with batches delivered at once can lead to. -/
inductive Goes (q : EventPipeline config) : EventPipeline config → Prop
  | waits : Goes q q
  | submit (event : Event) : Goes q (q.submit event)
  | work (m : EventPipeline.Work) : Goes q (q.work m)

/-- **What a call of `submit` does, the pipeline does.** -/
theorem Refines.advance {p : Barrier config} {q : EventPipeline config} (h : Refines p q)
    (number : Option ℕ) (phase : Submit) :
    (q.advance phase).2 = (p.advance number phase).2.phase
      ∧ Refines (p.advance number phase).1 (q.advance phase).1 := by
  have hdropped := h.count (fun stats => { stats with dropped := stats.dropped + 1 })
    (by intro events stats raises; cases raises <;> rfl)
  cases phase with
  | put event =>
    have hrel := h.put? (.event event)
    rw [Barrier.advance, EventPipeline.advance]
    generalize p.put? (.event event) = next, q.queue.put? (.event event) = next' at hrel ⊢
    cases hrel with
    | none => exact ⟨rfl, h⟩
    | some hnext => exact ⟨rfl, hnext⟩
  | makeRoom event =>
    have hrel := h.queue.get?
    rw [Barrier.advance, EventPipeline.advance]
    generalize p.queue.get? = next, q.queue.get? = next' at hrel ⊢
    cases hrel with
    | none => exact ⟨rfl, h⟩
    | some hnext => exact ⟨rfl, { h with queue := hnext.2 }⟩
  | taskDone event =>
    have hrel := h.queue.taskDone?
    rw [Barrier.advance, EventPipeline.advance]
    generalize p.queue.taskDone? = next, q.queue.taskDone? = next' at hrel ⊢
    cases hrel with
    | none => exact ⟨rfl, h⟩
    | some hnext => exact ⟨rfl, { h with queue := hnext }⟩
  | count event => exact ⟨rfl, { hdropped with told := congrArg (· ++ [event]) h.told }⟩
  | putAgain event =>
    have hrel := h.put? (.event event)
    rw [Barrier.advance, EventPipeline.advance]
    generalize p.put? (.event event) = next, q.queue.put? (.event event) = next' at hrel ⊢
    cases hrel with
    | none => exact ⟨rfl, { hdropped with }⟩
    | some hnext => exact ⟨rfl, hnext⟩
  | clearIdle => exact ⟨rfl, { h with idle := rfl }⟩
  | returned queued => exact ⟨rfl, h⟩
  | raised => exact ⟨rfl, h⟩

/-- The sender turns to something else, between batches. -/
theorem Refines.turn {p : Barrier config} {q : EventPipeline config} (h : Refines p q)
    (hhad : p.sender.had = []) (sender : Sending) (hhad' : sender.had = []) :
    Refines { p with sender := sender } { q with sender := sender.erase } :=
  { h with
    sender := rfl
    stats := by
      have hstats := h.stats
      rw [hhad] at hstats
      rw [hhad']
      exact hstats
    had := by rw [hhad']; exact Nat.zero_le _
    events := fun hne => absurd hhad' hne }

/-- The batch has been offered to all publishers, if there is anything to offer. -/
theorem Refines.deliver {p : Barrier config} {q : EventPipeline config} (h : Refines p q)
    {taken : List Queued} {had : List (Option String)} (hs : p.sender = .publish taken had)
    (hdone : (eventsOf taken).isEmpty ∨ config.publishers ≤ had.length) :
    Refines
      { p with
        delivered := p.delivered ++ [taken]
        sender := .taskDone taken.length (isStopping taken) }
      { q.deliver ((eventsOf taken).map Prod.snd) (fun i => had.getD i none) with
        sender := .taskDone taken.length (isStopping taken) } := by
  have hstats := h.stats
  have hhad := h.had
  have hevents := h.events
  rw [hs] at hstats hhad hevents
  unfold EventPipeline.deliver
  by_cases hnil : eventsOf taken = []
  · have hhad : had = [] := by_contra fun hne => hevents hne hnil
    rw [hnil, List.map_nil, if_pos rfl]
    exact { h with
      sender := rfl
      offered := by rw [h.offered]; simp [hnil]
      stats := by rw [hstats, hhad]; rfl
      had := Nat.zero_le _
      events := absurd rfl }
  · have hlength : had.length = config.publishers := by
      rcases hdone with hempty | hle
      · exact absurd (List.isEmpty_iff.mp hempty) hnil
      · exact Nat.le_antisymm hhad hle
    rw [if_neg (by simpa using hnil)]
    exact { h with
      sender := rfl
      offered := by
        have hsome : (!(eventsOf taken).isEmpty) = true := by simpa using hnil
        simp [h.offered, List.filter_append, hsome]
      stats := by
        rw [hstats, List.length_map, ← hlength]
        exact (foldl_range_getD had _ q.stats).symm
      had := Nat.zero_le _
      events := absurd rfl }

/-- **What the sender does, the pipeline does**, or will do when all publishers have had the
batch. -/
theorem Refines.send {p : Barrier config} {q : EventPipeline config} (h : Refines p q)
    (raises : Option String) : ∃ q', Goes q q' ∧ Refines (p.send raises) q' := by
  have hsender := h.sender
  have hwork : Goes q (q.send fun i => p.sender.had.getD i none) := .work (.send _)
  cases hs : p.sender with
  | get =>
    refine ⟨_, hwork, ?_⟩
    have hrel := h.queue.get?
    rw [hs] at hsender
    rw [Barrier.send, hs, EventPipeline.send, hsender]
    dsimp only [Sending.erase]
    generalize p.queue.get? = next, q.queue.get? = next' at hrel ⊢
    cases hrel with
    | none => exact h
    | @some queued next' hnext =>
      obtain ⟨hentry, hqueue⟩ := hnext
      dsimp only
      rw [hentry]
      exact { h.turn (by rw [hs]; rfl) (.takeMore [queued.1]) rfl with queue := hqueue }
  | takeMore taken =>
    refine ⟨_, hwork, ?_⟩
    have hrel := h.queue.get?
    have hturn := h.turn (by rw [hs]; rfl)
    rw [hs] at hsender
    rw [Barrier.send, hs, EventPipeline.send, hsender]
    dsimp only [Sending.erase]
    rw [List.length_map]
    split
    · generalize p.queue.get? = next, q.queue.get? = next' at hrel ⊢
      cases hrel with
      | none => exact hturn (.publish taken []) rfl
      | @some queued next' hnext =>
        obtain ⟨hentry, hqueue⟩ := hnext
        have hmap : taken.map Queued.entry ++ [next'.1]
            = (taken ++ [queued.1]).map Queued.entry := by
          rw [hentry, List.map_append, List.map_singleton]
        dsimp only
        rw [hmap]
        exact { hturn (.takeMore (taken ++ [queued.1])) rfl with queue := hqueue }
    · exact hturn (.publish taken []) rfl
  | publish taken had =>
    rw [hs] at hsender hwork
    rw [Barrier.send, hs]
    dsimp only
    split
    · next hdone =>
      -- only now does the other pipeline deliver
      refine ⟨_, hwork, ?_⟩
      rw [EventPipeline.send, hsender]
      dsimp only [Sending.erase, Sending.had]
      rw [filterMap_entry, List.length_map]
      exact h.deliver hs hdone
    · next hmore =>
      refine ⟨q, .waits, ?_⟩
      obtain ⟨hsome, hless⟩ := not_or.mp hmore
      have hstats := h.stats
      rw [hs] at hstats
      exact { h with
        sender := hsender
        stats := by
          rw [hstats]
          simp [Sending.had, Sending.batch, List.foldl_append]
        had := by simpa [Sending.had] using hless
        events := fun _ => by simpa [Sending.batch] using hsome }
  | taskDone left stopping =>
    refine ⟨_, hwork, ?_⟩
    have hrel := h.queue.taskDone?
    have hturn := h.turn (by rw [hs]; rfl)
    rw [hs] at hsender
    rw [Barrier.send, hs, EventPipeline.send, hsender]
    cases left with
    | zero => exact hturn (.checkEmpty stopping) rfl
    | succ left =>
      dsimp only [Sending.erase]
      generalize p.queue.taskDone? = next, q.queue.taskDone? = next' at hrel ⊢
      cases hrel with
      | none => exact hturn .exited rfl
      | some hqueue => exact { hturn (.taskDone left stopping) rfl with queue := hqueue }
  | checkEmpty stopping =>
    refine ⟨_, hwork, ?_⟩
    have hturn := h.turn (by rw [hs]; rfl)
    have hiff : p.queue.entries.isEmpty = true ↔ q.queue.entries = [] := by
      rw [h.queue.entries, List.map_eq_nil_iff, List.isEmpty_iff]
    rw [hs] at hsender
    rw [Barrier.send, hs, EventPipeline.send, hsender]
    dsimp only [Sending.erase]
    by_cases hempty : q.queue.entries = []
    · rw [if_pos hempty, if_pos (hiff.mpr hempty)]
      exact hturn (.setIdle stopping) rfl
    · rw [if_neg hempty, if_neg (mt hiff.mp hempty)]
      cases stopping with
      | true => exact hturn .exited rfl
      | false => exact hturn .get rfl
  | setIdle stopping =>
    refine ⟨_, hwork, ?_⟩
    have hturn := h.turn (by rw [hs]; rfl)
    rw [hs] at hsender
    rw [Barrier.send, hs, EventPipeline.send, hsender]
    cases stopping with
    | true => exact { hturn .exited rfl with idle := rfl }
    | false => exact { hturn .get rfl with idle := rfl }
  | exited =>
    refine ⟨q, .waits, ?_⟩
    rw [Barrier.send, hs]
    exact h

/-- **Each operation of the threads is one of the pipeline's, or none.** -/
theorem Refines.step {p : Barrier config} {q : EventPipeline config} (h : Refines p q) (a : Move) :
    ∃ q', Goes q q' ∧ Refines (p.step a) q' := by
  cases a with
  | submit event =>
    refine ⟨_, .submit event, ?_⟩
    have hcount := h.count (fun stats => { stats with submitted := stats.submitted + 1 })
      (by intro events stats raises; cases raises <;> rfl)
    exact { hcount with calls := by simp
      [Barrier.step, Barrier.submit, EventPipeline.submit, h.calls] }
  | advance i =>
    refine ⟨_, .work (.advance i), ?_⟩
    rw [Barrier.step, EventPipeline.work, h.calls, List.getElem?_map]
    cases p.calls[i]? with
    | none => exact h
    | some call =>
      obtain ⟨hphase, hnext⟩ := h.advance call.number call.phase
      dsimp only [Option.map_some]
      exact { hnext with calls := by rw [hphase, List.map_set] }
  | send raises => exact h.send raises
  | flush => exact ⟨q, .waits, { h with }⟩
  | wake i =>
    refine ⟨q, .waits, ?_⟩
    rw [Barrier.step]
    split
    · split
      · exact { h with }
      · exact h
    · exact h
  | giveUp i =>
    refine ⟨q, .waits, ?_⟩
    rw [Barrier.step]
    split
    · exact { h with }
    · exact h
  | stop drain =>
    refine ⟨q, .waits, ?_⟩
    rw [Barrier.step]
    split
    · exact { h with }
    · exact h
  | stopNext =>
    rw [Barrier.step]
    cases p.stopping with
    | put =>
      refine ⟨_, .work .stop, ?_⟩
      have hrel := h.put? .stop
      rw [EventPipeline.work]
      dsimp only
      generalize p.put? .stop = next, q.queue.put? .stop = next' at hrel ⊢
      cases hrel with
      | none => exact h
      | some hnext => exact { hnext with }
    | flush | join => exact ⟨q, .waits, { h with }⟩
    | notCalled | returned => exact ⟨q, .waits, h⟩

/-- The states of a pipeline that has been started. -/
inductive Reached : EventPipeline config → Prop
  | start : Reached {}
  | next {q q' : EventPipeline config} (h : Reached q) (hgoes : Goes q q') : Reached q'

/-- In each of them every event is accounted for. -/
theorem Reached.accounted {q : EventPipeline config} (h : Reached q) : q.Accounted := by
  induction h with
  | start => exact ⟨.refl _, rfl⟩
  | next _ hgoes ih =>
    cases hgoes with
    | waits => exact ih
    | submit event => exact ih.submit event
    | work m => exact ih.work m

/-- **Whatever the threads do, the pipeline with batches delivered at once does with them.** -/
theorem refines_run (config : PipelineConfig) (moves : List Move) :
    ∃ q, Reached q ∧ Refines (after config moves) q := by
  induction moves using List.reverseRecOn with
  | nil => exact ⟨{}, .start, ⟨⟨rfl, rfl⟩, rfl, rfl, rfl, rfl, rfl, rfl, Nat.zero_le _, absurd rfl⟩⟩
  | append_singleton moves a ih =>
    obtain ⟨q, hreached, hrefines⟩ := ih
    obtain ⟨q', hgoes, hnext⟩ := hrefines.step a
    rw [after_concat]
    exact ⟨q', hreached.next hgoes, hnext⟩

/-- The sender never marks an entry as done that is so already. -/
theorem unfinished_ne_zero {moves : List Move} {left : ℕ} {stopping : Bool}
    (hs : (after config moves).sender = .taskDone (left + 1) stopping) :
    (after config moves).queue.unfinished ≠ 0 := by
  obtain ⟨q, hreached, hrefines⟩ := refines_run config moves
  have hunfinished := hreached.accounted.unfinished
  rw [hrefines.queue.unfinished, hrefines.sender, hs] at hunfinished
  simp only [Sending.erase, Sender.owed] at hunfinished
  omega

end Barrier

end TaskflowMeter
