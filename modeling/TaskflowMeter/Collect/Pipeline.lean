import TaskflowMeter.Events
import TaskflowMeter.Lib.BoundedQueue

/-!
# The barrier between a running flow and everything downstream

Events go on a bounded queue, and a sender thread takes them off in batches and offers them
to publishers.  Calls of `submit`, the sender and `stop` interleave at their operations on
the queue and on the idle flag, each of which is atomic.

## Main definitions

* `Submit` — how far a call of `submit` has got.
* `Sender` — how far the sender has got.
* `EventPipeline` — the queue, the calls, the sender, and what became of the events.
* `EventPipeline.submit`, `EventPipeline.work` — a call begins; or something goes on by one
  operation.
* `EventPipeline.inFlight` — the events that are on their way.

## Main results

* `Accounted.work` — **every event that was submitted is on its way, offered or discarded,
  and is so once.**
* `Accounted.not_raised` — `submit` never raises.
-/

namespace TaskflowMeter

/-- What is on the queue: an event, or the sentinel that wakes the sender for shutdown. -/
inductive Entry where
  | event (event : Event)
  | stop
  deriving DecidableEq, Repr

def Entry.event? : Entry → Option Event
  | .event item => some item
  | .stop => none

/-- Counters worth exposing on a health endpoint. -/
structure PipelineStats where
  submitted : ℕ := 0
  delivered : ℕ := 0
  dropped : ℕ := 0
  errors : ℕ := 0
  lastError : Option String := none
  deriving DecidableEq, Repr

/-- A call of `submit`: what it is about to do. -/
inductive Submit where
  | put (event : Event)
  /-- The queue was full: discard the oldest. -/
  | makeRoom (event : Event)
  | taskDone (event : Event)
  /-- Count the drop, and tell the drop handler. -/
  | count (event : Event)
  | putAgain (event : Event)
  /-- The event is queued: clear the idle flag. -/
  | clearIdle
  | returned (queued : Bool)
  | raised
  deriving DecidableEq, Repr

/-- The event that a call still has. -/
def Submit.holding : Submit → List Event
  | put event | makeRoom event | taskDone event | count event | putAgain event => [event]
  | clearIdle | returned _ | raised => []

/-- How many entries a call has taken off the queue and not marked as done. -/
def Submit.owed : Submit → ℕ
  | taskDone _ => 1
  | _ => 0

/-- The sender: what it is about to do. -/
inductive Sender where
  /-- Wait for an entry. -/
  | get
  /-- Take what is already waiting, up to a batch. -/
  | takeMore (taken : List Entry)
  | deliver (taken : List Entry)
  | taskDone (left : ℕ) (stopping : Bool)
  | checkEmpty (stopping : Bool)
  | setIdle (stopping : Bool)
  | exited
  deriving DecidableEq, Repr

/-- The events that the sender still has. -/
def Sender.holding : Sender → List Event
  | takeMore taken | deliver taken => taken.filterMap Entry.event?
  | _ => []

/-- How many entries the sender has taken off the queue and not marked as done. -/
def Sender.owed : Sender → ℕ
  | takeMore taken | deliver taken => taken.length
  | taskDone left _ => left
  | _ => 0

/-- What a pipeline is built with. -/
structure PipelineConfig where
  maxQueue : ℕ := 1000
  batchSize : ℕ := 100
  /-- How many publishers there are. -/
  publishers : ℕ := 1
  one_le_maxQueue : 1 ≤ maxQueue := by decide
  one_le_batchSize : 1 ≤ batchSize := by decide

def PipelineConfig.init (publishers : ℕ) (maxQueue : ℕ := 1000) (batchSize : ℕ := 100) :
    Except String PipelineConfig :=
  if h : 1 ≤ maxQueue then
    if h' : 1 ≤ batchSize then
      .ok
        { maxQueue := maxQueue
          batchSize := batchSize
          publishers := publishers
          one_le_maxQueue := h
          one_le_batchSize := h' }
    else .error "batch_size must be at least 1"
  else .error "max_queue must be at least 1"

/-- A pipeline that has been started. -/
structure EventPipeline (config : PipelineConfig) where
  queue : BoundedQueue Entry config.maxQueue := {}
  idle : Bool := true
  stats : PipelineStats := {}
  calls : List Submit := []
  sender : Sender := .get
  /-- The events submitted, the batches offered to the publishers, the events discarded,
  and the ones the drop handler was told of. -/
  submitted : List Event := []
  offered : List (List Event) := []
  discarded : List Event := []
  told : List Event := []

namespace EventPipeline

variable {config : PipelineConfig}

/-- A call of `submit` begins. -/
def submit (p : EventPipeline config) (event : Event) : EventPipeline config :=
  { p with
    calls := p.calls ++ [.put event]
    stats := { p.stats with submitted := p.stats.submitted + 1 }
    submitted := p.submitted ++ [event] }

/-- The next operation of a call. -/
def advance (p : EventPipeline config) : Submit → EventPipeline config × Submit
  | .put event =>
    match p.queue.put? (.event event) with
    | some queue => ({ p with queue := queue }, .clearIdle)
    | none => (p, .makeRoom event)
  | .makeRoom event =>
    match p.queue.get? with
    -- the oldest entry may be the sentinel, which is then lost
    | some (entry, queue) =>
        ({ p with queue := queue, discarded := p.discarded ++ entry.event?.toList },
          .taskDone event)
    | none => (p, .count event)
  | .taskDone event =>
    match p.queue.taskDone? with
    | some queue => ({ p with queue := queue }, .count event)
    | none => (p, .raised)
  | .count event =>
    -- the handler is told of the event that is let in, not of the one that has gone
    ({ p with
        stats := { p.stats with dropped := p.stats.dropped + 1 }
        told := p.told ++ [event] },
      .putAgain event)
  | .putAgain event =>
    match p.queue.put? (.event event) with
    | some queue => ({ p with queue := queue }, .clearIdle)
    -- another producer has been quicker
    | none =>
        ({ p with
            stats := { p.stats with dropped := p.stats.dropped + 1 }
            discarded := p.discarded ++ [event] },
          .returned false)
  | .clearIdle => ({ p with idle := false }, .returned true)
  | .returned queued => (p, .returned queued)
  | .raised => (p, .raised)

/-- Offer a batch to every publisher in turn.  One that raises is counted. -/
def deliver (p : EventPipeline config) (events : List Event) (raises : ℕ → Option String) :
    EventPipeline config :=
  if events = [] then p
  else
    { p with
      offered := p.offered ++ [events]
      stats := (List.range config.publishers).foldl (fun stats i =>
        match raises i with
        | none => { stats with delivered := stats.delivered + events.length }
        | some e => { stats with errors := stats.errors + 1, lastError := some e }) p.stats }

/-- The next operation of the sender. -/
def send (p : EventPipeline config) (raises : ℕ → Option String) : EventPipeline config :=
  match p.sender with
  | .get =>
    match p.queue.get? with
    | some (entry, queue) => { p with queue := queue, sender := .takeMore [entry] }
    | none => p
  | .takeMore taken =>
    if taken.length < config.batchSize then
      match p.queue.get? with
      | some (entry, queue) => { p with queue := queue, sender := .takeMore (taken ++ [entry]) }
      | none => { p with sender := .deliver taken }
    else { p with sender := .deliver taken }
  | .deliver taken =>
    { p.deliver (taken.filterMap Entry.event?) raises with
      sender := .taskDone taken.length (taken.contains .stop) }
  | .taskDone (left + 1) stopping =>
    match p.queue.taskDone? with
    | some queue => { p with queue := queue, sender := .taskDone left stopping }
    | none => { p with sender := .exited }
  | .taskDone 0 stopping => { p with sender := .checkEmpty stopping }
  | .checkEmpty stopping =>
    -- a producer may have put an event since the batch was taken
    if p.queue.entries = [] then { p with sender := .setIdle stopping }
    else { p with sender := if stopping then .exited else .get }
  | .setIdle stopping => { p with idle := true, sender := if stopping then .exited else .get }
  | .exited => p

/-- What goes on while events are submitted. -/
inductive Work where
  /-- The `i`-th call goes on. -/
  | advance (i : ℕ)
  /-- The sender goes on; the `i`-th publisher may raise. -/
  | send (raises : ℕ → Option String)
  /-- The sentinel is put on the queue, if there is room. -/
  | stop

def work (p : EventPipeline config) : Work → EventPipeline config
  | .advance i =>
    match p.calls[i]? with
    | some call =>
        let next := p.advance call
        { next.1 with calls := p.calls.set i next.2 }
    | none => p
  | .send raises => p.send raises
  | .stop =>
    match p.queue.put? .stop with
    | some queue => { p with queue := queue }
    | none => p

/-- The events that are on their way: with a call, on the queue or with the sender. -/
def inFlight (p : EventPipeline config) : List Event :=
  p.calls.flatMap Submit.holding ++ p.queue.entries.filterMap Entry.event? ++ p.sender.holding

/-! ### The events on the queue -/

/-- An entry that is put on brings its event, if it is one. -/
theorem count_put {maxsize : ℕ} {queue queue' : BoundedQueue Entry maxsize} {entry : Entry}
    (h : queue.put? entry = some queue') (e : Event) :
    (queue'.entries.filterMap Entry.event?).count e
      = (queue.entries.filterMap Entry.event?).count e + entry.event?.toList.count e := by
  rw [(BoundedQueue.put?_eq_some h).1, List.filterMap_append, List.count_append]
  cases entry <;> rfl

/-- One that is taken off takes it along. -/
theorem count_get {maxsize : ℕ} {queue queue' : BoundedQueue Entry maxsize} {entry : Entry}
    (h : queue.get? = some (entry, queue')) (e : Event) :
    (queue.entries.filterMap Entry.event?).count e
      = entry.event?.toList.count e + (queue'.entries.filterMap Entry.event?).count e := by
  rw [(BoundedQueue.get?_eq_some h).1, ← List.singleton_append, List.filterMap_append,
    List.count_append]
  cases entry <;> rfl

/-! ### What becomes of events -/

/-- **Every event that was submitted is on its way, offered or discarded**, and every entry
taken off the queue will be marked as done. -/
structure Accounted (p : EventPipeline config) : Prop where
  perm : p.submitted.Perm (p.inFlight ++ p.offered.flatten ++ p.discarded)
  unfinished : p.queue.unfinished
    = p.queue.entries.length + (p.calls.map Submit.owed).sum + p.sender.owed

/-- The same, counted. -/
theorem accounted_iff {p : EventPipeline config} :
    Accounted p ↔ (∀ e, p.submitted.count e
        = (p.calls.map fun c => c.holding.count e).sum
          + (p.queue.entries.filterMap Entry.event?).count e + p.sender.holding.count e
          + p.offered.flatten.count e + p.discarded.count e)
      ∧ p.queue.unfinished
        = p.queue.entries.length + (p.calls.map Submit.owed).sum + p.sender.owed := by
  -- a permutation is an equality of counts, which `omega` can deal with
  have hcount : ∀ e, (p.inFlight ++ p.offered.flatten ++ p.discarded).count e
      = (p.calls.map fun c => c.holding.count e).sum
        + (p.queue.entries.filterMap Entry.event?).count e + p.sender.holding.count e
        + p.offered.flatten.count e + p.discarded.count e := by
    intro e
    rw [inFlight, List.count_append, List.count_append, List.count_append, List.count_append,
      List.count_flatMap]
    rfl
  constructor
  · rintro ⟨hperm, hunfinished⟩
    exact ⟨fun e => (hperm.count_eq e).trans (hcount e), hunfinished⟩
  · rintro ⟨hcounts, hunfinished⟩
    exact ⟨List.perm_iff_count.mpr fun e => (hcounts e).trans (hcount e).symm, hunfinished⟩

theorem Accounted.submit {p : EventPipeline config} (h : Accounted p) (event : Event) :
    Accounted (p.submit event) := by
  rw [accounted_iff] at h ⊢
  obtain ⟨hcounts, hunfinished⟩ := h
  refine ⟨?_, ?_⟩
  · intro e
    have hcount := hcounts e
    simp only [EventPipeline.submit, List.map_append, List.sum_append, List.count_append,
      List.map_cons, List.map_nil, List.sum_cons, List.sum_nil]
    show _ + List.count e [event] = _ + (List.count e [event] + 0) + _ + _ + _ + _
    omega
  · simpa [EventPipeline.submit, Submit.owed] using hunfinished

/-- **What an operation of a call does**: the event and the entry stay accounted for. -/
theorem advance_spec {p : EventPipeline config} {c : Submit} (howed : c.owed ≤ p.queue.unfinished) :
    ((p.advance c).1.calls = p.calls ∧ (p.advance c).1.submitted = p.submitted
        ∧ (p.advance c).1.offered = p.offered ∧ (p.advance c).1.sender = p.sender)
      ∧ (∀ e, (p.advance c).2.holding.count e
          + ((p.advance c).1.queue.entries.filterMap Entry.event?).count e
          + (p.advance c).1.discarded.count e
        = c.holding.count e + (p.queue.entries.filterMap Entry.event?).count e
          + p.discarded.count e)
      ∧ (p.advance c).1.queue.unfinished + p.queue.entries.length + c.owed
        = p.queue.unfinished + (p.advance c).1.queue.entries.length + (p.advance c).2.owed := by
  cases c with
  | put event =>
    rw [advance]
    cases hput : p.queue.put? (.event event) with
    | none => exact ⟨⟨rfl, rfl, rfl, rfl⟩, fun e => rfl, rfl⟩
    | some queue =>
      obtain ⟨hentries, hunfinished⟩ := BoundedQueue.put?_eq_some hput
      refine ⟨⟨rfl, rfl, rfl, rfl⟩, ?_, ?_⟩
      · intro e
        have hcount := count_put hput e
        simp only [Entry.event?, Option.toList_some, Submit.holding, List.count_nil] at hcount ⊢
        omega
      · simp only [hentries, hunfinished, Submit.owed, List.length_append, List.length_singleton]
        omega
  | makeRoom event =>
    rw [advance]
    cases hget : p.queue.get? with
    | none => exact ⟨⟨rfl, rfl, rfl, rfl⟩, fun e => rfl, rfl⟩
    | some next =>
      obtain ⟨entry, queue⟩ := next
      obtain ⟨hentries, hunfinished⟩ := BoundedQueue.get?_eq_some hget
      refine ⟨⟨rfl, rfl, rfl, rfl⟩, ?_, ?_⟩
      · intro e
        have hcount := count_get hget e
        simp only [Submit.holding, List.count_append]
        omega
      · simp only [hentries, hunfinished, Submit.owed, List.length_cons]
        omega
  | taskDone event =>
    rw [advance]
    cases hdone : p.queue.taskDone? with
    | none =>
      -- the entry that the call owes is still unfinished
      rw [BoundedQueue.taskDone?_eq_none_iff] at hdone
      rw [hdone] at howed
      exact absurd howed (by simp [Submit.owed])
    | some queue =>
      obtain ⟨hentries, hunfinished⟩ := BoundedQueue.taskDone?_eq_some hdone
      refine ⟨⟨rfl, rfl, rfl, rfl⟩, ?_, ?_⟩
      · intro e
        simp only [hentries, Submit.holding]
      · simp only [hentries, hunfinished, Submit.owed]
        omega
  | count event => exact ⟨⟨rfl, rfl, rfl, rfl⟩, fun e => rfl, rfl⟩
  | putAgain event =>
    rw [advance]
    cases hput : p.queue.put? (.event event) with
    | none =>
      refine ⟨⟨rfl, rfl, rfl, rfl⟩, ?_, rfl⟩
      intro e
      simp only [Submit.holding, List.count_append, List.count_nil]
      omega
    | some queue =>
      obtain ⟨hentries, hunfinished⟩ := BoundedQueue.put?_eq_some hput
      refine ⟨⟨rfl, rfl, rfl, rfl⟩, ?_, ?_⟩
      · intro e
        have hcount := count_put hput e
        simp only [Entry.event?, Option.toList_some, Submit.holding, List.count_nil] at hcount ⊢
        omega
      · simp only [hentries, hunfinished, Submit.owed, List.length_append, List.length_singleton]
        omega
  | clearIdle => exact ⟨⟨rfl, rfl, rfl, rfl⟩, fun e => rfl, rfl⟩
  | returned queued => exact ⟨⟨rfl, rfl, rfl, rfl⟩, fun e => rfl, rfl⟩
  | raised => exact ⟨⟨rfl, rfl, rfl, rfl⟩, fun e => rfl, rfl⟩

theorem Accounted.advance {p : EventPipeline config} (h : Accounted p) {i : ℕ} {c : Submit}
    (hc : p.calls[i]? = some c) :
    Accounted { (p.advance c).1 with calls := p.calls.set i (p.advance c).2 } := by
  rw [accounted_iff] at h ⊢
  obtain ⟨hcounts, hunfinished⟩ := h
  -- what one call owes is among what is unfinished
  have howed : c.owed ≤ p.queue.unfinished := by
    have hle := List.le_sum_of_mem
        (List.mem_map_of_mem (f := Submit.owed) (List.mem_of_getElem? hc))
    omega
  obtain ⟨⟨-, hsubmitted, hoffered, hsender⟩, hevents, hentries⟩ := advance_spec howed
  refine ⟨?_, ?_⟩
  · intro e
    have hcount := hcounts e
    have hevent := hevents e
    have hset := sum_map_set hc (p.advance c).2 fun c => c.holding.count e
    simp only [hsubmitted, hoffered, hsender]
    omega
  · have hset := sum_map_set hc (p.advance c).2 Submit.owed
    simp only [hsender]
    omega

theorem Accounted.send {p : EventPipeline config} (h : Accounted p) (raises : ℕ → Option String) :
    Accounted (p.send raises) := by
  rw [accounted_iff] at h ⊢
  obtain ⟨hcounts, hunfinished⟩ := h
  rw [EventPipeline.send]
  cases hsender : p.sender with
  | get =>
    rw [hsender] at hcounts hunfinished
    dsimp only
    cases hget : p.queue.get? with
    | none => exact ⟨by rw [hsender]; exact hcounts, by rw [hsender]; exact hunfinished⟩
    | some next =>
      obtain ⟨entry, queue⟩ := next
      obtain ⟨hentries, hdone⟩ := BoundedQueue.get?_eq_some hget
      refine ⟨?_, ?_⟩
      · intro e
        have hcount := hcounts e
        have htaken := count_get hget e
        cases entry <;>
          simp only [Sender.holding, List.filterMap_cons, List.filterMap_nil, Entry.event?,
            Option.toList_some, Option.toList_none, List.count_nil] at hcount htaken ⊢ <;>
          omega
      · simp only [hentries, hdone, Sender.owed, List.length_cons, List.length_nil] at hunfinished ⊢
        omega
  | takeMore taken =>
    rw [hsender] at hcounts hunfinished
    dsimp only
    split
    · cases hget : p.queue.get? with
      | none => exact ⟨hcounts, hunfinished⟩
      | some next =>
        obtain ⟨entry, queue⟩ := next
        obtain ⟨hentries, hdone⟩ := BoundedQueue.get?_eq_some hget
        refine ⟨?_, ?_⟩
        · intro e
          have hcount := hcounts e
          have htaken := count_get hget e
          cases entry <;>
            simp only [Sender.holding, List.filterMap_append, List.filterMap_cons,
              List.filterMap_nil, Entry.event?, List.count_append, Option.toList_some,
              Option.toList_none, List.count_nil] at hcount htaken ⊢ <;>
            omega
        · simp only [hentries, hdone, Sender.owed, List.length_append, List.length_cons,
            List.length_nil] at hunfinished ⊢
          omega
    · exact ⟨hcounts, hunfinished⟩
  | deliver taken =>
    rw [hsender] at hcounts hunfinished
    dsimp only
    rw [EventPipeline.deliver]
    split
    · next hnil =>
      refine ⟨?_, hunfinished⟩
      intro e
      have hcount := hcounts e
      simp only [Sender.holding, hnil, List.count_nil] at hcount ⊢
      exact hcount
    · refine ⟨?_, hunfinished⟩
      intro e
      have hcount := hcounts e
      simp only [Sender.holding, List.flatten_append, List.flatten_singleton, List.count_append,
        List.count_nil] at hcount ⊢
      omega
  | taskDone left stopping =>
    rw [hsender] at hcounts hunfinished
    cases left with
    | zero => exact ⟨hcounts, hunfinished⟩
    | succ left =>
      dsimp only
      cases hdone : p.queue.taskDone? with
      | none =>
        -- the entries that the sender owes are still unfinished
        rw [BoundedQueue.taskDone?_eq_none_iff] at hdone
        simp only [hdone, Sender.owed] at hunfinished
        omega
      | some queue =>
        obtain ⟨hentries, hless⟩ := BoundedQueue.taskDone?_eq_some hdone
        refine ⟨?_, ?_⟩
        · simp only [hentries]
          exact hcounts
        · simp only [hentries, Sender.owed] at hunfinished ⊢
          omega
  | checkEmpty stopping =>
    rw [hsender] at hcounts hunfinished
    dsimp only
    split
    · exact ⟨hcounts, hunfinished⟩
    · cases stopping <;> exact ⟨hcounts, hunfinished⟩
  | setIdle stopping =>
    rw [hsender] at hcounts hunfinished
    cases stopping <;> exact ⟨hcounts, hunfinished⟩
  | exited => exact ⟨by rw [hsender]; rwa [hsender] at hcounts, by
      rw [hsender]; rwa [hsender] at hunfinished⟩

/-- **Whatever goes on, every event stays accounted for.** -/
theorem Accounted.work {p : EventPipeline config} (h : Accounted p) (m : Work) :
    Accounted (p.work m) := by
  cases m with
  | advance i =>
    rw [EventPipeline.work]
    cases hc : p.calls[i]? with
    | none => exact h
    | some c => exact h.advance hc
  | send raises => exact h.send raises
  | stop =>
    rw [EventPipeline.work]
    cases hput : p.queue.put? .stop with
    | none => exact h
    | some queue =>
      rw [accounted_iff] at h ⊢
      obtain ⟨hcounts, hunfinished⟩ := h
      obtain ⟨hentries, hmore⟩ := BoundedQueue.put?_eq_some hput
      refine ⟨?_, ?_⟩
      · intro e
        have hcount := count_put hput e
        exact hcount ▸ hcounts e
      · simp only [hentries, hmore, List.length_append, List.length_singleton]
        omega

/-- What the sender leaves to the calls. -/
theorem send_frame (p : EventPipeline config) (raises : ℕ → Option String) :
    (p.send raises).calls = p.calls ∧ (p.send raises).submitted = p.submitted
      ∧ (p.send raises).discarded = p.discarded ∧ (p.send raises).told = p.told := by
  rw [send]
  split
  · split <;> exact ⟨rfl, rfl, rfl, rfl⟩
  · split
    · split <;> exact ⟨rfl, rfl, rfl, rfl⟩
    · exact ⟨rfl, rfl, rfl, rfl⟩
  · rw [deliver]
    split <;> exact ⟨rfl, rfl, rfl, rfl⟩
  · split <;> exact ⟨rfl, rfl, rfl, rfl⟩
  · exact ⟨rfl, rfl, rfl, rfl⟩
  · split <;> exact ⟨rfl, rfl, rfl, rfl⟩
  · exact ⟨rfl, rfl, rfl, rfl⟩
  · exact ⟨rfl, rfl, rfl, rfl⟩

/-- Only submitting adds to what is submitted. -/
theorem submitted_work (p : EventPipeline config) (m : Work) :
    (p.work m).submitted = p.submitted := by
  cases m with
  | advance i =>
    rw [work]
    cases p.calls[i]? with
    | none => rfl
    | some c => cases c <;> simp only [advance] <;> split <;> rfl
  | send raises => exact (p.send_frame raises).2.1
  | stop =>
    rw [work]
    split <;> rfl

/-- **No call of `submit` ever raises.** -/
theorem Accounted.not_raised {p : EventPipeline config} (h : Accounted p)
    (hnot : Submit.raised ∉ p.calls) (m : Work) : Submit.raised ∉ (p.work m).calls := by
  cases m with
  | advance i =>
    rw [EventPipeline.work]
    cases hc : p.calls[i]? with
    | none => exact hnot
    | some c =>
      intro hmem
      rcases List.mem_or_eq_of_mem_set hmem with hmem | heq
      · exact hnot hmem
      · cases c with
        | taskDone event =>
          -- the only operation that could raise, if nothing were unfinished
          have howed := List.le_sum_of_mem (List.mem_map_of_mem (f := Submit.owed)
            (List.mem_of_getElem? hc))
          have hunfinished := h.unfinished
          simp only [EventPipeline.advance] at heq
          cases hdone : p.queue.taskDone? with
          | none =>
            rw [BoundedQueue.taskDone?_eq_none_iff] at hdone
            simp only [Submit.owed] at howed
            omega
          | some queue => rw [hdone] at heq; cases heq
        | raised => exact hnot (List.mem_of_getElem? hc)
        | put event | makeRoom event | putAgain event =>
          simp only [EventPipeline.advance] at heq
          split at heq <;> cases heq
        | count event | clearIdle | returned queued => cases heq
  | send raises => rwa [EventPipeline.work, (p.send_frame raises).1]
  | stop =>
    rw [EventPipeline.work]
    split <;> exact hnot

end EventPipeline

end TaskflowMeter
