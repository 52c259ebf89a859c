import TaskflowMeter.Client
import TaskflowMeter.Diff
import TaskflowMeter.Lib.Runs

/-!
# Watching a source

The poller reads whatever a source can see, diffs each flow against what it saw last
time and feeds the events to a sink.  A poll is a pass over the flows that were read,
and is modelled by its steps: each diff, and each write to the sink, is one.

## Main definitions

* `PollStats`, `Poller` — what a poller remembers from one poll to the next.
* `Pass` — a poll in progress: the flows not looked at yet, and the events not written.
* `Watching` — the poller, its sink and a client of the sink.
* `Watching.step` — a poll begins, goes on by one step, or the client asks for a page.

## Main results

* `Counted` — **the events produced for each run so far are numbered 1, 2, 3, …**
* `work_feeds`, `Fed` — what is written reaches the sink, and nothing else does.
* `Remembers` — the poller remembers exactly what the last poll saw.
-/

namespace TaskflowMeter

open Consecutive Runs

/-- Counters worth exposing on a health endpoint. -/
structure PollStats where
  polls : ℕ := 0
  events : ℕ := 0
  errors : ℕ := 0
  flowsSeen : ℕ := 0
  lastError : Option String := none
  deriving DecidableEq

/-- What a poller remembers.  Every flow that the source still reports is kept as last
seen, under its own id. -/
structure Poller where
  allocator : SequenceAllocator := {}
  previous : Dict String FlowSnapshot := ∅
  stats : PollStats := {}
  previous_keyed : ∀ r s, previous.get? r = some s → s.runId = r := by simp

/-- A poll in progress. -/
structure Pass where
  /-- The flows that were read and not looked at yet. -/
  pending : List FlowSnapshot
  /-- Those that were, as they will be remembered. -/
  seen : Dict String FlowSnapshot := ∅
  emitted : ℕ := 0
  /-- The events of the last diff that are not written yet. -/
  outbox : List Event := []
  seen_keyed : ∀ r s, seen.get? r = some s → s.runId = r := by simp

/-- A poller, its sink, and a client that reads one run from the sink.  `produced` and
`applied` are the events of all diffs so far, and those of them that are written;
`content` is what the last poll that ended had read, `reading` what the one in progress
has, and `polled` what all polls have. -/
structure Watching where
  poller : Poller := {}
  sink : WritableDataSource
  client : Client := {}
  pass : Option Pass := none
  produced : List Event := []
  applied : List Event := []
  content : List FlowSnapshot := []
  reading : List FlowSnapshot := []
  polled : List FlowSnapshot := []

namespace Watching

/-- Look at the next flow: remember it, and diff it against what was seen last time. -/
def look (w : Watching) (pass : Pass) (snapshot : FlowSnapshot) (rest : List FlowSnapshot) :
    Watching :=
  match diffFlow (w.poller.previous.get? snapshot.runId) snapshot w.poller.allocator
      (some snapshot.observedAt) with
  | .error _ => { w with pass := none }
  | .ok (events, allocator) =>
      { w with
        poller := { w.poller with allocator := allocator }
        pass := some
          { pending := rest
            seen := pass.seen.set snapshot.runId snapshot
            emitted := pass.emitted
            outbox := events
            seen_keyed := by
              intro r s hs
              rw [Dict.get?_set] at hs
              split at hs
              · next h => rw [h, ← Option.some.inj hs]
              · exact pass.seen_keyed r s hs }
        produced := w.produced ++ events }

/-- Write to the sink: an event at a time in memory, the events of the diff in one
transaction in a database. -/
def write (w : Watching) (pass : Pass) (event : Event) (rest : List Event) : Watching :=
  match w.sink with
  | .memory _ =>
      { w with
        sink := w.sink.applyMany [event]
        pass := some { pass with emitted := pass.emitted + 1, outbox := rest }
        applied := w.applied ++ [event] }
  | .sqlalchemy _ =>
      { w with
        sink := w.sink.applyMany (event :: rest)
        pass := some { pass with emitted := pass.emitted + (event :: rest).length, outbox := [] }
        applied := w.applied ++ (event :: rest) }

/-- The pass is over: remember what was seen. -/
def finish (w : Watching) (pass : Pass) : Watching :=
  { w with
    poller :=
      { w.poller with
        previous := pass.seen
        stats := { w.poller.stats with
          polls := w.poller.stats.polls + 1
          events := w.poller.stats.events + pass.emitted
          flowsSeen := pass.seen.keys.length }
        previous_keyed := pass.seen_keyed }
    pass := none
    content := w.reading }

/-- One step of the poll in progress. -/
def work (w : Watching) : Watching :=
  match w.pass with
  | none => w
  | some pass =>
    match pass.outbox, pass.pending with
    -- a diff is written before the next flow is looked at
    | event :: rest, _ => w.write pass event rest
    | [], snapshot :: rest => w.look pass snapshot rest
    | [], [] => w.finish pass

/-- What may happen. -/
inductive Move where
  /-- A poll begins: the source reports these flows, over all its pages. -/
  | poll (content : List FlowSnapshot)
  | work
  /-- The client asks for its next page. -/
  | call (limit : ℤ)

/-- A poll begins only when the one before it is over. -/
def step (runId : String) (w : Watching) : Move → Watching
  | .poll content =>
    match w.pass with
    -- the flows are read before any of them is looked at
    | none =>
        { w with
          pass := some { pending := content }
          reading := content
          polled := w.polled ++ content }
    | some _ => w
  | .work => w.work
  | .call limit => { w with client := w.client.call (w.sink.eventsSince runId) limit }

/-- What was read of a run last, among some flows. -/
def lastRead (runId : String) (content : List FlowSnapshot) : Option FlowSnapshot :=
  (content.filter (·.runId = runId)).getLast?

/-! ### Numbering -/

/-- **The events produced for each run are numbered 1, 2, 3, …**, the allocator holds the
last number, and what is not in the outbox is written. -/
structure Counted (w : Watching) : Prop where
  isRun : ∀ r, IsRun 1 ((ofRun r w.produced).map Event.seq)
  peek : ∀ r, w.poller.allocator.peek r = (ofRun r w.produced).length
  produced : w.produced = w.applied ++ (w.pass.map (·.outbox)).getD []

/-- Looking at a flow never fails: it is diffed against the same run. -/
theorem look_eq (w : Watching) (pass : Pass) (snapshot : FlowSnapshot) (rest : List FlowSnapshot) :
    ∃ events allocator,
      stampAll snapshot.runId snapshot.observedAt w.poller.allocator
          (diffEvents (w.poller.previous.get? snapshot.runId) snapshot) = (events, allocator)
        ∧ (w.look pass snapshot rest).poller = { w.poller with allocator := allocator }
        ∧ (w.look pass snapshot rest).sink = w.sink
        ∧ (w.look pass snapshot rest).client = w.client
        ∧ (∃ p, (w.look pass snapshot rest).pass = some p ∧ p.pending = rest
            ∧ p.seen = pass.seen.set snapshot.runId snapshot ∧ p.outbox = events)
        ∧ (w.look pass snapshot rest).produced = w.produced ++ events
        ∧ (w.look pass snapshot rest).applied = w.applied
        ∧ (w.look pass snapshot rest).content = w.content
        ∧ (w.look pass snapshot rest).reading = w.reading
        ∧ (w.look pass snapshot rest).polled = w.polled := by
  have hrun : ∀ o ∈ w.poller.previous.get? snapshot.runId, o.runId = snapshot.runId :=
    fun o ho => w.poller.previous_keyed _ o ho
  have hdiff := diffFlow_eq_ok hrun w.poller.allocator (some snapshot.observedAt)
  refine ⟨_, _, rfl, ?_⟩
  unfold look
  rw [hdiff]
  exact ⟨rfl, rfl, rfl, ⟨_, rfl, rfl, rfl, rfl⟩, rfl, rfl, rfl, rfl, rfl⟩

/-- **What a write does**, to either sink: a batch leaves the outbox and reaches the sink. -/
theorem write_eq (w : Watching) (pass : Pass) (event : Event) (rest : List Event) :
    ∃ batch p, event :: rest = batch ++ p.outbox
      ∧ (w.write pass event rest).pass = some p ∧ p.pending = pass.pending ∧ p.seen = pass.seen
      ∧ (w.write pass event rest).sink = w.sink.applyMany batch
      ∧ (w.write pass event rest).applied = w.applied ++ batch
      ∧ (w.write pass event rest).poller = w.poller
      ∧ (w.write pass event rest).client = w.client
      ∧ (w.write pass event rest).produced = w.produced
      ∧ (w.write pass event rest).content = w.content
      ∧ (w.write pass event rest).reading = w.reading
      ∧ (w.write pass event rest).polled = w.polled := by
  rw [write]
  cases hsink : w.sink with
  | memory store =>
    exact ⟨[event], _, rfl, rfl, rfl, rfl, rfl, rfl, rfl, rfl, rfl, rfl, rfl, rfl⟩
  | sqlalchemy store =>
    refine ⟨event :: rest, _, ?_, rfl, rfl, rfl, rfl, rfl, rfl, rfl, rfl, rfl, rfl, rfl⟩
    exact (List.append_nil _).symm

theorem Counted.look {w : Watching} (h : Counted w) {pass : Pass} (hpass : w.pass = some pass)
    (hout : pass.outbox = []) (snapshot : FlowSnapshot) (rest : List FlowSnapshot) :
    Counted (w.look pass snapshot rest) := by
  obtain ⟨events, allocator, hstamp, hpoller, -, -, ⟨p, hp, -, -, hpout⟩, hproduced, happlied, -⟩ :=
    look_eq w pass snapshot rest
  have hevents : (stampAll snapshot.runId snapshot.observedAt w.poller.allocator
      (diffEvents (w.poller.previous.get? snapshot.runId) snapshot)).1 = events := by rw [hstamp]
  have hof : ∀ e ∈ events, e.runId = snapshot.runId := by
    rw [← hevents]
    exact runId_of_mem_stampAll fun e he => runId_of_mem_diffEvents he
  have hseq : IsRun (w.poller.allocator.peek snapshot.runId + 1) (events.map Event.seq) := by
    rw [← hevents]
    exact isRun_seq_stampAll _ _ _ _
  have hlen : events.length
      = (diffEvents (w.poller.previous.get? snapshot.runId) snapshot).length := by
    rw [← hevents, length_stampAll]
  have hpeek : ∀ r, allocator.peek r
      = if r = snapshot.runId then w.poller.allocator.peek snapshot.runId + events.length
        else w.poller.allocator.peek r := by
    intro r
    have hp := peek_stampAll snapshot.runId r snapshot.observedAt w.poller.allocator
      (diffEvents (w.poller.previous.get? snapshot.runId) snapshot)
    rwa [hstamp, ← hlen] at hp
  refine ⟨?_, ?_, ?_⟩
  · intro r
    rw [hproduced, ofRun_append, List.map_append, isRun_append]
    refine ⟨h.isRun r, ?_⟩
    by_cases hr : r = snapshot.runId
    · rw [hr, ofRun_eq_self hof, List.length_map, add_comm, ← h.peek]
      exact hseq
    · rw [ofRun_eq_nil hof hr]
      trivial
  · intro r
    rw [hpoller, hproduced, ofRun_append, List.length_append]
    show allocator.peek r = _
    rw [hpeek]
    split
    · next hr =>
      rw [hr, ofRun_eq_self hof, h.peek]
      push_cast
      rfl
    · next hr =>
      rw [ofRun_eq_nil hof hr, h.peek]
      simp
  · have hprev := h.produced
    rw [hpass, Option.map_some, Option.getD_some, hout, List.append_nil] at hprev
    rw [hproduced, happlied, hp, Option.map_some, Option.getD_some, hpout, hprev]

theorem Counted.write {w : Watching} (h : Counted w) {pass : Pass} (hpass : w.pass = some pass)
    {event : Event} {rest : List Event} (hout : pass.outbox = event :: rest) :
    Counted (w.write pass event rest) := by
  obtain ⟨batch, p, hbatch, hp, -, -, -, happlied, hpoller, -, hproduced, -⟩ :=
    write_eq w pass event rest
  have hprev := h.produced
  rw [hpass, Option.map_some, Option.getD_some, hout, hbatch] at hprev
  refine ⟨by rw [hproduced]; exact h.isRun, by rw [hpoller, hproduced]; exact h.peek, ?_⟩
  rw [hproduced, happlied, hp, Option.map_some, Option.getD_some, hprev, List.append_assoc]

theorem Counted.step {w : Watching} (h : Counted w) (runId : String) (m : Move) :
    Counted (w.step runId m) := by
  cases m with
  | poll content =>
    rw [Watching.step]
    cases hpass : w.pass with
    | none =>
      have hprev := h.produced
      rw [hpass] at hprev
      exact ⟨h.isRun, h.peek, hprev⟩
    | some pass => exact h
  | call limit => exact ⟨h.isRun, h.peek, h.produced⟩
  | work =>
    show Counted w.work
    rw [work]
    cases hpass : w.pass with
    | none => exact h
    | some pass =>
      dsimp only
      split
      · next event rest hout => exact h.write hpass hout
      · next snapshot rest hout hpend => exact h.look hpass hout snapshot rest
      · next hout hpend =>
        have hprev := h.produced
        rw [hpass, Option.map_some, Option.getD_some, hout] at hprev
        exact ⟨h.isRun, h.peek, hprev⟩

theorem counted_new (sink : WritableDataSource) : Counted { sink := sink } :=
  ⟨fun _ => trivial, fun _ => rfl, rfl⟩

theorem counted_run (sink : WritableDataSource) (runId : String) (moves : List Move) :
    Counted (run (step runId) { sink := sink } moves) := by
  induction moves using List.reverseRecOn with
  | nil => exact counted_new sink
  | append_singleton moves m ih =>
    rw [run_concat]
    exact ih.step runId m

/-! ### The sink -/

/-- What is written reaches the sink, in batches. -/
def Fed (sink : WritableDataSource) (w : Watching) : Prop :=
  ∃ batches : List (List Event),
    w.sink = batches.foldl WritableDataSource.applyMany sink ∧ w.applied = batches.flatten

/-- **What a step of a poll does to the sink**: nothing, or one batch is written. -/
theorem work_feeds (w : Watching) :
    w.work.client = w.client
      ∧ ((w.work.sink = w.sink ∧ w.work.applied = w.applied)
        ∨ ∃ batch, w.work.sink = w.sink.applyMany batch ∧ w.work.applied = w.applied ++ batch) := by
  rw [work]
  cases w.pass with
  | none => exact ⟨rfl, Or.inl ⟨rfl, rfl⟩⟩
  | some pass =>
    dsimp only
    split
    · next event rest hout =>
      obtain ⟨batch, p, -, -, -, -, hsink, happlied, -, hclient, -⟩ := write_eq w pass event rest
      exact ⟨hclient, Or.inr ⟨batch, hsink, happlied⟩⟩
    · next snapshot rest hout hpend =>
      obtain ⟨events, allocator, -, -, hsink, hclient, -, -, happlied, -⟩ :=
        look_eq w pass snapshot rest
      exact ⟨hclient, Or.inl ⟨hsink, happlied⟩⟩
    · exact ⟨rfl, Or.inl ⟨rfl, rfl⟩⟩

theorem Fed.step {sink : WritableDataSource} {w : Watching} (h : Fed sink w) (runId : String)
    (m : Move) : Fed sink (w.step runId m) := by
  obtain ⟨batches, hsink, happlied⟩ := h
  cases m with
  | poll content =>
    rw [Watching.step]
    cases w.pass with
    | none => exact ⟨batches, hsink, happlied⟩
    | some pass => exact ⟨batches, hsink, happlied⟩
  | call limit => exact ⟨batches, hsink, happlied⟩
  | work =>
    obtain ⟨-, ⟨hs, ha⟩ | ⟨batch, hs, ha⟩⟩ := w.work_feeds
    · exact ⟨batches, hs.trans hsink, ha.trans happlied⟩
    · refine ⟨batches ++ [batch], hs.trans ?_, ha.trans ?_⟩
      · rw [hsink, List.foldl_append]
        rfl
      · rw [happlied, List.flatten_append, List.flatten_singleton]

theorem fed_run (sink : WritableDataSource) (runId : String) (moves : List Move) :
    Fed sink (run (step runId) { sink := sink } moves) := by
  induction moves using List.reverseRecOn with
  | nil => exact ⟨[], rfl, rfl⟩
  | append_singleton moves m ih =>
    rw [run_concat]
    exact ih.step runId m

/-- The events held are those of the sink that was passed in, and what was written. -/
theorem Fed.held_eq {sink : WritableDataSource} {w : Watching} (h : Fed sink w) (r : String) :
    w.sink.held r = (sink.applyMany w.applied).held r := by
  obtain ⟨batches, hsink, happlied⟩ := h
  rw [hsink, happlied, WritableDataSource.held_foldl_applyMany]

/-! ### Memory -/

/-- **The poller remembers exactly what the last poll saw**, and a pass remembers what it
has looked at. -/
structure Remembers (w : Watching) : Prop where
  previous : ∀ r, w.poller.previous.get? r = lastRead r w.content
  seen : ∀ pass, w.pass = some pass →
    ∃ done, w.reading = done ++ pass.pending ∧ ∀ r, pass.seen.get? r = lastRead r done

theorem lastRead_concat (r : String) (content : List FlowSnapshot) (s : FlowSnapshot) :
    lastRead r (content ++ [s]) = if r = s.runId then some s else lastRead r content := by
  rw [lastRead, List.filter_append]
  by_cases hr : r = s.runId
  · rw [if_pos hr, List.filter_cons_of_pos (by simp [hr]), List.filter_nil, List.getLast?_concat]
  · rw [if_neg hr, List.filter_cons_of_neg (by simp [Ne.symm hr]), List.filter_nil, List.append_nil]
    rfl

theorem Remembers.step {w : Watching} (h : Remembers w) (runId : String) (m : Move) :
    Remembers (w.step runId m) := by
  cases m with
  | poll content =>
    rw [Watching.step]
    cases hpass : w.pass with
    | none =>
      refine ⟨h.previous, ?_⟩
      intro pass hp
      obtain rfl := Option.some.inj hp
      exact ⟨[], rfl, fun r => rfl⟩
    | some pass => exact h
  | call limit => exact ⟨h.previous, h.seen⟩
  | work =>
    show Remembers w.work
    rw [work]
    cases hpass : w.pass with
    | none => exact h
    | some pass =>
      obtain ⟨done, hreading, hseen⟩ := h.seen pass hpass
      dsimp only
      split
      · next event rest hout =>
        obtain ⟨batch, p, -, hp, hpend, hset, -, -, hpoller, -, -, hcontent, hread, -⟩ :=
          write_eq w pass event rest
        refine ⟨by rw [hpoller, hcontent]; exact h.previous, ?_⟩
        intro p' hp'
        obtain rfl := Option.some.inj (hp.symm.trans hp')
        rw [hread, hpend, hset]
        exact ⟨done, hreading, hseen⟩
      · next snapshot rest hout hpend =>
        obtain ⟨events, allocator, -, hpoller, -, -, ⟨p, hp, hrest, hset, -⟩, -, -, hcontent,
            hread, -⟩ :=
          look_eq w pass snapshot rest
        refine ⟨?_, ?_⟩
        · intro r
          rw [hpoller, hcontent]
          exact h.previous r
        · intro p' hp'
          obtain rfl := Option.some.inj (hp.symm.trans hp')
          refine ⟨done ++ [snapshot], ?_, ?_⟩
          · rw [hread, hreading, hpend, hrest, List.append_assoc, List.singleton_append]
          · intro r
            rw [hset, Dict.get?_set, lastRead_concat, hseen]
      · next hout hpend =>
        refine ⟨?_, ?_⟩
        · intro r
          show pass.seen.get? r = lastRead r w.reading
          rw [hseen, hreading, hpend, List.append_nil]
        · intro p hp
          simp [finish] at hp

theorem remembers_run (sink : WritableDataSource) (runId : String) (moves : List Move) :
    Remembers (run (step runId) { sink := sink } moves) := by
  induction moves using List.reverseRecOn with
  | nil => exact ⟨fun r => rfl, by intro pass hp; simp at hp⟩
  | append_singleton moves m ih =>
    rw [run_concat]
    exact ih.step runId m

end Watching

end TaskflowMeter
