import TaskflowMeter.Collect.Attachment
import TaskflowMeter.Poller
import TaskflowMeter.Redelivery

/-!
# A later session over the same store

A store holds the events `1, …, k` of a run, and another producer is started over it: a
poller, or an attachment to an engine.  Either numbers its events with an allocator of its
own.

## Main definitions

* `Continues` — the events of a session are numbered above `k`, kept and received.

## Main results

* `Watching.produced_eq_nil_iff` — a poller produces nothing for a run exactly when none of
  its polls has read it.
* `session_continues_iff` — **a later session continues the earlier one exactly when it
  has nothing to say about the run.**
-/

namespace TaskflowMeter

open Consecutive Runs

/-- What a session owes to a client that has the events `1, …, k`: every event it produces
is numbered above `k`, is kept, and is received from there on. -/
structure Continues (k : ℕ) (produced held : List Event) (client : Client) : Prop where
  above : ∀ e ∈ produced, k < e.seq
  kept : ∀ e ∈ produced, e ∈ held
  received : ∀ e ∈ produced, e ∈ client.received

/-- A session that numbers from 1 does so only if it produces nothing. -/
theorem continues_iff_eq_nil {k : ℕ} (hk : 1 ≤ k) {produced held : List Event} {client : Client}
    (hrun : IsRun 1 (produced.map Event.seq)) :
    Continues k produced held client ↔ produced = [] := by
  constructor
  · intro h
    by_contra hne
    obtain ⟨e, l, rfl⟩ := List.exists_cons_of_ne_nil hne
    have habove := h.above e List.mem_cons_self
    have hone : e.seq = 1 := hrun.1
    omega
  · rintro rfl
    exact ⟨by simp, by simp, by simp⟩

/-- A store that holds events of a run numbers at least one. -/
theorem Numbered.one_le {runId : String} {k : ℕ} {held : List Event}
    (h : Numbered runId k held) (hne : held ≠ []) : 1 ≤ k := by
  obtain ⟨e, he⟩ := List.exists_mem_of_ne_nil _ hne
  have hseq := (h.hasSeq_iff e.seq).mp ⟨e, he, rfl⟩
  omega

/-! ### A poller -/

namespace Watching

/-- What a poller has read of a run, it has produced events for, or will. -/
structure Sightings (r : String) (w : Watching) : Prop where
  pending : ∀ pass, w.pass = some pass → ∀ s ∈ pass.pending, s ∈ w.polled
  known : (w.poller.previous.get? r).isSome → ofRun r w.produced ≠ []
  seen : ∀ pass, w.pass = some pass → (pass.seen.get? r).isSome → ofRun r w.produced ≠ []
  unread : (∀ s ∈ w.polled, s.runId ≠ r) → ofRun r w.produced = []
  read : ∀ s ∈ w.polled, s.runId = r →
    ofRun r w.produced ≠ [] ∨ ∃ pass, w.pass = some pass ∧ ∃ s ∈ pass.pending, s.runId = r

theorem Sightings.look {r : String} {w : Watching} (h : Sightings r w) {pass : Pass}
    (hpass : w.pass = some pass) {snapshot : FlowSnapshot} {rest : List FlowSnapshot}
    (hpend : pass.pending = snapshot :: rest) : Sightings r (w.look pass snapshot rest) := by
  obtain ⟨events, allocator, hstamp, hpoller, -, -, ⟨p, hp, hrest, hset, -⟩, hproduced, -, -, -,
    hpolled⟩ := look_eq w pass snapshot rest
  have hevents : events = (stampAll snapshot.runId snapshot.observedAt w.poller.allocator
      (diffEvents (w.poller.previous.get? snapshot.runId) snapshot)).1 := by rw [hstamp]
  have hof : ∀ e ∈ events, e.runId = snapshot.runId := by
    rw [hevents]
    exact runId_of_mem_stampAll fun e he => runId_of_mem_diffEvents he
  have hmem : snapshot ∈ w.polled := h.pending pass hpass snapshot (hpend ▸ List.mem_cons_self)
  -- once anything is produced for the run, that stays so
  have hmono : ofRun r w.produced ≠ [] → ofRun r (w.look pass snapshot rest).produced ≠ [] := by
    intro hne
    rw [hproduced, ofRun_append]
    exact List.append_ne_nil_of_left_ne_nil hne _
  -- and something is, the first time that the run is looked at
  have hfirst : r = snapshot.runId → ofRun r (w.look pass snapshot rest).produced ≠ [] := by
    intro hr
    cases hknown : w.poller.previous.get? r with
    | some o => exact hmono (h.known (by rw [hknown]; rfl))
    | none =>
      rw [hproduced, ofRun_append, hr, ofRun_eq_self hof, hevents, ← hr, hknown]
      apply List.append_ne_nil_of_right_ne_nil
      intro hnil
      have hlen := length_stampAll r snapshot.observedAt w.poller.allocator
        (diffEvents none snapshot)
      rw [hnil] at hlen
      exact diffEvents_none_ne_nil snapshot (List.length_eq_zero_iff.mp hlen.symm)
  refine ⟨?_, ?_, ?_, ?_, ?_⟩
  · intro p' hp' s hs
    obtain rfl := Option.some.inj (hp.symm.trans hp')
    rw [hrest] at hs
    rw [hpolled]
    exact h.pending pass hpass s (hpend ▸ List.mem_cons_of_mem _ hs)
  · intro hsome
    rw [hpoller] at hsome
    exact hmono (h.known hsome)
  · intro p' hp' hsome
    obtain rfl := Option.some.inj (hp.symm.trans hp')
    rw [hset, Dict.get?_set] at hsome
    split at hsome
    -- the run that has just been looked at, or one that was seen before
    · next hr => exact hfirst hr
    · exact hmono (h.seen pass hpass hsome)
  · intro hnone
    rw [hpolled] at hnone
    rw [hproduced, ofRun_append, h.unread hnone, ofRun_eq_nil hof (hnone snapshot hmem).symm]
    rfl
  · intro s hs hr
    rw [hpolled] at hs
    rcases h.read s hs hr with hne | ⟨pass', hpass', x, hx, hxr⟩
    · exact Or.inl (hmono hne)
    · obtain rfl := Option.some.inj (hpass.symm.trans hpass')
      rw [hpend] at hx
      rcases List.mem_cons.mp hx with rfl | hx
      · exact Or.inl (hfirst hxr.symm)
      · exact Or.inr ⟨p, hp, x, by rw [hrest]; exact hx, hxr⟩

theorem Sightings.step {r : String} {w : Watching} (h : Sightings r w) (runId : String) (m : Move) :
    Sightings r (w.step runId m) := by
  cases m with
  | poll content =>
    rw [Watching.step]
    cases hpass : w.pass with
    | some pass => exact h
    | none =>
      refine ⟨?_, h.known, ?_, ?_, ?_⟩
      · intro p hp s hs
        obtain rfl := Option.some.inj hp
        exact List.mem_append_right _ hs
      · intro p hp hsome
        obtain rfl := Option.some.inj hp
        simp at hsome
      · intro hnone
        exact h.unread fun s hs => hnone s (List.mem_append_left _ hs)
      · intro s hs hr
        rcases List.mem_append.mp hs with hs | hs
        · rcases h.read s hs hr with hne | ⟨p, hp, -⟩
          · exact Or.inl hne
          · rw [hpass] at hp
            cases hp
        · exact Or.inr ⟨_, rfl, s, hs, hr⟩
  | call limit => exact ⟨h.pending, h.known, h.seen, h.unread, h.read⟩
  | work =>
    show Sightings r w.work
    rw [work]
    cases hpass : w.pass with
    | none => exact h
    | some pass =>
      dsimp only
      split
      · next event rest hout =>
        have hread : ∀ s ∈ w.polled, s.runId = r →
            ofRun r w.produced ≠ [] ∨ ∃ s ∈ pass.pending, s.runId = r := by
          intro s hs hr
          refine (h.read s hs hr).imp_right ?_
          rintro ⟨p, hp, hmem⟩
          obtain rfl := Option.some.inj (hpass.symm.trans hp)
          exact hmem
        obtain ⟨batch, p, -, hp, hpend, hset, -, -, hpoller, -, hproduced, -, -, hpolled⟩ :=
          write_eq w pass event rest
        refine ⟨?_, ?_, ?_, ?_, ?_⟩
        · intro p' hp'
          obtain rfl := Option.some.inj (hp.symm.trans hp')
          rw [hpend, hpolled]
          exact h.pending pass hpass
        · rw [hpoller, hproduced]
          exact h.known
        · intro p' hp'
          obtain rfl := Option.some.inj (hp.symm.trans hp')
          rw [hset, hproduced]
          exact h.seen pass hpass
        · rw [hpolled, hproduced]
          exact h.unread
        · rw [hpolled, hproduced]
          intro s hs hr
          exact (hread s hs hr).imp_right fun hmem => ⟨p, hp, by rwa [hpend]⟩
      · next snapshot rest hout hpend => exact h.look hpass hpend
      · next hout hpend =>
        refine ⟨by simp [finish], h.seen pass hpass, by simp [finish], h.unread, ?_⟩
        intro s hs hr
        rcases h.read s hs hr with hne | ⟨p, hp, x, hx, -⟩
        · exact Or.inl hne
        · obtain rfl := Option.some.inj (hpass.symm.trans hp)
          rw [hpend] at hx
          simp at hx

theorem sightings_run (sink : WritableDataSource) (r runId : String) (moves : List Move) :
    Sightings r (run (step runId) { sink := sink } moves) := by
  induction moves using List.reverseRecOn with
  | nil => exact ⟨by simp, by simp, by simp, fun _ => rfl, by simp⟩
  | append_singleton moves m ih =>
    rw [run_concat]
    exact ih.step runId m

/-- **A poller produces nothing for a run exactly when none of its polls has read it.** -/
theorem produced_eq_nil_iff {w : Watching} {r : String} (h : Sightings r w)
    (hidle : w.pass = none) :
    ofRun r w.produced = [] ↔ ∀ s ∈ w.polled, s.runId ≠ r := by
  constructor
  · intro hnil s hs hr
    rcases h.read s hs hr with hne | ⟨pass, hpass, -⟩
    · exact hne hnil
    · rw [hidle] at hpass
      cases hpass
  · exact h.unread

end Watching

/-! ### An attachment -/

namespace Attachment

variable {config : PipelineConfig}

/-- The events that a session builds. -/
def built (a : Attachment) (session : List Step) : List Event := session.filterMap fun
  | .notice n => a.event? n
  | .work _ => none

theorem emitted_moves (a : Attachment) (session : List Step) :
    (a.moves session).filterMap Collecting.Move.emitted? = a.built session := by
  rw [moves, List.filterMap_filterMap, built]
  apply List.filterMap_congr
  intro m _
  cases m with
  | notice n =>
    dsimp only
    cases a.event? n <;> rfl
  | work m => rfl

/-- What a session submits is about the engine's run. -/
theorem ofRun_submitted (a : Attachment) (session : List Step) :
    ofRun a.engine.flowUuid
        (run Collecting.step ({} : Collecting config) (a.moves session)).pipeline.submitted
      = (run Collecting.step ({} : Collecting config) (a.moves session)).pipeline.submitted := by
  have hsubmitted := Collecting.submitted_run config (a.moves session)
  rw [emitted_moves] at hsubmitted
  apply ofRun_eq_self
  intro e he
  have hmem := List.mem_map_of_mem (f := Collecting.unnumbered) he
  rw [hsubmitted] at hmem
  obtain ⟨x, hx, hxe⟩ := List.mem_map.mp hmem
  obtain ⟨m, -, hm⟩ := List.mem_filterMap.mp hx
  have hx' : x.runId = a.engine.flowUuid := by
    cases m with
    | notice n => exact runId_of_event? hm
    | work m => cases hm
  have hrun := congrArg Event.runId hxe
  exact hrun.symm.trans hx'

/-- **A session submits nothing exactly when the engine says nothing**, and its structure is
not wanted or cannot be read. -/
theorem submitted_eq_nil_iff (a : Attachment) (session : List Step) :
    (run Collecting.step ({} : Collecting config) (a.moves session)).pipeline.submitted = []
      ↔ ∀ n, Step.notice n ∈ session → (∃ ts, n = .attached ts)
        ∧ (a.emitStructure = false ∨ a.engine.executionGraph = none) := by
  have hsubmitted := Collecting.submitted_run config (a.moves session)
  rw [emitted_moves] at hsubmitted
  rw [← List.map_eq_nil_iff (f := Collecting.unnumbered), hsubmitted,
    List.map_eq_nil_iff, built, List.filterMap_eq_nil_iff]
  simp only [← event?_eq_none_iff]
  constructor
  · intro hall n hn
    exact hall _ hn
  · intro hall m hm
    cases m with
    | notice n => exact hall n hm
    | work m => rfl

end Attachment

/-- **A later session continues the earlier one exactly when it has nothing to say about the
run.**  The store holds the events `1, …, k` of a run.  A new poller over the store, once no
poll is in progress, must have read nothing of the run; an engine attached to with the store
must have said nothing, and its structure must not have been wanted, or readable. -/
theorem session_continues_iff {s : WritableDataSource} {runId : String} {k : ℕ}
    (hheld : Numbered runId k (s.held runId)) (hne : s.held runId ≠ []) (limits : List ℤ) :
    (∀ (other : String) (moves : List Watching.Move),
      (run (Watching.step other) { sink := s } moves).pass = none →
      (Continues k (ofRun runId (run (Watching.step other) { sink := s } moves).produced)
          ((run (Watching.step other) { sink := s } moves).sink.held runId)
          (Client.walk (run (Watching.step other) { sink := s } moves).sink runId k limits)
        ↔ ∀ snapshot ∈ (run (Watching.step other) { sink := s } moves).polled,
          snapshot.runId ≠ runId))
    ∧ ∀ (config : PipelineConfig) (a : Attachment) (session : List Attachment.Step),
      a.engine.flowUuid = runId →
      (Continues k (run Collecting.step ({} : Collecting config)
        (a.moves session)).pipeline.submitted
          (((run Collecting.step ({} : Collecting config) (a.moves session)).store s).held runId)
          (Client.walk ((run Collecting.step ({} : Collecting config) (a.moves session)).store s)
            runId k limits)
        ↔ ∀ n, Attachment.Step.notice n ∈ session → (∃ ts, n = .attached ts)
          ∧ (a.emitStructure = false ∨ a.engine.executionGraph = none)) := by
  have hk := hheld.one_le hne
  constructor
  · intro other moves hidle
    rw [continues_iff_eq_nil hk ((Watching.counted_run s other moves).isRun runId)]
    exact Watching.produced_eq_nil_iff (Watching.sightings_run s runId other moves) hidle
  · rintro config a session rfl
    have hrun := (Collecting.gathered_run config (a.moves session)).isRun a.engine.flowUuid
    rw [a.ofRun_submitted session] at hrun
    rw [continues_iff_eq_nil hk hrun]
    exact a.submitted_eq_nil_iff session

/-- A database that holds two events of `run-1`. -/
def holdsTwo : WritableDataSource := .sqlalchemy (.filled [[heartbeat 1, heartbeat 2]])

/-- A poll that reads one flow and goes on to its end. -/
def pollOne (snapshot : FlowSnapshot) : List Watching.Move :=
  [.poll [snapshot], .work, .work, .work]

/-- The engine that runs `run-1`. -/
def engine : Engine where
  flowUuid := "run-1"

/-- The flow starts. -/
def flowStarts : List Attachment.Step :=
  .notice (.flow 0 "RUNNING" none none) :: List.replicate 2 (.work (.advance 0))
    ++ List.replicate 3 (.work (.send fun _ => none))

/-- A new poller numbers what it finds from 1 again, and so does a further attachment. -/
theorem restart_numbers_from_one :
    Numbered "run-1" 2 (holdsTwo.held "run-1")
      ∧ ¬Continues 2
          (ofRun "run-1" (run (Watching.step "run-1") { sink := holdsTwo }
            (pollOne { runId := "run-1" })).produced)
          ((run (Watching.step "run-1") { sink := holdsTwo }
            (pollOne { runId := "run-1" })).sink.held "run-1")
          (Client.walk (run (Watching.step "run-1") { sink := holdsTwo }
            (pollOne { runId := "run-1" })).sink "run-1" 2 [500])
      ∧ ¬Continues 2
          (run Collecting.step ({} : Collecting {})
            (Attachment.moves { engine := engine } flowStarts)).pipeline.submitted
          (((run Collecting.step ({} : Collecting {})
            (Attachment.moves { engine := engine } flowStarts)).store holdsTwo).held "run-1")
          (Client.walk ((run Collecting.step ({} : Collecting {})
            (Attachment.moves { engine := engine } flowStarts)).store holdsTwo) "run-1" 2 [500]) := by
  refine ⟨⟨by decide, by decide⟩, ?_, ?_⟩
  · intro h
    have habove := h.above
    revert habove
    decide
  · intro h
    have habove := h.above
    revert habove
    decide

/-- A poller that reads another run only continues, having nothing to add. -/
theorem session_continues_other_run :
    Continues 2
      (ofRun "run-1" (run (Watching.step "run-1") { sink := holdsTwo }
        (pollOne { runId := "run-2" })).produced)
      ((run (Watching.step "run-1") { sink := holdsTwo }
        (pollOne { runId := "run-2" })).sink.held "run-1")
      (Client.walk (run (Watching.step "run-1") { sink := holdsTwo }
        (pollOne { runId := "run-2" })).sink "run-1" 2 [500]) := by
  have hheld : Numbered "run-1" 2 (holdsTwo.held "run-1") := ⟨by decide, by decide⟩
  have hidle : (run (Watching.step "run-1") { sink := holdsTwo }
      (pollOne { runId := "run-2" })).pass = none := by rfl
  exact ((session_continues_iff hheld (by decide) [500]).1 "run-1" _ hidle).mpr (by decide)

end TaskflowMeter
