import TaskflowMeter.PollerStream

/-!
# A sink that fails

The sink's call may raise, having stored nothing, as a transactional store does.  The poll
ends there and is tried again.  By then the numbers of the events are handed out, and what
the poll stored before is not remembered.

## Main definitions

* `Reporter` — what should be stored: each change of a run since it was last told.
* `Watching.iterate` — one iteration of a poll, whose call of the sink may raise.
* `Polling` — a poller and its sink, beside a reporter.
* `Polling.Faithful` — what is stored is numbered without a gap, and is what should be.
* `Polling.Smooth` — the call does not raise, and a flow that is listed again has the same
  to tell as before.

## Main results

* `Inv.step`, `Inv.not_faithful_step` — what a move makes of them.
* `always_faithful_iff` — **everything is stored exactly once, throughout a run, exactly
  when every iteration is smooth.**
-/

namespace TaskflowMeter

open Consecutive Runs

/-- What should be stored: each change of a run since it was last told, once. -/
structure Reporter where
  told : String → Option FlowSnapshot := fun _ => none
  report : List Event := []

namespace Reporter

/-- A flow was looked at, and what changed was stored. -/
def observe (reporter : Reporter) (snapshot : FlowSnapshot) : Reporter where
  told := Function.update reporter.told snapshot.runId (some snapshot)
  report := reporter.report ++ diffEvents (reporter.told snapshot.runId) snapshot

/-- A poll has ended: what it did not list is forgotten. -/
def forget (reporter : Reporter) (listed : List FlowSnapshot) : Reporter :=
  { reporter with
    told := fun runId => if runId ∈ listed.map (·.runId) then reporter.told runId else none }

end Reporter

namespace Watching

/-- What the poller finds changed in a flow. -/
def changes (w : Watching) (snapshot : FlowSnapshot) : List Event :=
  diffEvents (w.poller.previous.get? snapshot.runId) snapshot

/-- One iteration of a poll: look at the next flow, and write what changed.  If that
raises, nothing is stored and the poll ends. -/
def iterate (w : Watching) (raises : Bool) : Watching :=
  let w := w.work
  match w.pass with
  | none => w
  | some pass =>
      match pass.outbox with
      | [] => w
      | _ :: _ => if raises then { w with pass := none } else w.work

end Watching

/-- A poller with a database for its sink, beside a reporter. -/
structure Polling where
  watching : Watching := { sink := .sqlalchemy {} }
  reporter : Reporter := {}

namespace Polling

inductive Move where
  /-- A poll begins: the source reports these flows, over all its pages. -/
  | poll (content : List FlowSnapshot)
  /-- The poll goes on by one iteration, whose call of the sink, if it makes one, may raise. -/
  | iterate (raises : Bool)

/-- The reporter hears of what the poller did not fail to store. -/
def hear (p : Polling) (raises : Bool) : Reporter :=
  match p.watching.pass with
  | none => p.reporter
  | some pass =>
      match pass.pending with
      | [] => p.reporter.forget p.watching.reading
      | snapshot :: _ =>
          if raises ∧ p.watching.changes snapshot ≠ [] then p.reporter
          else p.reporter.observe snapshot

def step (p : Polling) : Move → Polling
  | .poll content => { p with watching := p.watching.step "" (.poll content) }
  | .iterate raises => { watching := p.watching.iterate raises, reporter := p.hear raises }

/-- What is stored of each run is numbered 1, 2, …, n, where n is the last number handed
out, and is what should be stored. -/
structure Faithful (p : Polling) : Prop where
  isRun : ∀ r, IsRun 1 ((p.watching.sink.held r).map Event.seq)
  peek : ∀ r, p.watching.poller.allocator.peek r = (p.watching.sink.held r).length
  report : ∀ r, (p.watching.sink.held r).map Event.unstamped
    = (ofRun r p.reporter.report).map Event.unstamped

/-- A move that cannot go wrong: if it looks at a flow, the sink's call does not raise, and
the flow has the same to tell since the poller last read it in this poll as since the last
poll.  A listing without repetitions has no other flows. -/
def Smooth (p : Polling) : Move → Prop
  | .poll _ => True
  | .iterate raises =>
      ∀ pass, p.watching.pass = some pass → ∀ snapshot rest, pass.pending = snapshot :: rest →
        (raises = true → p.watching.changes snapshot = [])
          ∧ diffEvents ((pass.seen.get? snapshot.runId).or
              (p.watching.poller.previous.get? snapshot.runId)) snapshot
            = p.watching.changes snapshot

/-! ### One iteration -/

/-- **What an iteration does** to a poll with flows left: it fails, or writes what changed. -/
theorem iterate_eq {w : Watching} {db : SQLADataSource} (hsink : w.sink = .sqlalchemy db)
    {pass : Pass} (hpass : w.pass = some pass) (hout : pass.outbox = []) {snapshot : FlowSnapshot}
    {rest : List FlowSnapshot} (hpend : pass.pending = snapshot :: rest) (raises : Bool) :
    ∃ events allocator,
      stampAll snapshot.runId snapshot.observedAt w.poller.allocator (w.changes snapshot)
          = (events, allocator)
        ∧ (w.iterate raises).poller = { w.poller with allocator := allocator }
        ∧ ((raises = true ∧ w.changes snapshot ≠ [] ∧ (w.iterate raises).sink = w.sink
            ∧ (w.iterate raises).pass = none)
          ∨ (¬(raises = true ∧ w.changes snapshot ≠ [])
            ∧ (w.iterate raises = w.work ∨ w.iterate raises = w.work.work)
            ∧ (w.iterate raises).applied = w.applied ++ events
            ∧ ∃ p, (w.iterate raises).pass = some p ∧ p.outbox = []
              ∧ p.seen = pass.seen.set snapshot.runId snapshot)) := by
  have hwork : w.work = w.look pass snapshot rest := by
    rw [Watching.work, hpass]
    dsimp only
    rw [hout, hpend]
  obtain ⟨events, allocator, hstamp, hpoller, hsame, -, ⟨p, hp, -, hseen, hpout⟩, -, happlied, -⟩ :=
    Watching.look_eq w pass snapshot rest
  have hlen : events.length = (w.changes snapshot).length := by
    have h := length_stampAll snapshot.runId snapshot.observedAt w.poller.allocator
      (w.changes snapshot)
    rwa [Watching.changes, hstamp] at h
  refine ⟨events, allocator, hstamp, ?_⟩
  rw [← hwork] at hpoller hsame hp happlied
  have hunfold : w.iterate raises = match p.outbox with
      | [] => w.work
      | _ :: _ => if raises then { w.work with pass := none } else w.work.work := by
    rw [Watching.iterate]
    dsimp only
    rw [hp]
  rw [hpout] at hunfold
  cases events with
  | nil =>
    have hnone : w.changes snapshot = [] := List.length_eq_zero_iff.mp hlen.symm
    rw [hunfold]
    refine ⟨hpoller, Or.inr ⟨fun h => h.2 hnone, Or.inl rfl, ?_, p, hp, hpout, hseen⟩⟩
    rw [happlied, List.append_nil]
  | cons e es =>
    have hsome : w.changes snapshot ≠ [] := by
      intro hnone
      rw [hnone] at hlen
      simp at hlen
    cases raises with
    | true =>
      rw [hunfold]
      exact ⟨hpoller, Or.inl ⟨rfl, hsome, hsame, rfl⟩⟩
    | false =>
      -- the whole diff is one call of the sink
      have hwrite : w.work.work = w.work.write p e es := by
        conv_lhs => rw [Watching.work]
        rw [hp]
        dsimp only
        rw [hpout]
      rw [hunfold, if_neg Bool.false_ne_true, hwrite, Watching.write, hsame, hsink]
      refine ⟨hpoller, Or.inr ⟨by simp, Or.inr rfl, ?_, _, rfl, rfl, hseen⟩⟩
      show w.work.applied ++ e :: es = _
      rw [happlied]

/-! ### Runs -/

/-- What holds of a poller between two iterations, as long as none has failed. -/
structure Settled (w : Watching) : Prop where
  counted : w.Counted
  fed : Watching.Fed (.sqlalchemy {}) w
  remembers : w.Remembers
  outbox_eq : ∀ pass, w.pass = some pass → pass.outbox = []

/-- What it has stored, as long as all iterations were smooth. -/
structure Inv (p : Polling) : Prop where
  settled : Settled p.watching
  told : ∀ r, p.reporter.told r
    = (p.watching.pass.bind fun pass => pass.seen.get? r).or (p.watching.poller.previous.get? r)
  report : p.reporter.report.map Event.unstamped = p.watching.applied.map Event.unstamped

variable {p : Polling} {w : Watching}

theorem settled_init : Settled { sink := .sqlalchemy {} } where
  counted := Watching.counted_new _
  fed := ⟨[], rfl, rfl⟩
  remembers := ⟨fun _ => rfl, by intro pass h; simp at h⟩
  outbox_eq := by intro pass h; simp at h

/-- Nothing is left in the outbox. -/
theorem Settled.produced_eq (h : Settled w) : w.produced = w.applied := by
  have hout : (w.pass.map (·.outbox)).getD [] = [] := by
    cases hpass : w.pass with
    | none => rfl
    | some pass => exact h.outbox_eq pass hpass
  rw [h.counted.produced, hout, List.append_nil]

/-- The store holds what was written, in order. -/
theorem Settled.held_eq (h : Settled w) (r : String) : w.sink.held r = ofRun r w.applied := by
  rw [h.fed.held_eq]
  refine (SQLADataSource.held_applyMany {} w.applied r).trans ?_
  have hnodup : (([] ++ ofRun r w.applied).map Event.seq).Nodup := nodup (h.counted.isRun_applied r)
  exact (WritableDataSource.foldl_keepFirst hnodup).trans (List.nil_append _)

/-- The sink is a database. -/
theorem Settled.sink_eq (h : Settled w) : ∃ db, w.sink = .sqlalchemy db := by
  obtain ⟨batches, hsink, -⟩ := h.fed
  exact ⟨_, hsink.trans (WritableDataSource.foldl_applyMany_sqlalchemy {} batches)⟩

/-- A step of the poll or two, after which nothing is left in the outbox. -/
theorem Settled.of_work (h : Settled w) {w' : Watching} (hw : w' = w.work ∨ w' = w.work.work)
    (hout : ∀ pass, w'.pass = some pass → pass.outbox = []) : Settled w' := by
  rcases hw with rfl | rfl
  · exact ⟨h.counted.step "" .work, h.fed.step "" .work, h.remembers.step "" .work, hout⟩
  · exact ⟨(h.counted.step "" .work).step "" .work, (h.fed.step "" .work).step "" .work,
      (h.remembers.step "" .work).step "" .work, hout⟩

theorem ofRun_unstamped {es es' : List Event}
    (h : es.map Event.unstamped = es'.map Event.unstamped) (r : String) :
    (ofRun r es).map Event.unstamped = (ofRun r es').map Event.unstamped := by
  have hmap : ∀ l : List Event, (ofRun r l).map Event.unstamped
      = ofRun r (l.map Event.unstamped) := by
    intro l
    rw [ofRun, ofRun, List.filter_map]
    rfl
  rw [hmap, hmap, h]

/-- The invariant makes a store faithful. -/
theorem Inv.faithful (h : Inv p) : Faithful p where
  isRun := by
    intro r
    rw [h.settled.held_eq]
    exact h.settled.counted.isRun_applied r
  peek := by
    intro r
    rw [h.settled.held_eq, h.settled.counted.peek, h.settled.produced_eq]
  report := by
    intro r
    rw [h.settled.held_eq]
    exact ofRun_unstamped h.report.symm r

/-- A poll that is over has nothing to go on with. -/
theorem step_iterate_idle (h : p.watching.pass = none) (raises : Bool) :
    p.step (.iterate raises) = p := by
  have hwork : p.watching.work = p.watching := by rw [Watching.work, h]
  rw [step, hear, Watching.iterate, hwork, h]

/-- A poll with no flows left ends. -/
theorem step_iterate_last {pass : Pass} (hpass : p.watching.pass = some pass)
    (hout : pass.outbox = []) (hpend : pass.pending = []) (raises : Bool) :
    p.step (.iterate raises)
      = { watching := p.watching.finish pass
          reporter := p.reporter.forget p.watching.reading } := by
  have hwork : p.watching.work = p.watching.finish pass := by
    rw [Watching.work, hpass]
    dsimp only
    rw [hout, hpend]
  rw [step, hear, Watching.iterate, hwork, hpass]
  dsimp only
  rw [hpend]
  rfl

/-- A poll begins. -/
theorem Inv.poll (h : Inv p) (content : List FlowSnapshot) : Inv (p.step (.poll content)) := by
  have hcounted := h.settled.counted.step "" (.poll content)
  have hfed := h.settled.fed.step "" (.poll content)
  have hremembers := h.settled.remembers.step "" (.poll content)
  have htold := h.told
  rw [step]
  cases hpass : p.watching.pass with
  | none =>
    rw [hpass] at htold
    have hstep : p.watching.step "" (.poll content)
        = { p.watching with
            pass := some { pending := content }
            reading := content
            polled := p.watching.polled ++ content } := by
      rw [Watching.step, hpass]
    rw [hstep] at hcounted hfed hremembers ⊢
    exact ⟨⟨hcounted, hfed, hremembers, by rintro pass hp; rw [← Option.some.inj hp]⟩, htold,
      h.report⟩
  | some pass =>
    have hstep : p.watching.step "" (.poll content) = p.watching := by rw [Watching.step, hpass]
    rw [hstep]
    exact h

/-- A poll ends, and remembers what it has seen. -/
theorem Inv.last (h : Inv p) {pass : Pass} (hpass : p.watching.pass = some pass)
    (hpend : pass.pending = []) (raises : Bool) : Inv (p.step (.iterate raises)) := by
  have hout := h.settled.outbox_eq pass hpass
  have hwork : p.watching.finish pass = p.watching.work := by
    rw [Watching.work, hpass]
    dsimp only
    rw [hout, hpend]
  have hnone : (p.watching.finish pass).pass = none := rfl
  rw [step_iterate_last hpass hout hpend]
  refine ⟨h.settled.of_work (Or.inl hwork) ?_, ?_, h.report⟩
  · intro pass' hp
    simp [hnone] at hp
  · intro r
    obtain ⟨done, hreading, hseen⟩ := h.settled.remembers.seen pass hpass
    rw [hpend, List.append_nil] at hreading
    have htold := h.told r
    rw [hpass] at htold
    show (if r ∈ p.watching.reading.map (·.runId) then p.reporter.told r else none)
      = pass.seen.get? r
    rw [htold, Option.bind_some, hreading, hseen r]
    -- a run was seen exactly when it was listed
    split
    · next hmem =>
      obtain ⟨s, hs, rfl⟩ := List.mem_map.mp hmem
      have hne : done.filter (·.runId = s.runId) ≠ [] :=
        List.ne_nil_of_mem (List.mem_filter.mpr ⟨hs, decide_eq_true rfl⟩)
      rw [Watching.lastRead, List.getLast?_eq_some_getLast hne]
      rfl
    · next hmem =>
      have hnil : done.filter (·.runId = r) = [] := by
        rw [List.filter_eq_nil_iff]
        intro s hs hr
        exact hmem (List.mem_map.mpr ⟨s, hs, of_decide_eq_true hr⟩)
      rw [Watching.lastRead, hnil]
      rfl

/-- **A smooth move** keeps the invariant. -/
theorem Inv.step (h : Inv p) {m : Move} (hm : p.Smooth m) : Inv (p.step m) := by
  cases m with
  | poll content => exact h.poll content
  | iterate raises =>
    cases hpass : p.watching.pass with
    | none => rwa [step_iterate_idle hpass]
    | some pass =>
      cases hpend : pass.pending with
      | nil => exact h.last hpass hpend raises
      | cons snapshot rest =>
        obtain ⟨hquiet, hsame⟩ := hm pass hpass snapshot rest hpend
        have hnot : ¬(raises = true ∧ p.watching.changes snapshot ≠ []) :=
          fun hr => hr.2 (hquiet hr.1)
        obtain ⟨db, hsink⟩ := h.settled.sink_eq
        obtain ⟨events, allocator, hstamp, hpoller,
            hfail | ⟨-, hwork, happlied, q, hq, hqout, hqseen⟩⟩ :=
          iterate_eq hsink hpass (h.settled.outbox_eq pass hpass) hpend raises
        · exact absurd ⟨hfail.1, hfail.2.1⟩ hnot
        have hhear : p.hear raises = p.reporter.observe snapshot := by
          rw [hear, hpass]
          dsimp only
          rw [hpend]
          exact if_neg hnot
        have htold : ∀ r, p.reporter.told r
            = (pass.seen.get? r).or (p.watching.poller.previous.get? r) := by
          intro r
          rw [h.told, hpass]
          rfl
        rw [Polling.step, hhear]
        refine ⟨h.settled.of_work hwork ?_, ?_, ?_⟩
        · intro q' hq'
          rw [← Option.some.inj (hq.symm.trans hq'), hqout]
        · intro r
          show Function.update p.reporter.told snapshot.runId (some snapshot) r
            = ((p.watching.iterate raises).pass.bind fun pass => pass.seen.get? r).or
                ((p.watching.iterate raises).poller.previous.get? r)
          rw [hq, Option.bind_some, hqseen, hpoller, Function.update_apply, Dict.get?_set, htold]
          split <;> rfl
        · have hunstamped := unstamped_stampAll snapshot.runId snapshot.observedAt
            p.watching.poller.allocator (p.watching.changes snapshot)
          rw [hstamp] at hunstamped
          show (p.reporter.report ++ diffEvents (p.reporter.told snapshot.runId) snapshot).map _
            = (p.watching.iterate raises).applied.map _
          rw [happlied, List.map_append, List.map_append, h.report, htold, hsame, hunstamped]

/-- **Any other move** hands out numbers in vain, or stores something else than it should. -/
theorem Inv.not_faithful_step (h : Inv p) {m : Move} (hm : ¬p.Smooth m) : ¬Faithful (p.step m) := by
  intro hfaithful
  cases m with
  | poll content => exact hm trivial
  | iterate raises =>
    apply hm
    intro pass hpass snapshot rest hpend
    obtain ⟨db, hsink⟩ := h.settled.sink_eq
    obtain ⟨events, allocator, hstamp, hpoller,
        ⟨hraises, hne, hsame, -⟩ | ⟨hnot, hwork, happlied, q, hq, hqout, -⟩⟩ :=
      iterate_eq hsink hpass (h.settled.outbox_eq pass hpass) hpend raises
    · -- the numbers of the events are handed out, and nothing is stored
      have hpeek := hfaithful.peek snapshot.runId
      have hprev := h.faithful.peek snapshot.runId
      have hallocated := peek_stampAll snapshot.runId snapshot.runId snapshot.observedAt
        p.watching.poller.allocator (p.watching.changes snapshot)
      rw [hstamp, if_pos rfl, hprev] at hallocated
      have hnew : (p.step (.iterate raises)).watching.poller.allocator = allocator := by
        rw [Polling.step, hpoller]
      have hstored : (p.step (.iterate raises)).watching.sink = p.watching.sink := hsame
      rw [hnew, hstored] at hpeek
      have hpos := List.length_pos_of_ne_nil hne
      dsimp only at hallocated
      omega
    · refine ⟨fun hraises => ?_, ?_⟩
      · by_contra hne
        exact hnot ⟨hraises, hne⟩
      · have hsettled : Settled (p.watching.iterate raises) := by
          refine h.settled.of_work hwork ?_
          intro q' hq'
          rw [← Option.some.inj (hq.symm.trans hq'), hqout]
        have hhear : p.hear raises = p.reporter.observe snapshot := by
          rw [hear, hpass]
          dsimp only
          rw [hpend]
          exact if_neg hnot
        have htold : p.reporter.told snapshot.runId = (pass.seen.get? snapshot.runId).or
            (p.watching.poller.previous.get? snapshot.runId) := by
          rw [h.told, hpass]
          rfl
        have hunstamped := unstamped_stampAll snapshot.runId snapshot.observedAt
          p.watching.poller.allocator (p.watching.changes snapshot)
        have hevents : ∀ e ∈ events, e.runId = snapshot.runId := by
          have hchanges : ∀ e ∈ p.watching.changes snapshot, e.runId = snapshot.runId :=
            fun _ he => runId_of_mem_diffEvents he
          have hof : ∀ e ∈ (stampAll snapshot.runId snapshot.observedAt p.watching.poller.allocator
              (p.watching.changes snapshot)).1, e.runId = snapshot.runId :=
            runId_of_mem_stampAll hchanges
          rwa [hstamp] at hof
        -- before this iteration the store held what it should
        have hprev := h.faithful.report snapshot.runId
        rw [h.settled.held_eq] at hprev
        have hreport := hfaithful.report snapshot.runId
        rw [Polling.step, hhear] at hreport
        dsimp only at hreport
        rw [hsettled.held_eq, happlied, Reporter.observe, ofRun_append, ofRun_append,
          ofRun_eq_self hevents, ofRun_eq_self fun e he => runId_of_mem_diffEvents he,
          List.map_append, List.map_append, hprev, List.append_cancel_left_eq,
          map_unstamped_diffEvents, htold] at hreport
        rw [hstamp, hreport, Watching.changes, map_unstamped_diffEvents] at hunstamped
        exact hunstamped

/-- **Everything is stored exactly once, throughout a run, exactly when every move is
smooth.** -/
theorem always_faithful_iff (moves : List Move) :
    Always (fun done => Faithful (run step {} done)) moves
      ↔ EveryMove (fun done m => (run step {} done).Smooth m) moves := by
  refine always_iff_everyMove (I := fun done => Inv (run step {} done))
    ⟨settled_init, fun _ => rfl, rfl⟩ ?_ ?_ ?_
  · intro done m _ _ hinv hm
    rw [run_concat]
    exact hinv.step hm
  · intro done _ _ hinv
    exact hinv.faithful
  · intro done m _ _ hinv hm
    rw [run_concat]
    exact hinv.not_faithful_step hm

/-- A run that is going on, and nothing more. -/
def going (runId : String) : FlowSnapshot := { runId := runId, state := some States.RUNNING }

/-- A poll fails at its only flow, or at the second of two, and is tried again: the first
number of the run is never stored, and the first flow's change is stored twice. -/
theorem retried_poll :
    ((run step {} [.poll [going "a"], .iterate true, .poll [going "a"],
        .iterate false]).watching.sink.held "a").map Event.seq = [2]
      ∧ ((run step {} [.poll [going "a", going "b"], .iterate false, .iterate true,
            .poll [going "a", going "b"], .iterate false]).watching.sink.held "a").map Event.unstamped
          = diffEvents none (going "a") ++ diffEvents none (going "a")
      ∧ ¬Always (fun done => Faithful (run step {} done))
          [.poll [going "a"], .iterate true, .poll [going "a"], .iterate false] := by
  refine ⟨by decide, by decide, fun h => ?_⟩
  have hrun := h.last.isRun "a"
  revert hrun
  decide

end Polling

end TaskflowMeter
