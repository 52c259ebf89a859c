import TaskflowMeter.Collect.Attachment
import TaskflowMeter.Lib.Effects

/-!
# What becomes of a notification

A receiver runs on a thread of the engine: it builds an event of what it is told, and submits it.
What goes wrong there is swallowed, so that the engine does not see it.  But the number of the event
is taken before the clock is read and the progress is converted, and is not given back.

## Main definitions

* `Calls` — what the calls come to that a receiver makes.
* `Receiver.build`, `Receiver.buildProgress` — an event, step by step.
* `receive` — a receiver.
* `Session` — an attachment at work: its receivers, and its pipeline.

## Main results

* `receive_cases` — **what a receiver does**: nothing, or it loses a number, or it emits an event.
* `numbers_run` — the events submitted and the numbers lost are 1, 2, 3, … together.
* `complete_after_failures_iff` — **a client's view is complete exactly when no number that was
  lost or dropped lies between two that are stored.**
-/

namespace TaskflowMeter

open Consecutive Effects Runs

/-- What the calls come to that a receiver makes: each returns, or raises. -/
structure Calls where
  /-- `models.failure_dict(result)`. -/
  rendered : Except String Unit := .ok ()
  /-- `dict(details or {})`. -/
  copied : Except String Unit := .ok ()
  flowUuid : Except String String
  clock : Except String ℚ
  /-- `float(progress)`. -/
  converted : Except String Unit := .ok ()

namespace Said

/-- A failure is among it, which is rendered. -/
def renders : Said → Bool
  | .atom _ _ _ _ _ (some (.failure _)) => true
  | _ => false

end Said

variable {config : PipelineConfig}

/-! ### Building an event -/

namespace Receiver

/-- The next number of a run. -/
def allocate (runId : String) : Eff (Collecting config) String ℤ :=
  .state fun w =>
    ((w.allocator.allocate runId).1, { w with allocator := (w.allocator.allocate runId).2 })

/-- `pipeline.submit`, which does not raise. -/
def emit (event : Event) : Eff (Collecting config) String Unit :=
  .modify fun w => { w with pipeline := w.pipeline.submit event }

/-- The arguments of an event are evaluated in this order. -/
def withNumber (calls : Calls) (event : String → ℤ → ℚ → Event) :
    Eff (Collecting config) String Event := do
  let runId ← Eff.ofExcept calls.flowUuid
  let seq ← allocate runId
  let ts ← Eff.ofExcept calls.clock
  pure (event runId seq ts)

/-- `MeterListener._build`. -/
def build (bookId : Option String) (calls : Calls) (said : Said) :
    Eff (Collecting config) String Event :=
  withNumber calls fun runId seq ts => said.event bookId runId seq ts

/-- `float(progress) if progress is not None else None`. -/
def convert (calls : Calls) (reported : Option ℚ) : Eff (Collecting config) String Unit :=
  if reported.isSome then .ofExcept calls.converted else pure ()

/-- `ProgressTap._build`. -/
def buildProgress (bookId : Option String) (calls : Calls) (name : String) (uuid : Option String)
    (progress : Option ℚ) (payload : Dict String Json) : Eff (Collecting config) String Event := do
  Eff.ofExcept calls.copied
  let event ← withNumber calls fun runId seq ts =>
    (Said.progress name uuid progress payload).event bookId runId seq ts
  -- the last of the arguments that can raise
  convert calls progress
  pure event

/-- Build and emit one event, swallowing anything that goes wrong. -/
def safely (build : Eff (Collecting config) String Event) : Eff (Collecting config) String Unit :=
  Eff.swallow (build >>= emit)

/-- The flow's graph is emitted where it could be described.  Nothing is swallowed. -/
def emitStructure (bookId : Option String) (calls : Calls) (graph : Option (Dict String Json)) :
    Eff (Collecting config) String Unit :=
  if graph.isSome then build bookId calls (.attached graph) >>= emit else pure ()

/-- A failure is rendered before anything is swallowed. -/
def atomEvent (bookId : Option String) (calls : Calls) (said : Said) :
    Eff (Collecting config) String Unit :=
  if said.renders then Eff.ofExcept calls.rendered >>= fun _ => safely (build bookId calls said)
  else safely (build bookId calls said)

end Receiver

open Receiver

/-- What a receiver does. -/
def receive (bookId : Option String) (calls : Calls) : Said → Eff (Collecting config) String Unit
  | .attached graph => emitStructure bookId calls graph
  | .flow state oldState flowName =>
    safely (build bookId calls (.flow state oldState flowName))
  | .atom atomType state oldState name uuid result =>
    atomEvent bookId calls (.atom atomType state oldState name uuid result)
  | .progress name uuid reported payload =>
    safely (buildProgress bookId calls name uuid reported payload)

/-! ### What a receiver comes to -/

/-- The receiver gets as far as to ask for the run. -/
def Said.begins (calls : Calls) : Said → Bool
  | .attached graph => graph.isSome
  | .flow .. => true
  | .atom atomType state oldState name uuid result =>
    !(Said.atom atomType state oldState name uuid result).renders || calls.rendered.isOk
  | .progress .. => calls.copied.isOk

/-- Nothing raises once it has a number. -/
def Said.ends (calls : Calls) : Said → Bool
  | .progress _ _ (some _) _ => calls.clock.isOk && calls.converted.isOk
  | _ => calls.clock.isOk

/-- What a receiver can do: nothing, or it takes a number in vain, or it emits an event. -/
inductive Comes (bookId : Option String) (calls : Calls) (said : Said) (w : Collecting config) :
    Collecting config → Prop
  | nothing (h : said.begins calls = true → ∃ e, calls.flowUuid = .error e) :
      Comes bookId calls said w w
  | lost {runId : String} (hbegins : said.begins calls = true) (huuid : calls.flowUuid = .ok runId)
      (hends : said.ends calls = false) :
      Comes bookId calls said w { w with allocator := (w.allocator.allocate runId).2 }
  | emitted {runId : String} {ts : ℚ} (hbegins : said.begins calls = true)
      (huuid : calls.flowUuid = .ok runId) (hclock : calls.clock = .ok ts)
      (hends : said.ends calls = true) :
      Comes bookId calls said w (w.step (.emit (said.event bookId runId 0 ts)))

/-- **The number is taken unless the run is unknown**, whatever the clock does. -/
theorem withNumber_cases (calls : Calls) (event : String → ℤ → ℚ → Event) (w : Collecting config) :
    (∃ e, calls.flowUuid = .error e ∧ (withNumber calls event).run w = (.error e, w))
      ∨ (∃ runId e, calls.flowUuid = .ok runId ∧ calls.clock = .error e
          ∧ (withNumber calls event).run w
            = (.error e, { w with allocator := (w.allocator.allocate runId).2 }))
      ∨ ∃ runId ts, calls.flowUuid = .ok runId ∧ calls.clock = .ok ts
          ∧ (withNumber calls event).run w
            = (.ok (event runId (w.allocator.allocate runId).1 ts),
                { w with allocator := (w.allocator.allocate runId).2 }) := by
  cases huuid : calls.flowUuid with
  | error e => exact .inl ⟨e, rfl, Eff.run_bind_of_error (by rw [huuid]; rfl)⟩
  | ok runId =>
    have hallocate : (withNumber calls event).run w = ((do
        let ts ← Eff.ofExcept calls.clock
        pure (event runId (w.allocator.allocate runId).1 ts) : Eff (Collecting config) String Event).run
          { w with allocator := (w.allocator.allocate runId).2 }) := by
      rw [withNumber, Eff.run_bind_of_ok (by rw [huuid]; rfl), Eff.run_bind_of_ok rfl]
    rw [hallocate]
    cases hclock : calls.clock with
    | error e => exact .inr (.inl ⟨runId, e, rfl, rfl, rfl⟩)
    | ok ts => exact .inr (.inr ⟨runId, ts, rfl, rfl, rfl⟩)

/-- An event that is submitted with the next number of its run. -/
theorem emit_event (bookId : Option String) (said : Said) (w : Collecting config) (runId : String)
    (ts : ℚ) :
    (emit (said.event bookId runId (w.allocator.allocate runId).1 ts)).run
        { w with allocator := (w.allocator.allocate runId).2 }
      = (.ok (), w.step (.emit (said.event bookId runId 0 ts))) := by
  cases said <;> rfl

variable {bookId : Option String} {calls : Calls} {w : Collecting config}

theorem build_emit_cases (bookId : Option String) (calls : Calls) (said : Said)
    (w : Collecting config) :
    (∃ e, calls.flowUuid = .error e ∧ (build bookId calls said >>= emit).run w = (.error e, w))
      ∨ (∃ runId e, calls.flowUuid = .ok runId ∧ calls.clock = .error e
          ∧ (build bookId calls said >>= emit).run w
            = (.error e, { w with allocator := (w.allocator.allocate runId).2 }))
      ∨ ∃ runId ts, calls.flowUuid = .ok runId ∧ calls.clock = .ok ts
          ∧ (build bookId calls said >>= emit).run w
            = (.ok (), w.step (.emit (said.event bookId runId 0 ts))) := by
  rcases withNumber_cases calls (fun runId seq ts => said.event bookId runId seq ts) w with
    ⟨e, huuid, heq⟩ | ⟨runId, e, huuid, hclock, heq⟩ | ⟨runId, ts, huuid, hclock, heq⟩
  · exact .inl ⟨e, huuid, Eff.run_bind_of_error heq⟩
  · exact .inr (.inl ⟨runId, e, huuid, hclock, Eff.run_bind_of_error heq⟩)
  · refine .inr (.inr ⟨runId, ts, huuid, hclock, ?_⟩)
    rw [build, Eff.run_bind_of_ok heq]
    exact emit_event bookId said w runId ts

theorem ends_of_error {e : String} (h : calls.clock = .error e) (said : Said) :
    said.ends calls = false := by
  unfold Said.ends
  split <;> rw [h] <;> rfl

/-- What a listener does, once it asks for the run. -/
theorem comes_build {said : Said} (hbegins : said.begins calls = true)
    (hends : said.ends calls = calls.clock.isOk) :
    Comes bookId calls said w ((build bookId calls said >>= emit).run w).2 := by
  rcases build_emit_cases bookId calls said w with
    ⟨e, huuid, heq⟩ | ⟨runId, e, huuid, hclock, heq⟩ | ⟨runId, ts, huuid, hclock, heq⟩
  · rw [heq]
    exact .nothing fun _ => ⟨e, huuid⟩
  · rw [heq]
    exact .lost hbegins huuid (by rw [hends, hclock]; rfl)
  · rw [heq]
    exact .emitted hbegins huuid hclock (by rw [hends, hclock]; rfl)

theorem run_convert_some (calls : Calls) (value : ℚ) (w : Collecting config) :
    (convert calls (some value)).run w = (calls.converted, w) := rfl

/-- What a tap does. -/
theorem comes_buildProgress (name : String) (uuid : Option String) (reported : Option ℚ)
    (payload : Dict String Json) :
    Comes bookId calls (.progress name uuid reported payload) w
      ((buildProgress bookId calls name uuid reported payload >>= emit).run w).2 := by
  cases hcopied : calls.copied with
  | error e =>
    have hraised : (buildProgress bookId calls name uuid reported payload).run w = (.error e, w) :=
      Eff.run_bind_of_error (by rw [hcopied]; rfl)
    rw [Eff.run_bind_of_error hraised]
    refine .nothing fun hbegins => ?_
    rw [Said.begins, hcopied] at hbegins
    cases hbegins
  | ok copied =>
    have hbegins : (Said.progress name uuid reported payload).begins calls = true := by
      rw [Said.begins, hcopied]
      rfl
    have hbuild : (buildProgress bookId calls name uuid reported payload).run w
        = ((withNumber calls fun runId seq ts =>
            (Said.progress name uuid reported payload).event bookId runId seq ts) >>= fun event =>
              convert calls reported >>= fun _ => pure event).run w :=
      Eff.run_bind_of_ok (by rw [hcopied]; rfl)
    rcases withNumber_cases calls (fun runId seq ts =>
        (Said.progress name uuid reported payload).event bookId runId seq ts) w with
      ⟨e, huuid, heq⟩ | ⟨runId, e, huuid, hclock, heq⟩ | ⟨runId, ts, huuid, hclock, heq⟩
    · rw [Eff.run_bind_of_error (hbuild.trans (Eff.run_bind_of_error heq))]
      exact .nothing fun _ => ⟨e, huuid⟩
    · rw [Eff.run_bind_of_error (hbuild.trans (Eff.run_bind_of_error heq))]
      exact .lost hbegins huuid (ends_of_error hclock _)
    · rw [Eff.run_bind_of_ok heq] at hbuild
      have hemit := emit_event bookId (.progress name uuid reported payload) w runId ts
      have hok : calls.clock.isOk = true := by
        rw [hclock]
        rfl
      cases reported with
      | none =>
        rw [Eff.run_bind_of_ok rfl] at hbuild
        rw [Eff.run_bind_of_ok hbuild, hemit]
        exact .emitted hbegins huuid hclock hok
      | some value =>
        cases hconverted : calls.converted with
        | error e =>
          rw [Eff.run_bind_of_error (by rw [run_convert_some, hconverted])] at hbuild
          rw [Eff.run_bind_of_error hbuild]
          refine .lost hbegins huuid ?_
          rw [Said.ends, hok, hconverted]
          rfl
        | ok converted =>
          rw [Eff.run_bind_of_ok (by rw [run_convert_some, hconverted])] at hbuild
          rw [Eff.run_bind_of_ok hbuild, hemit]
          refine .emitted hbegins huuid hclock ?_
          rw [Said.ends, hok, hconverted]
          rfl

/-- **What a receiver does**: nothing, or it takes a number in vain, or it emits an event. -/
theorem receive_cases (bookId : Option String) (calls : Calls) (said : Said)
    (w : Collecting config) :
    Comes bookId calls said w ((receive bookId calls said).run w).2 := by
  cases said with
  | attached graph =>
    cases graph with
    | none => exact .nothing fun hbegins => by cases hbegins
    | some graph => exact comes_build rfl rfl
  | flow => exact comes_build rfl rfl
  | atom atomType state oldState name uuid result =>
    rw [receive, atomEvent]
    split
    · next hrenders =>
      cases hrendered : calls.rendered with
      | error e =>
        rw [Eff.run_bind_of_error rfl]
        refine .nothing fun hbegins => ?_
        rw [Said.begins, hrenders, hrendered] at hbegins
        cases hbegins
      | ok rendered =>
        rw [Eff.run_bind_of_ok rfl]
        refine comes_build ?_ rfl
        rw [Said.begins, hrendered]
        exact Bool.or_true _
    · next hrenders =>
      refine comes_build ?_ rfl
      rw [Said.begins, Bool.eq_false_iff.mpr hrenders]
      rfl
  | progress name uuid reported payload => exact comes_buildProgress name uuid reported payload

/-! ### A session -/

/-- An attachment at work. -/
structure Session (config : PipelineConfig) where
  collecting : Collecting config := {}
  /-- The events that would have been, with the numbers that were taken in vain. -/
  lost : List Event := []

namespace Session

inductive Step where
  /-- A receiver is told something. -/
  | receive (said : Said) (calls : Calls)
  /-- The pipeline goes on. -/
  | work (m : EventPipeline.Work)

/-- The event that would have been. -/
def lostOf (bookId : Option String) (said : Said) (calls : Calls) (w : Collecting config) :
    List Event :=
  if said.begins calls && !said.ends calls then
    calls.flowUuid.toOption.toList.map fun runId =>
      said.event bookId runId (w.allocator.peek runId + 1) 0
  else []

def step (bookId : Option String) (s : Session config) : Step → Session config
  | .receive said calls =>
    { collecting := ((TaskflowMeter.receive bookId calls said).run s.collecting).2
      lost := s.lost ++ lostOf bookId said calls s.collecting }
  | .work m => { s with collecting := s.collecting.step (.work m) }

/-- The events numbered so far are those submitted and those lost. -/
structure Numbers (s : Session config) (all : List Event) : Prop where
  accounted : s.collecting.pipeline.Accounted
  perm : all.Perm (s.collecting.pipeline.submitted ++ s.lost)
  isRun : ∀ r, IsRun 1 ((ofRun r all).map Event.seq)
  peek : ∀ r, s.collecting.allocator.peek r = (ofRun r all).length

/-- Another event takes the next number of its run. -/
theorem isRun_concat {all : List Event} {allocator : SequenceAllocator} {e : Event}
    (hrun : ∀ r, IsRun 1 ((ofRun r all).map Event.seq))
    (hpeek : ∀ r, allocator.peek r = (ofRun r all).length)
    (he : e.seq = allocator.peek e.runId + 1) (r : String) :
    IsRun 1 ((ofRun r (all ++ [e])).map Event.seq)
      ∧ (allocator.allocate e.runId).2.peek r = (ofRun r (all ++ [e])).length := by
  rw [ofRun_append, ofRun_singleton, SequenceAllocator.peek_allocate]
  by_cases hr : r = e.runId
  · subst hr
    rw [if_pos rfl, if_pos rfl, List.map_append, isRun_append, List.length_append, hpeek]
    refine ⟨⟨hrun _, ?_, trivial⟩, by simp⟩
    rw [he, hpeek, List.length_map, add_comm]
  · rw [if_neg hr, if_neg hr, List.append_nil]
    exact ⟨hrun r, hpeek r⟩

theorem lostOf_of_not_begins {said : Said}
    (h : said.begins calls = true → ∃ e, calls.flowUuid = .error e) :
    lostOf bookId said calls w = [] := by
  cases hbegins : said.begins calls with
  | false => simp [lostOf, hbegins]
  | true =>
    obtain ⟨e, he⟩ := h hbegins
    simp [lostOf, he, Except.toOption]

/-- **A receiver takes the next number** and loses it, or emits its event, or takes none. -/
theorem Numbers.receive {s : Session config} {all : List Event} (h : Numbers s all) (said : Said)
    (calls : Calls) : ∃ more, Numbers (s.step bookId (.receive said calls)) (all ++ more) := by
  have hcases := receive_cases bookId calls said s.collecting
  obtain ⟨w', hw'⟩ : ∃ w', w' = ((TaskflowMeter.receive bookId calls said).run s.collecting).2 :=
    ⟨_, rfl⟩
  have hstep : s.step bookId (.receive said calls)
      = { collecting := w', lost := s.lost ++ lostOf bookId said calls s.collecting } := by
    rw [hw', step]
  rw [hstep]
  rw [← hw'] at hcases
  cases hcases with
  | nothing hnot =>
    refine ⟨[], ?_⟩
    rw [lostOf_of_not_begins hnot, List.append_nil, List.append_nil]
    exact h
  | @lost runId hbegins huuid hends =>
    have hlost : lostOf bookId said calls s.collecting
        = [said.event bookId runId (s.collecting.allocator.peek runId + 1) 0] := by
      simp [lostOf, hbegins, hends, huuid, Except.toOption]
    have hnext := isRun_concat h.isRun h.peek
      (e := said.event bookId runId (s.collecting.allocator.peek runId + 1) 0) (by simp)
    rw [Said.runId_event] at hnext
    rw [hlost]
    refine ⟨[_], h.accounted, ?_, fun r => (hnext r).1, fun r => (hnext r).2⟩
    rw [← List.append_assoc]
    exact h.perm.append_right _
  | @emitted runId ts hbegins huuid hclock hends =>
    have hlost : lostOf bookId said calls s.collecting = [] := by simp [lostOf, hends]
    have hnext := isRun_concat h.isRun h.peek
      (e := { said.event bookId runId 0 ts with
        seq := s.collecting.allocator.peek (said.event bookId runId 0 ts).runId + 1 }) rfl
    rw [hlost, List.append_nil]
    refine ⟨[_], h.accounted.submit _, ?_, fun r => (hnext r).1, fun r => (hnext r).2⟩
    refine (h.perm.append_right _).trans ?_
    show (s.collecting.pipeline.submitted ++ s.lost ++ _).Perm
      (s.collecting.pipeline.submitted ++ _ ++ s.lost)
    rw [List.append_assoc, List.append_assoc]
    exact List.perm_append_comm.append_left _

theorem Numbers.work {s : Session config} {all : List Event} (h : Numbers s all)
    (m : EventPipeline.Work) : Numbers (s.step bookId (.work m)) all where
  accounted := h.accounted.work m
  perm := by
    show all.Perm ((s.collecting.pipeline.work m).submitted ++ s.lost)
    rw [EventPipeline.submitted_work]
    exact h.perm
  isRun := h.isRun
  peek := h.peek

/-- **The events submitted and those lost are numbered 1, 2, 3, … together**, run by run. -/
theorem numbers_run (config : PipelineConfig) (bookId : Option String) (steps : List Step) :
    ∃ all, Numbers (run (step bookId) ({} : Session config) steps) all := by
  induction steps using List.reverseRecOn with
  | nil => exact ⟨[], ⟨List.Perm.nil, rfl⟩, List.Perm.nil, fun _ => trivial, fun _ => rfl⟩
  | append_singleton steps st ih =>
    obtain ⟨all, hall⟩ := ih
    rw [run_concat]
    cases st with
    | receive said calls =>
      obtain ⟨more, hmore⟩ := hall.receive said calls
      exact ⟨_, hmore⟩
    | work m => exact ⟨all, hall.work m⟩

/-- Once nothing is on its way, the events of a run were lost, discarded or offered. -/
theorem Numbers.numbered {s : Session config} {all : List Event} (h : Numbers s all)
    (hsettled : s.collecting.Settled) (r : String) :
    Numbered r (ofRun r all).length
      (ofRun r (s.lost ++ s.collecting.pipeline.discarded)
        ++ ofRun r s.collecting.pipeline.offered.flatten) := by
  have hperm := h.accounted.perm
  rw [hsettled, List.nil_append] at hperm
  apply numbered_of_isRun (h.isRun r)
  rw [← ofRun_append]
  refine List.Perm.filter _ ?_
  calc all
      List.Perm _ (s.collecting.pipeline.submitted ++ s.lost) := h.perm
      List.Perm _ (s.collecting.pipeline.offered.flatten ++ s.collecting.pipeline.discarded
          ++ s.lost) := hperm.append_right _
      List.Perm _ (s.lost ++ (s.collecting.pipeline.offered.flatten
          ++ s.collecting.pipeline.discarded)) := List.perm_append_comm
      List.Perm _ (s.lost ++ (s.collecting.pipeline.discarded
          ++ s.collecting.pipeline.offered.flatten)) := List.perm_append_comm.append_left _
      _ = s.lost ++ s.collecting.pipeline.discarded ++ s.collecting.pipeline.offered.flatten :=
        (List.append_assoc ..).symm

/-- A store with room holds what was offered. -/
theorem Numbers.held_store {s : Session config} {all : List Event} (h : Numbers s all)
    (hsettled : s.collecting.Settled) {db : WritableDataSource} {runId : String}
    (hnew : db.held runId = [])
    (hroomy : db.Roomy (ofRun runId s.collecting.pipeline.offered.flatten).length
      s.collecting.pipeline.offered.flatten) :
    (s.collecting.store db).held runId = ofRun runId s.collecting.pipeline.offered.flatten := by
  have hnodup := (h.numbered hsettled runId).nodup
  rw [List.map_append, List.nodup_append] at hnodup
  have hall := WritableDataSource.held_applyMany_of_fresh hroomy (r := runId)
  rw [hnew] at hall
  rw [Collecting.store, WritableDataSource.held_foldl_applyMany]
  exact hall hnodup.2.1 le_rfl

end Session

/-- A walk through what is held of numbered events is complete exactly when none of the others lies
between two that are held. -/
theorem complete_walk_iff {db : WritableDataSource} {runId : String} {n : ℕ} {gone : List Event}
    (hnumbered : Numbered runId n (gone ++ db.held runId)) {limits : List ℤ}
    (hlimits : ∀ limit ∈ limits, 1 ≤ limit) (hne : limits ≠ [])
    (henough : (db.held runId).length ≤ limits.length) :
    Complete (db.held runId) (Client.walk db runId 0 limits)
      ↔ NotBetween (db.held runId) gone 0 := by
  have hwalk := walkedThrough_walk db runId 0 hlimits hne henough
  rw [← hwalk.obtains_iff hnumbered le_rfl]
  constructor
  · intro hcomplete e he _
    exact hcomplete.received e he
  · intro hobtains
    refine ⟨fun e he => ?_, fun a b m ha hb ham hmb => ?_⟩
    · have hpos := ((hnumbered.hasSeq_iff e.seq).mp ⟨e, List.mem_append_right _ he, rfl⟩).1
      exact hobtains e he (by omega)
    · exact Or.inl (hwalk.hasSeq_of_between ha hb ham.le hmb.le)

/-- **A client's view is complete exactly when no number that was lost or dropped lies between two
that are stored.**  The engine tells the receivers anything, in any order, and whatever they call may
raise; when nothing is on its way any more, a client walks from the beginning, with any limits. -/
theorem complete_after_failures_iff {bookId : Option String} {db : WritableDataSource}
    {runId : String} (hnew : db.held runId = []) {steps : List Session.Step} {s : Session config}
    (hs : s = run (Session.step bookId) {} steps) (hsettled : s.collecting.Settled)
    (hroomy : db.Roomy (ofRun runId s.collecting.pipeline.offered.flatten).length
      s.collecting.pipeline.offered.flatten)
    {limits : List ℤ} (hlimits : ∀ limit ∈ limits, 1 ≤ limit) (hne : limits ≠ [])
    (henough : ((s.collecting.store db).held runId).length ≤ limits.length) :
    Complete ((s.collecting.store db).held runId)
        (Client.walk (s.collecting.store db) runId 0 limits)
      ↔ NotBetween ((s.collecting.store db).held runId)
        (ofRun runId (s.lost ++ s.collecting.pipeline.discarded)) 0 := by
  obtain ⟨all, hall⟩ := Session.numbers_run config bookId steps
  rw [← hs] at hall
  have hnumbered := hall.numbered hsettled runId
  rw [← hall.held_store hsettled hnew hroomy] at hnumbered
  exact complete_walk_iff hnumbered hlimits hne henough

/-- Progress that is no number, and a state after it. -/
def unconverted : List Session.Step :=
  [.receive (.progress "first" none (some 0) ∅)
      { flowUuid := .ok "run-1", clock := .ok 0, converted := .error "ValueError" },
    .receive (.flow "RUNNING" none none) { flowUuid := .ok "run-1", clock := .ok 0 },
    .work (.advance 0), .work (.advance 0)] ++ List.replicate 3 (.work (.send fun _ => none))

theorem complete_after_failures_unconverted :
    (run (Session.step none) ({} : Session {}) unconverted).lost.map Event.seq = [1]
      ∧ Complete
        (((run (Session.step none) ({} : Session {}) unconverted).collecting.store
          (.memory {})).held "run-1")
        (Client.walk ((run (Session.step none) ({} : Session {}) unconverted).collecting.store
          (.memory {})) "run-1" 0 [10]) := by
  have hsettled :
      (run (Session.step none) ({} : Session {}) unconverted).collecting.Settled := rfl
  have hroomy : (WritableDataSource.memory {}).Roomy
      (ofRun "run-1" (run (Session.step none) ({} : Session {})
        unconverted).collecting.pipeline.offered.flatten).length
      (run (Session.step none) ({} : Session {})
        unconverted).collecting.pipeline.offered.flatten := ⟨Or.inl rfl, by decide⟩
  exact ⟨rfl, (complete_after_failures_iff rfl rfl hsettled hroomy (by decide) (by decide)
    (by decide)).mpr (by decide)⟩

end TaskflowMeter
