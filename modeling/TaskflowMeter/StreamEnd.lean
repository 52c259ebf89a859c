import TaskflowMeter.Api.Sse
import TaskflowMeter.Datasource.Memory
import TaskflowMeter.Lib.Runs

/-!
# The end of a stream

A cursor polls a history in memory while events are written to it, in any order.  The
two reads of a poll are separate: events may be written in between.

## Main definitions

* `Streaming.State`, `Streaming.Move` — the store, the cursor and its frames so far; a write, or one
  read of a poll.
* `EmitsEnd` — the read ends the stream.
* `HidesNothing` — every event held beyond the start has been framed.
* `Drained`, `InTime` — no event is held beyond the cursor; an event is written before
  the cursor has passed it.

## Main results

* `poll_spec` — **what a read frames.**
* `end_hides_nothing_iff` — **the ends of a stream hide nothing exactly when each finds
  the history drained, of events that were all in time.**
-/

namespace TaskflowMeter

open Runs EventCursor

namespace Streaming

/-- A store, and a cursor on one of its runs. -/
structure State where
  store : MemoryDataSource
  cursor : EventCursor
  /-- The poll in progress has found no events, and is about to read the flow. -/
  atFlow : Bool := false
  /-- The frames of all polls so far. -/
  frames : List Frame := []

inductive Move where
  | write (event : Event)
  /-- The next read of a poll. -/
  | read
  deriving DecidableEq

namespace State

/-- The events held for the cursor's run. -/
def held (w : State) : List Event := w.store.held w.cursor.runId

/-- The first read of a poll.  A read that is refused leaves everything as it was. -/
def readEvents (w : State) : State :=
  match w.store.eventsSince w.cursor.runId w.cursor.sinceSeq w.cursor.batchLimit with
  | .error _ => w
  | .ok page =>
      { w with
        cursor := (w.cursor.drain page).2
        atFlow := page.events.isEmpty
        frames := w.frames ++ (w.cursor.drain page).1 }

/-- The second read of a poll. -/
def readFlow (w : State) : State :=
  { w with
    cursor := (w.cursor.close (w.store.getFlow w.cursor.runId)).2
    atFlow := false
    frames := w.frames ++ (w.cursor.close (w.store.getFlow w.cursor.runId)).1 }

def step (w : State) : Move → State
  | .write event => { w with store := w.store.apply event }
  | .read => if w.atFlow then w.readFlow else w.readEvents

/-- The move emits the end frame and sets `complete`. -/
def EmitsEnd (w : State) (m : Move) : Prop :=
  (w.step m).frames = w.frames ++ [endFrame] ∧ (w.step m).cursor.complete = true

/-- The flow is about to be read, and has finished. -/
def AtEnd (w : State) (m : Move) : Prop :=
  m = .read ∧ w.atFlow = true ∧ flowFinished (w.store.getFlow w.cursor.runId) = true

/-- Every event held beyond the start has been framed. -/
def HidesNothing (start : ℤ) (w : State) : Prop :=
  ∀ e ∈ w.held, start < e.seq → eventFrame e ∈ w.frames

/-- No event is held beyond the cursor. -/
def Drained (w : State) : Prop := ∀ e ∈ w.held, e.seq ≤ w.cursor.sinceSeq

/-- An event is written before the cursor has passed its number, and is the first of its
number; or it has been written before. -/
def InTime (start : ℤ) (w : State) : Move → Prop
  | .read => True
  | .write event => event.runId = w.cursor.runId → start < event.seq →
      event ∈ w.held ∨ (w.cursor.sinceSeq < event.seq ∧ ¬HasSeq w.held event.seq)

instance (w : State) (m : Move) : Decidable (w.EmitsEnd m) :=
  inferInstanceAs (Decidable (_ ∧ _))

instance (w : State) (m : Move) : Decidable (w.AtEnd m) :=
  inferInstanceAs (Decidable (_ ∧ _ ∧ _))

instance (start : ℤ) (w : State) : Decidable (w.HidesNothing start) :=
  inferInstanceAs (Decidable (∀ e ∈ w.held, start < e.seq → eventFrame e ∈ w.frames))

instance (w : State) : Decidable w.Drained :=
  inferInstanceAs (Decidable (∀ e ∈ w.held, e.seq ≤ w.cursor.sinceSeq))

instance (start : ℤ) (w : State) : (m : Move) → Decidable (w.InTime start m)
  | .read => isTrue trivial
  | .write event => inferInstanceAs (Decidable (event.runId = w.cursor.runId → start < event.seq →
      event ∈ w.held ∨ (w.cursor.sinceSeq < event.seq ∧ ¬∃ e ∈ w.held, e.seq = event.seq)))

/-! ### One poll -/

/-- Without a write in between, the two reads are the poll. -/
theorem poll_eq (w : State) (hidle : w.atFlow = false) :
    w.cursor.poll w.store.eventsSince w.store.getFlow
      = match w.store.eventsSince w.cursor.runId w.cursor.sinceSeq w.cursor.batchLimit with
        | .error e => .error e
        | .ok _ =>
            let w' := if (w.step .read).atFlow then (w.step .read).step .read else w.step .read
            .ok (w'.frames.drop w.frames.length, w'.cursor) := by
  rw [EventCursor.poll]
  simp only [step, hidle, Bool.false_eq_true, if_false, readEvents]
  cases w.store.eventsSince w.cursor.runId w.cursor.sinceSeq w.cursor.batchLimit with
  | error e => rfl
  | ok page =>
    dsimp only
    by_cases hempty : page.events.isEmpty
    · simp [hempty, readFlow, drain]
    · simp [hempty, drain]

/-- The first read frames events, and the second may end the stream. -/
theorem emitsEnd_iff {w : State} {m : Move} : w.EmitsEnd m ↔ w.AtEnd m := by
  rw [EmitsEnd, AtEnd]
  cases m with
  | write event => simp [step]
  | read =>
    rw [step]
    cases hat : w.atFlow with
    | true =>
      simp only [if_true, readFlow, close, true_and]
      cases flowFinished (w.store.getFlow w.cursor.runId) <;> simp
    | false =>
      simp only [Bool.false_eq_true, if_false, readEvents, false_and, and_false, iff_false, not_and]
      -- the first read frames a page, and no page ends the stream
      intro hframes
      exfalso
      revert hframes
      cases w.store.eventsSince w.cursor.runId w.cursor.sinceSeq w.cursor.batchLimit with
      | error e => simp
      | ok page =>
        intro hframes
        have hmem := List.append_cancel_left hframes ▸ List.mem_singleton_self endFrame
        exact endFrame_notMem_drain hmem

/-- **What a read frames**: of each number that the cursor moves past, the event that was
the first to arrive. -/
theorem poll_spec (w : State) :
    (w.step .read).store = w.store ∧ (w.step .read).cursor.runId = w.cursor.runId
      ∧ w.cursor.sinceSeq ≤ (w.step .read).cursor.sinceSeq
      ∧ ∀ e, eventFrame e ∈ (w.step .read).frames ↔ eventFrame e ∈ w.frames
        ∨ (w.held.find? (fun x => x.seq = e.seq) = some e ∧ w.cursor.sinceSeq < e.seq
          ∧ e.seq ≤ (w.step .read).cursor.sinceSeq) := by
  have hsame : ∀ e : Event, eventFrame e ∈ w.frames ↔ eventFrame e ∈ w.frames
      ∨ (w.held.find? (fun x => x.seq = e.seq) = some e ∧ w.cursor.sinceSeq < e.seq
        ∧ e.seq ≤ w.cursor.sinceSeq) := by
    intro e
    rw [or_iff_left]
    rintro ⟨-, hlt, hle⟩
    omega
  rw [step]
  cases w.atFlow with
  | true =>
    -- the flow is read: the cursor stays where it is, and no event is framed
    have hclose : (w.cursor.close (w.store.getFlow w.cursor.runId)).2.runId = w.cursor.runId
        ∧ (w.cursor.close (w.store.getFlow w.cursor.runId)).2.sinceSeq = w.cursor.sinceSeq := by
      rw [close]
      split <;> exact ⟨rfl, rfl⟩
    simp only [if_true, readFlow, hclose, List.mem_append, or_false, eventFrame_notMem_close,
      le_refl, true_and]
    exact hsame
  | false =>
    simp only [Bool.false_eq_true, if_false, readEvents]
    by_cases hlimit : w.cursor.batchLimit < 1
    · -- the store refuses the limit, and nothing is read
      rw [MemoryDataSource.eventsSince, if_pos hlimit]
      exact ⟨rfl, rfl, le_rfl, hsame⟩
    · have hlimit' : 1 ≤ w.cursor.batchLimit := not_lt.mp hlimit
      rw [MemoryDataSource.eventsSince_eq _ _ _ hlimit']
      refine ⟨rfl, rfl, le_nextSeq_eventPage _ _ hlimit', ?_⟩
      intro e
      simp only [List.mem_append, eventFrame_mem_drain, mem_eventPage_iff hlimit']
      rfl

end State

open State

/-! ### A history that nothing is evicted from -/

/-- The events written. -/
def writes (moves : List Move) : List Event := moves.flatMap fun
  | .write event => [event]
  | .read => []

/-- The store has room for all that is written. -/
structure Fits (s : MemoryDataSource) (runId : String) (events : List Event) : Prop where
  fresh : s.held runId = []
  spares : s.Spares events
  length_le : (events.filter (·.runId = runId)).length ≤ s.maxEventsPerRun

theorem Fits.of_append {s : MemoryDataSource} {runId : String} {es es' : List Event}
    (h : Fits s runId (es ++ es')) : Fits s runId es := by
  refine ⟨h.fresh, h.spares.of_append_left, le_trans ?_ h.length_le⟩
  rw [List.filter_append, List.length_append]
  exact Nat.le_add_right _ _

theorem writes_append (moves moves' : List Move) :
    writes (moves ++ moves') = writes moves ++ writes moves' := List.flatMap_append

section

variable {s : MemoryDataSource} {cursor : EventCursor}

/-- The state after some moves. -/
abbrev after (s : MemoryDataSource) (cursor : EventCursor) (moves : List Move) : State :=
  run step { store := s, cursor := cursor } moves

theorem store_after (s : MemoryDataSource) (cursor : EventCursor) (moves : List Move) :
    (after s cursor moves).store = s.applyMany (writes moves)
      ∧ (after s cursor moves).cursor.runId = cursor.runId := by
  induction moves using List.reverseRecOn with
  | nil => exact ⟨rfl, rfl⟩
  | append_singleton moves m ih =>
    rw [after, run_concat, writes_append]
    cases m with
    | write event =>
      refine ⟨?_, ih.2⟩
      show (after s cursor moves).store.apply event = _
      rw [ih.1, MemoryDataSource.applyMany, MemoryDataSource.applyMany, List.foldl_append]
      rfl
    | read =>
      obtain ⟨hstore, hrun, -⟩ := (after s cursor moves).poll_spec
      refine ⟨?_, hrun.trans ih.2⟩
      rw [hstore, ih.1]
      exact congrArg _ (List.append_nil _).symm

/-- Nothing is evicted: the events held are those that were written. -/
theorem held_after {moves : List Move} (h : Fits s cursor.runId (writes moves)) :
    (after s cursor moves).held = (writes moves).filter (·.runId = cursor.runId) := by
  obtain ⟨hstore, hrun⟩ := store_after s cursor moves
  rw [held, hstore, hrun, MemoryDataSource.held_applyMany h.spares, h.fresh, List.nil_append,
    Deque.rtake_of_length_le h.length_le]

/-- What a write adds. -/
theorem held_after_write {moves : List Move} {event : Event}
    (h : Fits s cursor.runId (writes (moves ++ [.write event]))) :
    (after s cursor (moves ++ [.write event])).held
      = (after s cursor moves).held ++ if event.runId = cursor.runId then [event] else [] := by
  have hsplit := h
  rw [writes_append] at hsplit
  rw [held_after h, held_after hsplit.of_append, writes_append, List.filter_append]
  congr 1
  refine (ofRun_singleton cursor.runId event).trans ?_
  simp only [eq_comm]

/-- What a read leaves as it was. -/
theorem held_read (w : State) : (w.step .read).held = w.held := by
  obtain ⟨hstore, hrun, -⟩ := w.poll_spec
  rw [held, hstore, hrun]
  rfl

/-! ### What has been framed -/

/-- The event is the first to arrive of those with its number. -/
def State.IsFirst (w : State) (e : Event) : Prop :=
  w.held.find? (fun x => x.seq = e.seq) = some e

theorem State.IsFirst.mem {w : State} {e : Event} (h : w.IsFirst e) : e ∈ w.held :=
  List.mem_of_find?_eq_some h

theorem isFirst_read (w : State) (e : Event) : (w.step .read).IsFirst e ↔ w.IsFirst e := by
  rw [IsFirst, IsFirst, held_read]

/-- What is first stays first. -/
theorem isFirst_append {w w' : State} {e : Event} {es : List Event} (hheld : w'.held = w.held ++ es)
    (h : e ∈ w.held) : w'.IsFirst e ↔ w.IsFirst e := by
  rw [IsFirst, IsFirst, hheld, List.find?_append]
  cases hfind : w.held.find? (fun x => x.seq = e.seq) with
  | none =>
    have hnone := List.find?_eq_none.mp hfind e h
    simp at hnone
  | some x => rw [Option.some_or]

/-- Only first events between the start and the cursor are framed. -/
structure Framing (start : ℤ) (w : State) : Prop where
  low : start ≤ w.cursor.sinceSeq
  framed : ∀ e, eventFrame e ∈ w.frames →
    w.IsFirst e ∧ start < e.seq ∧ e.seq ≤ w.cursor.sinceSeq

theorem framing_after {moves : List Move} (h : Fits s cursor.runId (writes moves)) :
    Framing cursor.sinceSeq (after s cursor moves) := by
  induction moves using List.reverseRecOn with
  | nil => exact ⟨le_rfl, fun e he => absurd he List.not_mem_nil⟩
  | append_singleton moves m ih =>
    have hfits := h
    rw [writes_append] at h
    have hprev := ih h.of_append
    cases m with
    | write event =>
      have hheld := held_after_write hfits
      rw [after, run_concat] at hheld ⊢
      refine ⟨hprev.low, ?_⟩
      intro e he
      obtain ⟨hfirst, hlt, hle⟩ := hprev.framed e he
      exact ⟨(isFirst_append hheld hfirst.mem).mpr hfirst, hlt, hle⟩
    | read =>
      obtain ⟨-, -, hle, hframes⟩ := (after s cursor moves).poll_spec
      rw [after, run_concat]
      refine ⟨hprev.low.trans hle, ?_⟩
      intro e he
      rcases (hframes e).mp he with he | ⟨hfirst, hlt, hle'⟩
      · obtain ⟨hfirst, hlt, hle'⟩ := hprev.framed e he
        exact ⟨(isFirst_read _ e).mpr hfirst, hlt, hle'.trans hle⟩
      · exact ⟨(isFirst_read _ e).mpr hfirst, hprev.low.trans_lt hlt, hle'⟩

/-- Where every event was in time, each is the first of its number, and has been framed
once the cursor has passed it. -/
theorem framed_of_inTime {moves : List Move} (h : Fits s cursor.runId (writes moves))
    (htime : EveryMove (fun done => (after s cursor done).InTime cursor.sinceSeq) moves) :
    ∀ e ∈ (after s cursor moves).held, cursor.sinceSeq < e.seq →
      (after s cursor moves).IsFirst e
        ∧ (e.seq ≤ (after s cursor moves).cursor.sinceSeq →
          eventFrame e ∈ (after s cursor moves).frames) := by
  induction moves using List.reverseRecOn with
  | nil =>
    intro e he
    rw [held_after h] at he
    simp [writes] at he
  | append_singleton moves m ih =>
    have hfits := h
    rw [writes_append] at h
    obtain ⟨htime, hm⟩ := everyMove_concat.mp htime
    have hprev := ih h.of_append htime
    have hrun := (store_after s cursor moves).2
    cases m with
    | write event =>
      have hheld := held_after_write hfits
      rw [after, run_concat] at hheld ⊢
      intro e he hlt
      rw [hheld, List.mem_append] at he
      by_cases hmem : e ∈ (after s cursor moves).held
      · obtain ⟨hfirst, hframed⟩ := hprev e hmem hlt
        exact ⟨(isFirst_append hheld hmem).mpr hfirst, hframed⟩
      · -- the event is the one that has just been written, and is new
        have hnew := he.resolve_left hmem
        have hr : event.runId = cursor.runId := by
          by_contra hne
          rw [if_neg hne] at hnew
          exact List.not_mem_nil hnew
        rw [if_pos hr] at hheld hnew
        obtain rfl := List.mem_singleton.mp hnew
        obtain ⟨hpast, hnot⟩ := (hm (hr.trans hrun.symm) hlt).resolve_left hmem
        refine ⟨?_, fun hle => absurd hpast (not_lt.mpr hle)⟩
        have hnone : (after s cursor moves).held.find? (fun x => x.seq = e.seq) = none := by
          rw [List.find?_eq_none]
          intro x hx hseq
          exact hnot ⟨x, hx, of_decide_eq_true hseq⟩
        rw [IsFirst, hheld, List.find?_append, hnone, Option.none_or]
        simp
    | read =>
      obtain ⟨-, -, hle, hframes⟩ := (after s cursor moves).poll_spec
      rw [after, run_concat]
      intro e he hlt
      rw [held_read] at he
      obtain ⟨hfirst, hframed⟩ := hprev e he hlt
      refine ⟨(isFirst_read _ e).mpr hfirst, fun hpassed => ?_⟩
      rw [hframes]
      by_cases hold : e.seq ≤ (after s cursor moves).cursor.sinceSeq
      · exact Or.inl (hframed hold)
      · exact Or.inr ⟨hfirst, by omega, hpassed⟩

/-- An event that will never be framed: the cursor has passed it, or another one of its
number came first. -/
structure Lost (start : ℤ) (w : State) (e : Event) : Prop where
  mem : e ∈ w.held
  lt_seq : start < e.seq
  notFramed : eventFrame e ∉ w.frames
  passed : e.seq ≤ w.cursor.sinceSeq ∨ ¬w.IsFirst e

/-- A write that is not in time is lost. -/
theorem lost_of_not_inTime {moves : List Move} {m : Move}
    (h : Fits s cursor.runId (writes (moves ++ [m])))
    (hm : ¬(after s cursor moves).InTime cursor.sinceSeq m) :
    ∃ e, Lost cursor.sinceSeq (after s cursor (moves ++ [m])) e := by
  have hfits := h
  rw [writes_append] at h
  have hframing := framing_after h.of_append
  have hrun := (store_after s cursor moves).2
  cases m with
  | read => exact absurd trivial hm
  | write event =>
    have hheld := held_after_write hfits
    simp only [InTime, Classical.not_imp, not_or, not_and, not_not] at hm
    obtain ⟨hr, hlt, hnew, hlate⟩ := hm
    rw [if_pos (hr.trans hrun)] at hheld
    rw [after, run_concat] at hheld ⊢
    refine ⟨event, ?_, hlt, ?_, ?_⟩
    · rw [hheld]
      exact List.mem_append_right _ (List.mem_singleton_self _)
    · exact fun hframed => hnew (hframing.framed event hframed).1.mem
    · by_cases hpast : event.seq ≤ (after s cursor moves).cursor.sinceSeq
      · exact Or.inl hpast
      · -- another event of its number is held, and comes first
        right
        obtain ⟨x, hx, hseq⟩ := hlate (not_le.mp hpast)
        intro hfirst
        rw [IsFirst, hheld, List.find?_append] at hfirst
        cases hfind : (after s cursor moves).held.find? (fun x => x.seq = event.seq) with
        | none =>
          have hnone := List.find?_eq_none.mp hfind x hx
          simp [hseq] at hnone
        | some y =>
          rw [hfind, Option.some_or, Option.some.injEq] at hfirst
          exact hnew (hfirst ▸ List.mem_of_find?_eq_some hfind)

/-- What is lost stays lost. -/
theorem Lost.step {moves : List Move} {m : Move}
    (h : Fits s cursor.runId (writes (moves ++ [m]))) {e : Event}
    (hlost : Lost cursor.sinceSeq (after s cursor moves) e) :
    Lost cursor.sinceSeq (after s cursor (moves ++ [m])) e := by
  cases m with
  | write event =>
    have hheld := held_after_write h
    rw [after, run_concat] at hheld ⊢
    refine ⟨?_, hlost.lt_seq, hlost.notFramed, ?_⟩
    · rw [hheld]
      exact List.mem_append_left _ hlost.mem
    · exact hlost.passed.imp_right fun hnot hfirst =>
        hnot ((isFirst_append hheld hlost.mem).mp hfirst)
  | read =>
    obtain ⟨-, -, hle, hframes⟩ := (after s cursor moves).poll_spec
    rw [after, run_concat]
    refine ⟨?_, hlost.lt_seq, ?_, ?_⟩
    · rw [held_read]
      exact hlost.mem
    · rw [hframes]
      rintro (hframed | ⟨hfirst, hlt, -⟩)
      · exact hlost.notFramed hframed
      · rcases hlost.passed with hpast | hnot
        · omega
        · exact hnot hfirst
    · exact hlost.passed.imp (fun hpast => hpast.trans hle) fun hnot hfirst =>
        hnot ((isFirst_read _ e).mp hfirst)

theorem Lost.after {moves more : List Move} (h : Fits s cursor.runId (writes (moves ++ more)))
    {e : Event} (hlost : Lost cursor.sinceSeq (after s cursor moves) e) :
    Lost cursor.sinceSeq (Streaming.after s cursor (moves ++ more)) e := by
  induction more using List.reverseRecOn with
  | nil => rwa [List.append_nil]
  | append_singleton more m ih =>
    rw [← List.append_assoc] at h ⊢
    have hpre := h
    rw [writes_append] at hpre
    exact (ih hpre.of_append).step h

/-- **What hides nothing**: a history without lost events, of which none is held beyond the
cursor. -/
theorem hidesNothing_iff {moves : List Move} (h : Fits s cursor.runId (writes moves)) :
    (after s cursor moves).HidesNothing cursor.sinceSeq
      ↔ (after s cursor moves).Drained
        ∧ EveryMove (fun done => (after s cursor done).InTime cursor.sinceSeq) moves := by
  have hframing := framing_after h
  constructor
  · intro hall
    refine ⟨?_, ?_⟩
    · intro e he
      by_cases hlt : cursor.sinceSeq < e.seq
      · exact (hframing.framed e (hall e he hlt)).2.2
      · exact (not_lt.mp hlt).trans hframing.low
    · -- an event that was not in time would be hidden to the end
      intro done m todo heq
      by_contra hnot
      have hcat : moves = (done ++ [m]) ++ todo := by rw [heq]; simp
      have hpre := h
      rw [hcat, writes_append] at hpre
      obtain ⟨e, hlost⟩ := lost_of_not_inTime hpre.of_append hnot
      have hend := hlost.after (hcat ▸ h)
      rw [← hcat] at hend
      exact hend.notFramed (hall e hend.mem hend.lt_seq)
  · rintro ⟨hdrained, htime⟩ e he hlt
    exact (framed_of_inTime h htime e he hlt).2 (hdrained e he)

/-- **The ends of a stream hide nothing exactly when each finds the history drained, of
events that were all in time.** -/
theorem end_hides_nothing_iff {moves : List Move} (h : Fits s cursor.runId (writes moves)) :
    EveryMove (fun done m => (after s cursor done).EmitsEnd m →
        (after s cursor done).HidesNothing cursor.sinceSeq) moves
      ↔ EveryMove (fun done m => (after s cursor done).AtEnd m →
        (after s cursor done).Drained
          ∧ EveryMove (fun pre => (after s cursor pre).InTime cursor.sinceSeq) done) moves := by
  have hpre : ∀ done m todo, moves = done ++ m :: todo → Fits s cursor.runId (writes done) := by
    intro done m todo heq
    rw [heq, writes_append] at h
    exact h.of_append
  constructor
  · intro hall done m todo heq hend
    exact (hidesNothing_iff (hpre done m todo heq)).mp
      (hall done m todo heq (emitsEnd_iff.mpr hend))
  · intro hall done m todo heq hend
    exact (hidesNothing_iff (hpre done m todo heq)).mpr
      (hall done m todo heq (emitsEnd_iff.mp hend))

end

/-! ### An event between the two reads -/

/-- Two events arrive after the cursor has found none and before it reads the flow. -/
def finishesInBetween : List Move :=
  [.write (flowEvent 1 "RUNNING"), .read, .read, .write (heartbeat 2),
    .write (flowEvent 3 "SUCCESS"), .read]

/-- The stream ends, and two events are hidden. -/
theorem end_hides_last_events :
    Fits {} "run-1" (writes finishesInBetween)
      ∧ ¬EveryMove (fun done m => (after {} { runId := "run-1" } done).EmitsEnd m →
          (after {} { runId := "run-1" } done).HidesNothing 0) finishesInBetween := by
  refine ⟨⟨rfl, Or.inl rfl, by decide⟩, ?_⟩
  intro h
  have hhides := h [.write (flowEvent 1 "RUNNING"), .read, .read, .write (heartbeat 2),
    .write (flowEvent 3 "SUCCESS")] .read [] rfl (by decide)
  revert hhides
  decide

/-- Where the last event is framed before the cursor finds none, nothing is hidden. -/
theorem end_hides_nothing_drained :
    EveryMove (fun done m => (after {} { runId := "run-1" } done).EmitsEnd m →
        (after {} { runId := "run-1" } done).HidesNothing 0)
      [.write (flowEvent 1 "RUNNING"), .read, .write (flowEvent 2 "SUCCESS"), .read, .read,
        .read] := by
  have hfits : Fits {} "run-1" (writes [.write (flowEvent 1 "RUNNING"), .read,
      .write (flowEvent 2 "SUCCESS"), .read, .read, .read]) :=
    ⟨rfl, Or.inl rfl, by decide⟩
  refine Iff.mpr (end_hides_nothing_iff hfits) ?_
  decide

end Streaming

end TaskflowMeter
