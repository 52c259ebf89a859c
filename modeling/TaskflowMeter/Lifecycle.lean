import TaskflowMeter.Meter
import TaskflowMeter.Lib.Runs

/-!
# The lifecycle of the meter

Whoever takes the first reference starts the source, the store and the poller, and whoever lets go
of the last stops them.  The reference is taken before anything is started, and each of the starts
may raise.  Every call holds the lock of the meter, so that the calls of all threads are one
sequence.

## Main definitions

* `Meter.Lifecycle` — who holds the meter and what of it is started.
* `Meter.Use`, `Meter.Watched` — the calls, and the starts that no stop has matched.
* `Meter.Accounted` — what the references are for.
* `Meter.Watched.Steady` — a call does not fail halfway.
* `Meter.lifespan` — what a server does with the meter.

## Main results

* `Meter.Lifecycle.startLocked_cases` — **how a start comes out.**
* `Meter.inv_after` — as long as no call fails halfway, the references are the starts to be matched.
* `Meter.exists_uses_lifespan`, `Meter.holders_lifespan` — a server is one of the callers, and keeps
  its reference where it fails to start.
* `Meter.lifecycle_iff` — **the references are right exactly as long as no call fails halfway.**
-/

namespace TaskflowMeter

namespace Meter

open Runs

inductive Component where
  | source
  | store
  | poller
  deriving DecidableEq, Repr

/-- Whose own start raises in a call. -/
structure Raising where
  source : Bool := false
  store : Bool := false

structure Lifecycle where
  /-- `self.store is not None`. -/
  hasStore : Bool
  /-- `self._poller is not None`. -/
  hasPoller : Bool
  hasStore_of_hasPoller : hasPoller = true → hasStore = true
  holders : ℕ := 0
  started : Bool := false
  /-- The components that were started and not stopped since. -/
  components : Finset Component := ∅
  /-- `_atexit_stop` is registered. -/
  registered : Bool := false

namespace Lifecycle

theorem default_store (store : Bool) {poll : Bool} (h : poll = true) : (store || poll) = true := by
  simp [h]

/-- A new meter; polling needs a store and defaults to one in memory. -/
def init (store poll : Bool) : Lifecycle where
  hasStore := store || poll
  hasPoller := poll
  hasStore_of_hasPoller := default_store store

/-- A component is started. -/
def up (s : Lifecycle) (c : Component) : Lifecycle := { s with components := insert c s.components }

/-- A component is stopped. -/
def down (s : Lifecycle) (c : Component) : Lifecycle :=
  { s with components := s.components.erase c }

/-- Start everything, unless it is.  Returns whether it raised. -/
def startLocked (s : Lifecycle) (raising : Raising) : Lifecycle × Bool :=
  if s.started then (s, false)
  else if raising.source then (s, true)
  else
    let s := s.up .source
    if s.hasStore && raising.store then (s, true)
    else
      let s := if s.hasStore then s.up .store else s
      let s := if s.hasPoller then s.up .poller else s
      ({ s with registered := true, started := true }, false)

/-- Stop everything, unless it is.  That a component objects is only logged. -/
def stopLocked (s : Lifecycle) : Lifecycle :=
  if s.started then
    let s := { s with started := false }
    let s := if s.hasPoller then s.down .poller else s
    let s := if s.hasStore then s.down .store else s
    { s.down .source with registered := false }
  else s

/-- Take a reference, starting everything on the first one. -/
def start (s : Lifecycle) (raising : Raising) : Lifecycle × Bool :=
  { s with holders := s.holders + 1 }.startLocked raising

/-- Release a reference, stopping when the last one goes. -/
def stop (s : Lifecycle) : Lifecycle :=
  -- the count floors at zero
  let s := { s with holders := s.holders - 1 }
  if s.holders = 0 then s.stopLocked else s

/-- Start if not already running, without taking a reference. -/
def ensureStarted (s : Lifecycle) (raising : Raising) : Lifecycle × Bool := s.startLocked raising

/-- `__enter__`. -/
def enter (s : Lifecycle) (raising : Raising) : Lifecycle × Bool := s.start raising

/-- `__exit__`. -/
def exit (s : Lifecycle) : Lifecycle := s.stop

/-- A start would raise. -/
def Raises (s : Lifecycle) (raising : Raising) : Prop :=
  raising.source = true ∨ s.hasStore = true ∧ raising.store = true

/-- The components that a running meter has. -/
def parts (s : Lifecycle) : Finset Component :=
  {.source} ∪ (if s.hasStore then {.store} else ∅) ∪ (if s.hasPoller then {.poller} else ∅)

/-- The meter with all its components started. -/
def running (s : Lifecycle) : Lifecycle :=
  { s with components := s.components ∪ s.parts, registered := true, started := true }

/-- The meter with none of its components started. -/
def stopped (s : Lifecycle) : Lifecycle :=
  { s with components := s.components \ s.parts, registered := false, started := false }

theorem running_eq (s : Lifecycle) :
    s.running =
      let s := s.up .source
      let s := if s.hasStore then s.up .store else s
      let s := if s.hasPoller then s.up .poller else s
      { s with registered := true, started := true } := by
  obtain ⟨hasStore, hasPoller⟩ := s
  cases hasStore <;> cases hasPoller <;>
    simp [running, parts, up, Finset.insert_comm]

/-- **How a start comes out**: nothing is to be done, or the source raises, or the store does when
the source is started already, or everything is started. -/
theorem startLocked_cases (s : Lifecycle) (raising : Raising) :
    s.started = true ∧ s.startLocked raising = (s, false)
      ∨ s.started = false ∧ raising.source = true ∧ s.startLocked raising = (s, true)
      ∨ s.started = false ∧ raising.source = false ∧ s.hasStore = true ∧ raising.store = true
        ∧ s.startLocked raising = (s.up .source, true)
      ∨ s.started = false ∧ ¬s.Raises raising ∧ s.startLocked raising = (s.running, false) := by
  unfold startLocked
  cases hstarted : s.started with
  | true => exact .inl ⟨rfl, rfl⟩
  | false =>
    cases hsource : raising.source with
    | true => exact .inr (.inl ⟨rfl, rfl, rfl⟩)
    | false =>
      by_cases hstore : s.hasStore = true ∧ raising.store = true
      · refine .inr (.inr (.inl ⟨rfl, rfl, hstore.1, hstore.2, ?_⟩))
        simp [up, hstore]
      · refine .inr (.inr (.inr ⟨rfl, ?_, ?_⟩))
        · rintro (hraises | hraises)
          · rw [hsource] at hraises
            cases hraises
          · exact hstore hraises
        · have hstore' : ((s.up .source).hasStore && raising.store) = false := by
            simpa [up] using hstore
          rw [running_eq]
          simp [hstore']

theorem stopLocked_eq (s : Lifecycle) :
    s.stopLocked = if s.started then s.stopped else s := by
  unfold stopLocked
  obtain ⟨hasStore, hasPoller⟩ := s
  split
  · cases hasStore <;> cases hasPoller <;>
      simp [stopped, parts, down, Finset.sdiff_insert, Finset.sdiff_singleton_eq_erase]
  · rfl

/-- The components that are started are all or none. -/
def Whole (s : Lifecycle) : Prop := s.components = if s.started then s.parts else ∅

theorem whole_init (store poll : Bool) : (init store poll).Whole := rfl

variable {s : Lifecycle} {raising : Raising}

/-- A start that does not raise. -/
theorem startLocked_of_not_raises (h : s.started = true ∨ ¬s.Raises raising) :
    s.startLocked raising = (if s.started then s else s.running, false) := by
  rcases s.startLocked_cases raising with ⟨hstarted, heq⟩ | ⟨hstarted, hraises, -⟩ |
    ⟨hstarted, -, hstore, hraises, -⟩ | ⟨hstarted, -, heq⟩
  · rw [heq, if_pos hstarted]
  · exact absurd h (by simp [hstarted, Raises, hraises])
  · exact absurd h (by simp [hstarted, Raises, hstore, hraises])
  · rw [heq, if_neg (by simp [hstarted])]

/-- A start that raises. -/
theorem startLocked_of_raises (h : s.started = false) (hraises : s.Raises raising) :
    s.startLocked raising = (if raising.source then s else s.up .source, true) := by
  rcases s.startLocked_cases raising with ⟨hstarted, -⟩ | ⟨-, hsource, heq⟩ |
    ⟨-, hsource, -, -, heq⟩ | ⟨-, hnot, -⟩
  · exact absurd hstarted (by simp [h])
  · rw [heq, if_pos hsource]
  · rw [heq, if_neg (by simp [hsource])]
  · exact absurd hraises hnot

@[simp] theorem started_startLocked_of_not_raises (s : Lifecycle) :
    (if s.started then s else s.running).started = true := by
  split
  · assumption
  · rfl

@[simp] theorem holders_startLocked_of_not_raises (s : Lifecycle) :
    (if s.started then s else s.running).holders = s.holders := by
  split <;> rfl

theorem Whole.running (h : s.Whole) : (if s.started then s else s.running).Whole := by
  split
  · exact h
  · next hstarted =>
    rw [Whole, if_neg hstarted] at h
    show s.components ∪ s.parts = s.parts
    rw [h, Finset.empty_union]

theorem Whole.stopLocked (h : s.Whole) : s.stopLocked.Whole := by
  rw [stopLocked_eq]
  split
  · next hstarted =>
    rw [Whole, if_pos hstarted] at h
    show s.components \ s.parts = ∅
    rw [h, Finset.sdiff_self]
  · exact h

theorem Whole.stop (h : s.Whole) : s.stop.Whole := by
  have hfewer : Whole { s with holders := s.holders - 1 } := h
  unfold Lifecycle.stop
  dsimp only
  split
  · exact hfewer.stopLocked
  · exact hfewer

@[simp] theorem started_stopLocked (s : Lifecycle) : s.stopLocked.started = false := by
  rw [stopLocked_eq]
  split
  · rfl
  · next hstarted => exact Bool.eq_false_iff.mpr hstarted

@[simp] theorem holders_stop (s : Lifecycle) : s.stop.holders = s.holders - 1 := by
  unfold stop
  dsimp only
  split
  · rw [stopLocked_eq]
    split <;> rfl
  · rfl

theorem started_stop (s : Lifecycle) :
    s.stop.started = if s.holders - 1 = 0 then false else s.started := by
  unfold stop
  dsimp only
  split
  · exact started_stopLocked _
  · rfl

end Lifecycle

/-! ### The calls of a run -/

inductive Use where
  | start (raising : Raising)
  | stop
  | ensureStarted (raising : Raising)
  | enter (raising : Raising)
  | exit

/-- A meter, and what its users know of it. -/
structure Watched where
  meter : Lifecycle
  /-- The starts that succeeded and are not matched by a stop. -/
  owed : ℕ := 0
  /-- It was ensured since the last stop that the meter is started. -/
  ensured : Bool := false

namespace Watched

/-- A start, and whether it succeeded. -/
def afterStart (s : Watched) : Lifecycle × Bool → Watched × Bool
  | (meter, true) => ({ s with meter := meter }, true)
  | (meter, false) => ({ s with meter := meter, owed := s.owed + 1 }, false)

def afterEnsure (s : Watched) : Lifecycle × Bool → Watched × Bool
  | (meter, true) => ({ s with meter := meter }, true)
  | (meter, false) => ({ s with meter := meter, ensured := true }, false)

def afterStop (s : Watched) (meter : Lifecycle) : Watched × Bool :=
  ({ meter := meter, owed := s.owed - 1 }, false)

/-- A call, and whether it raised. -/
def call (s : Watched) : Use → Watched × Bool
  | .start raising => s.afterStart (s.meter.start raising)
  | .enter raising => s.afterStart (s.meter.enter raising)
  | .ensureStarted raising => s.afterEnsure (s.meter.ensureStarted raising)
  | .stop => s.afterStop s.meter.stop
  | .exit => s.afterStop s.meter.exit

/-- A call that raises leaves the meter as it was. -/
def Unchanged (s : Watched) (a : Use) : Prop :=
  (s.call a).2 = true → (s.call a).1.meter.holders = s.meter.holders
    ∧ (s.call a).1.meter.started = s.meter.started
    ∧ (s.call a).1.meter.components = s.meter.components

/-- Who holds the meter keeps it running. -/
def Counted (s : Watched) : Prop := 0 < s.meter.holders → s.meter.started = true

/-- A meter whose starts are all matched does not run, unless that was ensured since. -/
def Released (s : Watched) : Prop := s.owed = 0 → s.ensured = false → s.meter.started = false

/-- The call does not fail with a reference taken or a component started. -/
def Steady (s : Watched) : Use → Prop
  | .start raising | .enter raising => s.meter.started = true ∨ ¬s.meter.Raises raising
  | .ensureStarted raising =>
      s.meter.started = true ∨ raising.source = true ∨ ¬s.meter.Raises raising
  | .stop | .exit => True

/-- What is known as long as no call fails halfway. -/
structure Inv (s : Watched) : Prop where
  whole : s.meter.Whole
  /-- Every reference is a start that succeeded. -/
  holders : s.meter.holders = s.owed
  counted : s.Counted
  released : s.Released

variable {s : Watched} {raising : Raising}

theorem inv_afterStart (h : s.Inv) (hsteady : s.meter.started = true ∨ ¬s.meter.Raises raising) :
    (s.call (.start raising)).1.Inv ∧ (s.call (.start raising)).2 = false := by
  have hheld : ({ s.meter with holders := s.meter.holders + 1 } : Lifecycle).Whole := h.whole
  have hstart : s.meter.start raising = _ := Lifecycle.startLocked_of_not_raises hsteady
  rw [call, hstart]
  refine ⟨⟨hheld.running, ?_, fun _ => ?_, fun howed => ?_⟩, rfl⟩
  · exact (Lifecycle.holders_startLocked_of_not_raises _).trans (congrArg (· + 1) h.holders)
  · exact Lifecycle.started_startLocked_of_not_raises _
  · exact absurd howed (Nat.succ_ne_zero _)

theorem inv_afterStop (h : s.Inv) : (s.call .stop).1.Inv ∧ (s.call .stop).2 = false := by
  have hstarted := s.meter.started_stop
  refine ⟨⟨h.whole.stop, ?_, fun hheld => ?_, fun howed _ => ?_⟩, rfl⟩
  · exact s.meter.holders_stop.trans (congrArg (· - 1) h.holders)
  · have hheld' : 0 < s.meter.holders - 1 := s.meter.holders_stop ▸ hheld
    rw [if_neg (by omega)] at hstarted
    exact hstarted.trans (h.counted (by omega))
  · have howed' : s.owed - 1 = 0 := howed
    rw [h.holders, if_pos howed'] at hstarted
    exact hstarted

theorem inv_afterEnsure (h : s.Inv) (hsteady : s.meter.started = true ∨ ¬s.meter.Raises raising) :
    (s.call (.ensureStarted raising)).1.Inv ∧ (s.call (.ensureStarted raising)).2 = false := by
  have hensure : s.meter.ensureStarted raising = _ := Lifecycle.startLocked_of_not_raises hsteady
  rw [call, hensure]
  refine ⟨⟨h.whole.running, ?_, fun _ => ?_, fun _ hensured => nomatch hensured⟩, rfl⟩
  · exact (Lifecycle.holders_startLocked_of_not_raises _).trans h.holders
  · exact Lifecycle.started_startLocked_of_not_raises _

/-- **A call that does not fail halfway** keeps what is known. -/
theorem Inv.call (h : s.Inv) {a : Use} (hsteady : s.Steady a) : (s.call a).1.Inv := by
  cases a with
  | start raising => exact (inv_afterStart h hsteady).1
  | enter raising => exact (inv_afterStart h hsteady).1
  | stop => exact (inv_afterStop h).1
  | exit => exact (inv_afterStop h).1
  | ensureStarted raising =>
    by_cases hraises : s.meter.started = true ∨ ¬s.meter.Raises raising
    · exact (inv_afterEnsure h hraises).1
    · obtain ⟨hstopped, hraises⟩ := not_or.mp hraises
      have hsource : raising.source = true := by
        rcases hsteady with hstarted | hsource | hnot
        · exact absurd hstarted hstopped
        · exact hsource
        · exact absurd hnot hraises
      have hensure := Lifecycle.startLocked_of_raises (Bool.eq_false_iff.mpr hstopped)
          (not_not.mp hraises)
      rw [if_pos hsource] at hensure
      rw [Watched.call, Lifecycle.ensureStarted, hensure]
      exact h

/-- A start that raises keeps the reference. -/
theorem unchanged_start_iff (h : s.Inv) :
    s.Unchanged (.start raising) ↔ s.Steady (.start raising) := by
  constructor
  · intro hunchanged
    by_contra hsteady
    obtain ⟨hstopped, hraises⟩ := not_or.mp hsteady
    have hstart : s.meter.start raising = _ := Lifecycle.startLocked_of_raises
      (Bool.eq_false_iff.mpr hstopped) (not_not.mp hraises)
    rw [Unchanged, call, hstart] at hunchanged
    have hholders := (hunchanged rfl).1
    split at hholders <;> exact Nat.succ_ne_self _ hholders
  · intro hsteady hraised
    rw [(inv_afterStart h hsteady).2] at hraised
    cases hraised

/-- Where the store raises, the source is left started. -/
theorem unchanged_ensureStarted_iff (h : s.Inv) :
    s.Unchanged (.ensureStarted raising) ↔ s.Steady (.ensureStarted raising) := by
  by_cases hgood : s.meter.started = true ∨ ¬s.meter.Raises raising
  · have hsteady : s.Steady (.ensureStarted raising) := hgood.imp_right Or.inr
    refine iff_of_true (fun hraised => ?_) hsteady
    rw [(inv_afterEnsure h hgood).2] at hraised
    cases hraised
  · obtain ⟨hstopped, hraises⟩ := not_or.mp hgood
    have hstopped' := Bool.eq_false_iff.mpr hstopped
    have hensure : s.meter.ensureStarted raising = _ :=
      Lifecycle.startLocked_of_raises hstopped' (not_not.mp hraises)
    rw [Unchanged, call, hensure]
    cases hsource : raising.source with
    | true => exact iff_of_true (fun _ => ⟨rfl, rfl, rfl⟩) (.inr (.inl hsource))
    | false =>
      refine iff_of_false (fun hunchanged => ?_) ?_
      · have hnone := h.whole
        rw [Lifecycle.Whole, if_neg hstopped] at hnone
        have hcomponents : insert Component.source s.meter.components = s.meter.components :=
          (hunchanged rfl).2.2
        rw [hnone] at hcomponents
        exact Finset.insert_ne_empty _ _ hcomponents
      · simp [Steady, hstopped', hsource, not_not.mp hraises]

/-- **A call that raises leaves the meter as it was exactly where it does not fail halfway.** -/
theorem Inv.unchanged_iff (h : s.Inv) (a : Use) : s.Unchanged a ↔ s.Steady a := by
  cases a with
  | start raising => exact unchanged_start_iff h
  | enter raising => exact unchanged_start_iff h
  | ensureStarted raising => exact unchanged_ensureStarted_iff h
  | stop | exit => exact iff_of_true (fun hraised => nomatch hraised) trivial

end Watched

/-- The state after calls of a new meter. -/
def after (store poll : Bool) (uses : List Use) : Watched :=
  run (fun s a => (s.call a).1) { meter := .init store poll } uses

theorem after_concat (store poll : Bool) (uses : List Use) (a : Use) :
    after store poll (uses ++ [a]) = ((after store poll uses).call a).1 := run_concat ..

/-- The references are right throughout a run. -/
structure Accounted (store poll : Bool) (uses : List Use) : Prop where
  unchanged : EveryMove (fun done a => (after store poll done).Unchanged a) uses
  counted : Always (fun done => (after store poll done).Counted) uses
  released : Always (fun done => (after store poll done).Released) uses

section

variable {store poll : Bool} {uses : List Use}

theorem inv_init : (after store poll []).Inv :=
  ⟨Lifecycle.whole_init store poll, rfl, fun h => absurd h (Nat.lt_irrefl 0), fun _ _ => rfl⟩

/-- **As long as no call fails halfway**, the references are the starts to be matched. -/
theorem inv_after (h : EveryMove (fun done a => (after store poll done).Steady a) uses) :
    (after store poll uses).Inv := by
  refine inv_run (I := fun done => (after store poll done).Inv) inv_init ?_ h
  intro done a _ _ hinv hsteady
  rw [after_concat]
  exact hinv.call hsteady

theorem unchanged_iff_steady :
    EveryMove (fun done a => (after store poll done).Unchanged a) uses
      ↔ EveryMove (fun done a => (after store poll done).Steady a) uses := by
  induction uses using List.reverseRecOn with
  | nil => simp
  | append_singleton uses a ih =>
    rw [everyMove_concat, everyMove_concat, ih]
    exact and_congr_right fun h => (inv_after h).unchanged_iff a

end

/-- **The references are right exactly as long as no call fails halfway.** -/
theorem lifecycle_iff (store poll : Bool) (uses : List Use) :
    Accounted store poll uses ↔ EveryMove
      (fun done a => (after store poll done).Steady a) uses := by
  constructor
  · intro h
    exact unchanged_iff_steady.mp h.unchanged
  · intro h
    refine ⟨unchanged_iff_steady.mpr h, fun done todo heq => ?_,
      fun done todo heq => ?_⟩ <;> subst heq
    · exact (inv_after h.of_append).counted
    · exact (inv_after h.of_append).released

/-- A server that fails to start and is started again, then stopped. -/
def restarted : List Use := [.start { source := true }, .start {}, .stop]

/-- **A reference that a failed start has taken keeps the meter running**, when every start that
succeeded is matched. -/
theorem failed_start_held :
    ¬Accounted false true restarted
      ∧ (after false true restarted).owed = 0
        ∧ (after false true restarted).meter.started = true := by
  have hheld : (after false true restarted).meter.started = true := by decide
  refine ⟨fun h => ?_, by decide, hheld⟩
  have hstopped := h.released.last (by decide) (by decide)
  rw [hheld] at hstopped
  cases hstopped

/-! ### The lifespan of a server -/

/-- What a server tells the app. -/
inductive LifespanMessage where
  | startup (raising : Raising)
  | shutdown
  | other

/-- `ASGIApp._lifespan`: run the meter for as long as the server is up.  Returns what is sent. -/
def lifespan (s : Lifecycle) : List LifespanMessage → Lifecycle × List String
  | [] => (s, [])
  | .startup raising :: messages =>
    if (s.start raising).2 then ((s.start raising).1, ["lifespan.startup.failed"])
    else
      ((lifespan (s.start raising).1 messages).1,
        "lifespan.startup.complete" :: (lifespan (s.start raising).1 messages).2)
  | .shutdown :: _ => (s.stop, ["lifespan.shutdown.complete"])
  | .other :: messages => lifespan s messages

theorem afterStart_meter (s : Watched) (r : Lifecycle × Bool) : (s.afterStart r).1.meter = r.1 := by
  obtain ⟨meter, raised⟩ := r
  cases raised <;> rfl

/-- **What a server does to the meter is a run of calls.** -/
theorem exists_uses_lifespan (s : Watched) (messages : List LifespanMessage) :
    ∃ uses, (lifespan s.meter messages).1 = (run (fun s a => (s.call a).1) s uses).meter := by
  induction messages generalizing s with
  | nil => exact ⟨[], rfl⟩
  | cons message messages ih =>
    cases message with
    | startup raising =>
      have hstart : (s.call (.start raising)).1.meter = (s.meter.start raising).1 :=
        afterStart_meter _ _
      rw [lifespan]
      split
      · exact ⟨[.start raising], hstart.symm⟩
      · obtain ⟨uses, huses⟩ := ih (s.call (.start raising)).1
        rw [hstart] at huses
        exact ⟨.start raising :: uses, huses⟩
    | shutdown => exact ⟨[.stop], rfl⟩
    | other => exact ih s

/-- A server that fails to start does not let go of its reference. -/
theorem holders_lifespan {s : Lifecycle} {raising : Raising} (hstopped : s.started = false)
    (hraises : s.Raises raising) (messages : List LifespanMessage) :
    (lifespan s (.startup raising :: messages)).1.holders = s.holders + 1 := by
  have hstart : s.start raising = _ := Lifecycle.startLocked_of_raises hstopped hraises
  rw [lifespan, hstart, if_pos rfl]
  split <;> rfl

end Meter

end TaskflowMeter
