import TaskflowMeter.Poller

/-!
# The threads of a poller

`start` begins a thread that polls until it is told to stop, and `stop` tells it to and waits
for it, but not for ever.  All threads that a poller ever begins look at one flag, which
`start` clears and `stop` sets after it has let go of the lock.

## Main definitions

* `Looping` — how far a thread is in `_loop`.
* `PollerThreads` — the flag, the threads, and the calls of `stop` in progress.
* `PollerThreads.OnePoller` — one thread goes on polling at the most, and one that was started
  and not stopped since does.
* `PollerThreads.InOrder` — a start does not come too early, nor the setting of the flag too late.

## Main results

* `onePoller_iff` — **there is one poller throughout a run exactly when all is in order in it.**
* `two_or_none` — the two ways in which it is not.
-/

namespace TaskflowMeter

open Runs

/-- A thread in `_loop`: what it is about to do. -/
inductive Looping where
  /-- Look at the flag. -/
  | check
  /-- Poll once: it may take long. -/
  | poll
  /-- Wait for the interval, or until the flag is set. -/
  | wait
  /-- It has seen the flag set. -/
  | leaving
  | ended
  deriving DecidableEq, Repr

def Looping.isAlive : Looping → Bool
  | ended => false
  | check | poll | wait | leaving => true

/-- Whether a thread has not left its loop. -/
def Looping.inLoop : Looping → Bool
  | check | poll | wait => true
  | leaving | ended => false

/-- A call of `stop`: what it is about to do with the thread that it has taken. -/
inductive StopCall where
  | set (thread : Option ℕ)
  | join (thread : ℕ)
  | returned
  deriving DecidableEq, Repr

/-- A poller and its threads. -/
structure PollerThreads where
  stopping : Bool := false
  thread : Option ℕ := none
  threads : List Looping := []
  stops : List StopCall := []
  stats : PollStats := {}
  /-- What the error handler was told. -/
  told : List String := []

namespace PollerThreads

def isAlive (p : PollerThreads) (i : ℕ) : Bool := (p.threads[i]?.map Looping.isAlive).getD false

def running (p : PollerThreads) : Bool :=
  match p.thread with
  | some i => p.isAlive i
  | none => false

/-- Begin a thread, under the lock. -/
def start (p : PollerThreads) : PollerThreads :=
  if p.running then p
  else
    { p with
      stopping := false
      thread := some p.threads.length
      threads := p.threads ++ [.check] }

/-- What `stop` does under the lock. -/
def stop (p : PollerThreads) : PollerThreads :=
  { p with thread := none, stops := p.stops ++ [.set p.thread] }

/-- The rest of `stop`. -/
def stopNext (p : PollerThreads) (i : ℕ) : PollerThreads :=
  match p.stops[i]? with
  | some (.set thread) =>
      { p with
        stopping := true
        stops := p.stops.set i
          (match thread with
          | some j => if p.isAlive j then .join j else .returned
          | none => .returned) }
  -- the thread has ended, or the time is up
  | some (.join _) => { p with stops := p.stops.set i .returned }
  | some .returned | none => p

/-- The next operation of a thread; its poll may raise. -/
def loop (p : PollerThreads) (i : ℕ) (raises : Option String) : PollerThreads :=
  match p.threads[i]? with
  | some .check => { p with threads := p.threads.set i (if p.stopping then .leaving else .poll) }
  | some .poll =>
    match raises with
    | none => { p with threads := p.threads.set i .wait }
    | some e =>
        { p with
          threads := p.threads.set i .wait
          stats := { p.stats with errors := p.stats.errors + 1, lastError := some e }
          told := p.told ++ [e] }
  | some .wait => { p with threads := p.threads.set i .check }
  | some .leaving => { p with threads := p.threads.set i .ended }
  | some .ended | none => p

inductive Move where
  | start
  | stop
  /-- The `i`-th call of `stop` goes on. -/
  | stopNext (i : ℕ)
  /-- The `i`-th thread goes on. -/
  | loop (i : ℕ) (raises : Option String)

def step (p : PollerThreads) : Move → PollerThreads
  | .start => p.start
  | .stop => p.stop
  | .stopNext i => p.stopNext i
  | .loop i raises => p.loop i raises

/-- The state after a run from the start. -/
def after (moves : List Move) : PollerThreads := run step {} moves

theorem after_concat (moves : List Move) (a : Move) :
    after (moves ++ [a]) = (after moves).step a := run_concat ..

/-- Whether a thread is in its loop. -/
def inLoop (p : PollerThreads) (i : ℕ) : Prop := ∃ l, p.threads[i]? = some l ∧ l.inLoop = true

/-- Whether a thread can go on to begin another poll: it has not left its loop, and the flag does
not tell it to. -/
def CanGoOn (p : PollerThreads) (i : ℕ) : Prop := p.stopping = false ∧ p.inLoop i

/-- One thread goes on polling at the most, and one that was started and has not been stopped since
does. -/
structure OnePoller (p : PollerThreads) : Prop where
  atMostOne : ∀ i j, p.CanGoOn i → p.CanGoOn j → i = j
  canGoOn : ∀ i, p.thread = some i → p.CanGoOn i

/-- A thread is begun only when all threads before it have left their loops, and the flag is not set
when a thread has been started since. -/
def InOrder (done : List Move) (a : Move) : Prop :=
  (a = .start → (after done).running = false → ∀ i, ¬(after done).inLoop i)
    ∧ ∀ i taken, a = .stopNext i → (after done).stops[i]? = some (.set taken) →
      (after done).thread = none

/-- What holds throughout a run in order. -/
structure Inv (p : PollerThreads) : Prop where
  atMostOne : ∀ i j, p.inLoop i → p.inLoop j → i = j
  canGoOn : ∀ i, p.thread = some i → p.CanGoOn i

/-- A new thread is in its loop, and the others are where they were. -/
theorem inLoop_concat (p : PollerThreads) (i : ℕ) :
    (∃ l, (p.threads ++ [Looping.check])[i]? = some l ∧ l.inLoop = true)
      ↔ p.inLoop i ∨ i = p.threads.length := by
  unfold inLoop
  rcases Nat.lt_trichotomy i p.threads.length with hlt | heq | hgt
  · rw [List.getElem?_append_left hlt]
    constructor
    · exact .inl
    · rintro (h | h)
      · exact h
      · omega
  · subst heq
    rw [List.getElem?_concat_length]
    exact ⟨fun _ => .inr rfl, fun _ => ⟨.check, rfl, rfl⟩⟩
  · have hnone : p.threads[i]? = none := List.getElem?_eq_none hgt.le
    have hnone' : (p.threads ++ [Looping.check])[i]? = none := by
      apply List.getElem?_eq_none
      rw [List.length_append, List.length_singleton]
      omega
    rw [hnone, hnone']
    constructor
    · rintro ⟨l, hl, -⟩
      cases hl
    · rintro (⟨l, hl, -⟩ | h)
      · cases hl
      · omega

/-- What one thread does to the threads: it goes one operation further. -/
theorem loop_cases (p : PollerThreads) (i : ℕ) (raises : Option String) :
    (p.loop i raises).stopping = p.stopping ∧ (p.loop i raises).thread = p.thread
      ∧ (p.loop i raises).stops = p.stops
      ∧ ((p.loop i raises).threads = p.threads
        ∨ ∃ l l', p.threads[i]? = some l ∧ (p.loop i raises).threads = p.threads.set i l'
          ∧ (l'.inLoop = true → l.inLoop = true)
          ∧ (p.stopping = false → l.inLoop = true → l'.inLoop = true)) := by
  unfold loop
  rcases hl : p.threads[i]? with _ | l
  · exact ⟨rfl, rfl, rfl, .inl rfl⟩
  · cases l with
    | check =>
      refine ⟨rfl, rfl, rfl, .inr ⟨.check, _, rfl, rfl, fun _ => rfl, ?_⟩⟩
      intro hstopping _
      rw [hstopping]
      rfl
    | poll =>
      cases raises <;>
        exact ⟨rfl, rfl, rfl, .inr ⟨.poll, .wait, rfl, rfl, fun _ => rfl, fun _ _ => rfl⟩⟩
    | wait => exact ⟨rfl, rfl, rfl, .inr ⟨.wait, .check, rfl, rfl, fun _ => rfl, fun _ _ => rfl⟩⟩
    | leaving => exact ⟨rfl, rfl, rfl, .inr ⟨.leaving, .ended, rfl, rfl, nofun, fun _ => nofun⟩⟩
    | ended => exact ⟨rfl, rfl, rfl, .inl rfl⟩

/-- No thread gets back into its loop. -/
theorem inLoop_of_loop {p : PollerThreads} {i j : ℕ} {raises : Option String}
    (h : (p.loop i raises).inLoop j) : p.inLoop j := by
  obtain ⟨-, -, -, heq | ⟨l, l', hl, heq, hback, -⟩⟩ := p.loop_cases i raises <;>
    unfold inLoop at h ⊢ <;> rw [heq] at h
  · exact h
  · obtain ⟨k, hk, hin⟩ := h
    rw [List.getElem?_set] at hk
    split at hk
    · next hij =>
      subst hij
      split at hk
      · obtain rfl := Option.some.inj hk
        exact ⟨l, hl, hback hin⟩
      · cases hk
    · exact ⟨k, hk, hin⟩

/-- No thread leaves its loop as long as the flag is not set. -/
theorem inLoop_loop {p : PollerThreads} {i j : ℕ} (raises : Option String)
    (hstopping : p.stopping = false) (h : p.inLoop j) : (p.loop i raises).inLoop j := by
  obtain ⟨-, -, -, heq | ⟨l, l', hl, heq, -, hstay⟩⟩ := p.loop_cases i raises <;>
    unfold inLoop at h ⊢ <;> rw [heq]
  · exact h
  · obtain ⟨k, hk, hin⟩ := h
    rw [List.getElem?_set]
    split
    · next hij =>
      subst hij
      rw [hl] at hk
      obtain rfl := Option.some.inj hk
      rw [if_pos (List.getElem?_eq_some_iff.mp hl).1]
      exact ⟨l', rfl, hstay hstopping hin⟩
    · exact ⟨k, hk, hin⟩

/-- What the rest of `stop` does. -/
theorem stopNext_cases (p : PollerThreads) (i : ℕ) :
    (p.stopNext i).threads = p.threads ∧ (p.stopNext i).thread = p.thread
      ∧ ((∃ taken, p.stops[i]? = some (.set taken) ∧ (p.stopNext i).stopping = true)
        ∨ (∀ taken, p.stops[i]? ≠ some (.set taken)) ∧ (p.stopNext i).stopping = p.stopping) := by
  unfold stopNext
  rcases hs : p.stops[i]? with _ | call
  · exact ⟨rfl, rfl, .inr ⟨nofun, rfl⟩⟩
  · cases call with
    | set taken => exact ⟨rfl, rfl, .inl ⟨taken, rfl, rfl⟩⟩
    | join taken => exact ⟨rfl, rfl, .inr ⟨nofun, rfl⟩⟩
    | returned => exact ⟨rfl, rfl, .inr ⟨nofun, rfl⟩⟩

/-- **What is done in order leaves one poller.** -/
theorem Inv.step {done : List Move} (h : Inv (after done)) {a : Move} (horder : InOrder done a) :
    Inv ((after done).step a) := by
  unfold InOrder at horder
  generalize after done = p at *
  obtain ⟨hone, hgo⟩ := h
  obtain ⟨hstart, hset⟩ := horder
  cases a with
  | start =>
    rw [PollerThreads.step, PollerThreads.start]
    split
    · exact ⟨hone, hgo⟩
    · next hnot =>
      have hold := hstart rfl (Bool.eq_false_iff.mpr hnot)
      have hnew : ∀ i, (∃ l, (p.threads ++ [Looping.check])[i]? = some l ∧ l.inLoop = true)
          ↔ i = p.threads.length := by
        intro i
        rw [inLoop_concat]
        exact or_iff_right (hold i)
      refine ⟨?_, ?_⟩
      · intro i j hi hj
        exact ((hnew i).mp hi).trans ((hnew j).mp hj).symm
      · intro i hi
        obtain rfl := Option.some.inj hi
        exact ⟨rfl, (hnew _).mpr rfl⟩
  | stop => exact ⟨hone, nofun⟩
  | stopNext i =>
    obtain ⟨hthreads, hthread, hflag⟩ := p.stopNext_cases i
    have hin : ∀ j, (p.stopNext i).inLoop j ↔ p.inLoop j := by
      intro j
      unfold inLoop
      rw [hthreads]
    refine ⟨fun j k hj hk => hone j k ((hin j).mp hj) ((hin k).mp hk), ?_⟩
    intro j hj
    change (p.stopNext i).thread = some j at hj
    rw [hthread] at hj
    rcases hflag with ⟨taken, hs, -⟩ | ⟨-, heq⟩
    · rw [hset i taken rfl hs] at hj
      cases hj
    · obtain ⟨hstopping, hloop⟩ := hgo j hj
      exact ⟨heq.trans hstopping, (hin j).mpr hloop⟩
  | loop i raises =>
    obtain ⟨hstopping, hthread, -, -⟩ := p.loop_cases i raises
    refine ⟨fun j k hj hk => hone j k (inLoop_of_loop hj) (inLoop_of_loop hk), ?_⟩
    intro j hj
    change (p.loop i raises).thread = some j at hj
    rw [hthread] at hj
    obtain ⟨hclear, hloop⟩ := hgo j hj
    exact ⟨hstopping.trans hclear, inLoop_loop raises hclear hloop⟩

/-- **What is done out of order does not.** -/
theorem not_onePoller {done : List Move} {a : Move} (horder : ¬InOrder done a) :
    ¬OnePoller ((after done).step a) := by
  unfold InOrder at horder
  generalize after done = p at *
  intro hpoller
  rcases not_and_or.mp horder with hearly | hlate
  · -- an older thread is still in its loop when a new one is begun
    push Not at hearly
    obtain ⟨rfl, hnot, i, hi⟩ := hearly
    rw [PollerThreads.step, PollerThreads.start, if_neg (Bool.eq_false_iff.mp hnot)] at hpoller
    have hold := (inLoop_concat p i).mpr (.inl hi)
    have hnew := (inLoop_concat p p.threads.length).mpr (.inr rfl)
    have heq := hpoller.atMostOne i p.threads.length ⟨rfl, hold⟩ ⟨rfl, hnew⟩
    obtain ⟨l, hl, -⟩ := hi
    have hlt := (List.getElem?_eq_some_iff.mp hl).1
    omega
  · -- the flag is set over the head of a newer thread
    push Not at hlate
    obtain ⟨i, taken, rfl, hs, hthread⟩ := hlate
    obtain ⟨j, hj⟩ := Option.ne_none_iff_exists'.mp hthread
    obtain ⟨-, hsame, hflag⟩ := p.stopNext_cases i
    obtain ⟨hclear, -⟩ := hpoller.canGoOn j (hsame.trans hj)
    rcases hflag with ⟨taken', -, hset⟩ | ⟨hno, -⟩
    · rw [PollerThreads.step, hset] at hclear
      cases hclear
    · exact hno taken hs

/-- **There is one poller throughout a run exactly when every move of it is in order**: a thread is
begun only when all threads before it have left their loops, and `stop` sets the flag only when no
thread has been started since it took its own. -/
theorem onePoller_iff (moves : List Move) :
    Always (fun done => OnePoller (after done)) moves ↔ EveryMove InOrder moves := by
  refine always_iff_everyMove (I := fun done => Inv (after done)) ?_ ?_ ?_ ?_
  · refine ⟨?_, nofun⟩
    rintro i j ⟨l, hl, -⟩
    cases hl
  · intro done a todo _ hinv horder
    rw [after_concat]
    exact hinv.step horder
  · intro done todo _ hinv
    exact ⟨fun i j hi hj => hinv.atMostOne i j hi.2 hj.2, hinv.canGoOn⟩
  · intro done a todo _ _ horder
    rw [after_concat]
    exact not_onePoller horder

/-- A poll is in progress when the poller is stopped and started again. -/
def startTooEarly : List Move :=
  [.start, .loop 0 none, .stop, .stopNext 0, .stopNext 0, .start, .loop 0 none, .loop 0 none,
    .loop 0 none, .loop 1 none]

/-- The poller is started again before the flag is set. -/
def stopTooLate : List Move :=
  [.start, .stop, .start, .stopNext 0, .loop 1 none, .loop 1 none, .loop 0 none, .loop 0 none]

/-- **Two threads poll at once; or none is left**, though the poller was started last. -/
theorem two_or_none :
    ((after startTooEarly).threads = [.poll, .poll] ∧ (after startTooEarly).stopping = false
        ∧ ¬OnePoller (after startTooEarly))
      ∧ (after stopTooLate).thread = some 1 ∧ (after stopTooLate).threads = [.ended, .ended]
      ∧ ¬OnePoller (after stopTooLate) := by
  refine ⟨⟨by decide, by decide, ?_⟩, by decide, by decide, ?_⟩
  · intro h
    have heq := h.atMostOne 0 1 ⟨rfl, .poll, rfl, rfl⟩ ⟨rfl, .poll, rfl, rfl⟩
    omega
  · intro h
    obtain ⟨hflag, -⟩ := h.canGoOn 1 rfl
    cases hflag

end PollerThreads

end TaskflowMeter
