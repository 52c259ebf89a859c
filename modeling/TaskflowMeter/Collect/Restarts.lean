import TaskflowMeter.Collect.Pipeline
import TaskflowMeter.Lib.Runs

/-!
# A pipeline that is started and stopped

A pipeline may be started again once it was stopped, and `stop` waits for its sender only so long.
So that any number of senders may take from one queue, while others call `submit`.

## Main definitions

* `Shutdown` — a call of `stop`, and what it is about to do.
* `Restarts`, `Restarts.step` — a pipeline with its senders and its calls of `stop`.
* `Sender.sentinels` — how many sentinels a sender has taken for itself.

## Main results

* `lineup_send` — **a sender keeps the order**: what it has offered, what it has, what is queued.
* `Conserved` — each event has its place, and no sender ends but for a sentinel of its own.
* `exists_drained` — **a sender that goes on offers everything that is queued, in order.**
* `restarts_conserve` — both, for every run.
-/

namespace TaskflowMeter

open Runs

/-- A call of `stop`: what it is about to do. -/
inductive Shutdown where
  /-- Ask whether the sender is alive. -/
  | asking (sender : ℕ) (drain : Bool)
  /-- Wait for the queue to empty, but not for ever. -/
  | flushing (sender : ℕ)
  | putting (sender : ℕ)
  /-- Wait for the sender to end, but not for ever. -/
  | joining (sender : ℕ)
  | publishers
  | returned
  deriving DecidableEq, Repr

/-- The call is past the queue. -/
def Shutdown.isPast : Shutdown → Bool
  | asking _ _ | flushing _ | putting _ => false
  | _ => true

/-- A pipeline, every sender that was started, and every call of `stop`. -/
structure Restarts (config : PipelineConfig) where
  /-- What the threads share.  Its sender is the one that went on last. -/
  pipeline : EventPipeline config := { sender := .exited }
  senders : List Sender := []
  /-- `_thread`. -/
  current : Option ℕ := none
  stops : List Shutdown := []
  /-- How many sentinels have been put on the queue. -/
  put : ℕ := 0

namespace Restarts

variable {config : PipelineConfig}

inductive Step where
  | submit (event : Event)
  /-- The `i`-th call of `submit` goes on. -/
  | advance (i : ℕ)
  /-- The `i`-th sender goes on. -/
  | send (i : ℕ) (raises : ℕ → Option String)
  | start
  | stop (drain : Bool)
  /-- The `j`-th call of `stop` goes on; it may have waited for long enough. -/
  | goStop (j : ℕ) (givesUp : Bool)

/-- `thread.is_alive()`. -/
def isAlive (s : Restarts config) (i : ℕ) : Bool := s.senders[i]?.any (· ≠ .exited)

def start (s : Restarts config) : Restarts config :=
  if s.current.any s.isAlive then s
  else { s with senders := s.senders ++ [.get], current := some s.senders.length }

def stop (s : Restarts config) (drain : Bool) : Restarts config :=
  { s with
    stops := s.stops ++ [s.current.elim .publishers (.asking · drain)]
    current := none }

/-- What a call of `stop` goes on to once it has asked. -/
def answered (s : Restarts config) (i : ℕ) (drain : Bool) : Shutdown :=
  if s.isAlive i then if drain then .flushing i else .putting i else .publishers

/-- The next step of a call of `stop`. -/
def goStop (s : Restarts config) (j : ℕ) (givesUp : Bool) : Restarts config :=
  match s.stops[j]? with
  | some (.asking i drain) =>
    { s with stops := s.stops.set j (s.answered i drain) }
  | some (.flushing i) =>
    if s.pipeline.idle || givesUp then { s with stops := s.stops.set j (.putting i) } else s
  | some (.putting i) =>
    match s.pipeline.queue.put? .stop with
    | some queue =>
        { s with
          pipeline := { s.pipeline with queue := queue }
          stops := s.stops.set j (.joining i)
          put := s.put + 1 }
    | none => s
  | some (.joining i) =>
    if !s.isAlive i || givesUp then { s with stops := s.stops.set j .publishers } else s
  | some .publishers => { s with stops := s.stops.set j .returned }
  | _ => s

/-- A sender goes on. -/
def send (s : Restarts config) (i : ℕ) (raises : ℕ → Option String) : Restarts config :=
  match s.senders[i]? with
  | some sender =>
      let next := ({ s.pipeline with sender := sender } : EventPipeline config).send raises
      { s with pipeline := next, senders := s.senders.set i next.sender }
  | none => s

def step (s : Restarts config) : Step → Restarts config
  | .submit event => { s with pipeline := s.pipeline.submit event }
  | .advance i => { s with pipeline := s.pipeline.work (.advance i) }
  | .send i raises => s.send i raises
  | .start => s.start
  | .stop drain => s.stop drain
  | .goStop j givesUp => s.goStop j givesUp

/-- The events that are on their way: with a call, on the queue or with a sender. -/
def inFlight (s : Restarts config) : List Event :=
  s.pipeline.calls.flatMap Submit.holding ++ s.pipeline.queue.entries.filterMap Entry.event?
    ++ s.senders.flatMap Sender.holding

end Restarts

/-- How many sentinels a sender has taken for itself. -/
def Sender.sentinels : Sender → ℕ
  | takeMore taken | deliver taken => taken.count .stop
  | taskDone _ stopping | checkEmpty stopping | setIdle stopping => if stopping then 1 else 0
  | exited => 1
  | get => 0

/-! ### What a sender does -/

namespace EventPipeline

variable {config : PipelineConfig} (p : EventPipeline config) (raises : ℕ → Option String)

/-- The events offered, with the sender and on the queue, in this order. -/
def lineup : List Event :=
  p.offered.flatten ++ p.sender.holding ++ p.queue.entries.filterMap Entry.event?

/-- **A sender keeps the order.** -/
theorem lineup_send : (p.send raises).lineup = p.lineup := by
  rw [send]
  split
  · next hsender =>
    split
    · next entry queue hget =>
      have hentries := (BoundedQueue.get?_eq_some hget).1
      cases entry <;> simp [lineup, hsender, Sender.holding, hentries, Entry.event?, List.filterMap_cons]
    · rfl
  · next taken hsender =>
    split
    · split
      · next entry queue hget =>
        have hentries := (BoundedQueue.get?_eq_some hget).1
        cases entry <;> simp [lineup, hsender, Sender.holding, hentries, Entry.event?, List.filterMap_cons]
      · simp [lineup, hsender, Sender.holding]
    · simp [lineup, hsender, Sender.holding]
  · next taken hsender =>
    rw [deliver]
    split
    · next hnil => simp [lineup, hsender, Sender.holding, hnil]
    · simp [lineup, hsender, Sender.holding]
  · next hsender =>
    split
    · next queue hdone =>
      simp [lineup, hsender, Sender.holding, (BoundedQueue.taskDone?_eq_some hdone).1]
    · simp [lineup, hsender, Sender.holding]
  · next hsender => simp [lineup, hsender, Sender.holding]
  · next stopping hsender =>
    split
    · simp [lineup, hsender, Sender.holding]
    · cases stopping <;> simp [lineup, hsender, Sender.holding]
  · next stopping hsender => cases stopping <;> simp [lineup, hsender, Sender.holding]
  · rfl

variable {p}

/-- A sender marks as done what it has taken. -/
theorem unfinished_send (howed : p.sender.owed ≤ p.queue.unfinished) :
    (p.send raises).queue.unfinished + p.queue.entries.length + p.sender.owed
      = p.queue.unfinished + (p.send raises).queue.entries.length
        + (p.send raises).sender.owed := by
  rw [send]
  split
  · next hsender =>
    split
    · next hget =>
      obtain ⟨hentries, hdone⟩ := BoundedQueue.get?_eq_some hget
      simp [hsender, Sender.owed, hentries, hdone]
      omega
    · rfl
  · next hsender =>
    split
    · split
      · next hget =>
        obtain ⟨hentries, hdone⟩ := BoundedQueue.get?_eq_some hget
        simp [hsender, Sender.owed, hentries, hdone]
        omega
      · simp [hsender, Sender.owed]
    · simp [hsender, Sender.owed]
  · next hsender =>
    rw [deliver]
    split <;> simp [hsender, Sender.owed]
  · next hsender =>
    rw [hsender, Sender.owed] at howed
    split
    · next hdone =>
      obtain ⟨hentries, hless⟩ := BoundedQueue.taskDone?_eq_some hdone
      simp only [hsender, Sender.owed, hentries]
      omega
    · next hdone =>
      -- what it owes is unfinished
      rw [BoundedQueue.taskDone?_eq_none_iff] at hdone
      omega
  · next hsender => simp [hsender, Sender.owed]
  · next stopping hsender =>
    split
    · simp [hsender, Sender.owed]
    · cases stopping <;> simp [hsender, Sender.owed]
  · next stopping hsender => cases stopping <;> simp [hsender, Sender.owed]
  · rfl

/-- **A sender ends by a sentinel that it has taken.** -/
theorem sentinels_send (howed : p.sender.owed ≤ p.queue.unfinished) :
    (p.send raises).queue.entries.count .stop + (p.send raises).sender.sentinels
      ≤ p.queue.entries.count .stop + p.sender.sentinels := by
  rw [send]
  split
  · next hsender =>
    split
    · next entry queue hget =>
      have hentries := (BoundedQueue.get?_eq_some hget).1
      cases entry <;> simp [hsender, Sender.sentinels, hentries]
    · exact le_rfl
  · next taken hsender =>
    split
    · split
      · next entry queue hget =>
        have hentries := (BoundedQueue.get?_eq_some hget).1
        cases entry <;> simp [hsender, Sender.sentinels, hentries]
        omega
      · simp [hsender, Sender.sentinels]
    · simp [hsender, Sender.sentinels]
  · next taken hsender =>
    have hcount : (if taken.contains .stop then 1 else 0) ≤ taken.count .stop := by
      split
      · next hmem => exact List.one_le_count_iff.mpr (List.contains_iff_mem.mp hmem)
      · exact Nat.zero_le _
    rw [deliver]
    split <;> simpa [hsender, Sender.sentinels] using hcount
  · next hsender =>
    rw [hsender, Sender.owed] at howed
    split
    · next hdone =>
      simp [hsender, Sender.sentinels, (BoundedQueue.taskDone?_eq_some hdone).1]
    · next hdone =>
      rw [BoundedQueue.taskDone?_eq_none_iff] at hdone
      omega
  · next hsender => simp [hsender, Sender.sentinels]
  · next stopping hsender =>
    split
    · simp [hsender, Sender.sentinels]
    · cases stopping <;> simp [hsender, Sender.sentinels]
  · next stopping hsender => cases stopping <;> simp [hsender, Sender.sentinels]
  · exact le_rfl

/-! ### What a call of `submit` does -/

/-- A call puts no sentinel on the queue. -/
theorem sentinels_advance (c : Submit) :
    (p.advance c).1.queue.entries.count .stop ≤ p.queue.entries.count .stop := by
  have hput : ∀ {event queue}, p.queue.put? (.event event) = some queue →
      queue.entries.count .stop ≤ p.queue.entries.count .stop := by
    intro event queue h
    simp [(BoundedQueue.put?_eq_some h).1]
  cases c with
  | put event | putAgain event =>
    rw [advance]
    split
    · next h => exact hput h
    · exact le_rfl
  | makeRoom event =>
    rw [advance]
    split
    · next h =>
      rw [(BoundedQueue.get?_eq_some h).1]
      exact List.count_le_count_cons
    · exact le_rfl
  | taskDone event =>
    rw [advance]
    split
    · next h =>
      rw [(BoundedQueue.taskDone?_eq_some h).1]
    · exact le_rfl
  | count | clearIdle | returned | raised => exact le_rfl

/-- A call raises only where it has taken an entry that is not unfinished. -/
theorem advance_ne_raised {c : Submit} (howed : c.owed ≤ p.queue.unfinished)
    (hc : c ≠ .raised) : (p.advance c).2 ≠ .raised := by
  cases c with
  | taskDone event =>
    rw [advance]
    split
    · simp
    · next hdone =>
      rw [BoundedQueue.taskDone?_eq_none_iff] at hdone
      simp only [Submit.owed] at howed
      omega
  | put | makeRoom | putAgain =>
    rw [advance]
    split <;> simp
  | count | clearIdle | returned => simp [advance]
  | raised => exact absurd rfl hc

end EventPipeline

/-! ### What is conserved -/

namespace Restarts

variable {config : PipelineConfig} {s : Restarts config}

/-- Each event has its place, each entry will be marked as done, and no sender ends but for a
sentinel of its own. -/
structure Conserved (s : Restarts config) : Prop where
  counts : ∀ e, s.pipeline.submitted.count e
    = (s.pipeline.calls.map fun c => c.holding.count e).sum
      + (s.pipeline.queue.entries.filterMap Entry.event?).count e
      + (s.senders.map fun x => x.holding.count e).sum
      + s.pipeline.offered.flatten.count e + s.pipeline.discarded.count e
  unfinished : s.pipeline.queue.unfinished = s.pipeline.queue.entries.length
    + (s.pipeline.calls.map Submit.owed).sum + (s.senders.map Sender.owed).sum
  not_raised : Submit.raised ∉ s.pipeline.calls
  sentinels : s.pipeline.queue.entries.count .stop + (s.senders.map Sender.sentinels).sum ≤ s.put
  put_le : s.put ≤ s.stops.countP Shutdown.isPast

/-- What a sender has to mark as done is among what is unfinished. -/
theorem Conserved.owed_sender_le (h : Conserved s) {i : ℕ} {x : Sender}
    (hx : s.senders[i]? = some x) : x.owed ≤ s.pipeline.queue.unfinished := by
  have hunfinished := h.unfinished
  have hle := List.le_sum_of_mem (List.mem_map_of_mem (f := Sender.owed) (List.mem_of_getElem? hx))
  omega

theorem conserved_new : Conserved ({} : Restarts config) where
  counts _ := rfl
  unfinished := rfl
  not_raised := List.not_mem_nil
  sentinels := le_rfl
  put_le := le_rfl

theorem Conserved.submit (h : Conserved s) (event : Event) :
    Conserved (s.step (.submit event)) where
  counts e := by
    have hcount := h.counts e
    simp only [step, EventPipeline.submit, List.count_append, List.map_append, List.sum_append,
      List.map_cons, List.map_nil, List.sum_cons, List.sum_nil, Submit.holding] at hcount ⊢
    omega
  unfinished := by simpa [step, EventPipeline.submit, Submit.owed] using h.unfinished
  not_raised := by simpa [step, EventPipeline.submit] using h.not_raised
  sentinels := h.sentinels
  put_le := h.put_le

theorem Conserved.advance (h : Conserved s) (i : ℕ) : Conserved (s.step (.advance i)) := by
  rw [step, EventPipeline.work]
  cases hc : s.pipeline.calls[i]? with
  | none => exact h
  | some c =>
    have hunfinished := h.unfinished
    have howed : c.owed ≤ s.pipeline.queue.unfinished := by
      have hle := List.le_sum_of_mem
        (List.mem_map_of_mem (f := Submit.owed) (List.mem_of_getElem? hc))
      omega
    obtain ⟨⟨-, hsubmitted, hoffered, -⟩, hevents, hentries⟩ := EventPipeline.advance_spec howed
    refine ⟨fun e => ?_, ?_, fun hmem => ?_, ?_, h.put_le⟩
    · have hcount := h.counts e
      have hevent := hevents e
      have hset := sum_map_set hc (s.pipeline.advance c).2 fun c => c.holding.count e
      simp only [hsubmitted, hoffered]
      omega
    · have hset := sum_map_set hc (s.pipeline.advance c).2 Submit.owed
      dsimp only
      omega
    · rcases List.mem_or_eq_of_mem_set hmem with hmem | heq
      · exact h.not_raised hmem
      · refine EventPipeline.advance_ne_raised howed ?_ heq.symm
        rintro rfl
        exact h.not_raised (List.mem_of_getElem? hc)
    · exact (Nat.add_le_add_right (EventPipeline.sentinels_advance c) _).trans h.sentinels

/-- **A sender keeps what is conserved**, whichever it is. -/
theorem Conserved.send (h : Conserved s) (i : ℕ) (raises : ℕ → Option String) :
    Conserved (s.step (.send i raises)) := by
  rw [step, Restarts.send]
  cases hx : s.senders[i]? with
  | none => exact h
  | some x =>
    obtain ⟨p, hp⟩ : ∃ p : EventPipeline config, p = { s.pipeline with sender := x } := ⟨_, rfl⟩
    have hunfinished := h.unfinished
    have howed : p.sender.owed ≤ p.queue.unfinished := by
      rw [hp]
      exact h.owed_sender_le hx
    obtain ⟨hcalls, hsubmitted, hdiscarded, -⟩ := p.send_frame raises
    have hlineup := p.lineup_send raises
    have hdone := EventPipeline.unfinished_send raises howed
    have hsentinels := EventPipeline.sentinels_send raises howed
    dsimp only
    rw [← hp]
    have hold : p.calls = s.pipeline.calls ∧ p.submitted = s.pipeline.submitted
        ∧ p.discarded = s.pipeline.discarded ∧ p.offered = s.pipeline.offered
        ∧ p.queue = s.pipeline.queue ∧ p.sender = x := by
      rw [hp]
      exact ⟨rfl, rfl, rfl, rfl, rfl, rfl⟩
    obtain ⟨hcalls', hsubmitted', hdiscarded', hoffered', hqueue', hsender'⟩ := hold
    refine ⟨fun e => ?_, ?_, ?_, ?_, h.put_le⟩
    · have hcount := h.counts e
      have hset := sum_map_set hx (p.send raises).sender fun x => x.holding.count e
      have hsame := congrArg (List.count e) hlineup
      simp only [EventPipeline.lineup, List.count_append, hoffered', hqueue', hsender'] at hsame
      simp only [hcalls, hsubmitted, hdiscarded, hcalls', hsubmitted', hdiscarded']
      omega
    · have hset := sum_map_set hx (p.send raises).sender Sender.owed
      rw [hqueue', hsender'] at hdone
      simp only [hcalls, hcalls']
      omega
    · rw [hcalls, hcalls']
      exact h.not_raised
    · have hset := sum_map_set hx (p.send raises).sender Sender.sentinels
      have hold := h.sentinels
      rw [hqueue', hsender'] at hsentinels
      dsimp only
      omega

/-- What `start` and `stop` leave alone. -/
theorem Conserved.of_same (h : Conserved s) {s' : Restarts config}
    (hpipeline : s'.pipeline = s.pipeline) (hput : s'.put = s.put)
    (hsenders : s'.senders = s.senders ∨ s'.senders = s.senders ++ [.get])
    (hstops : s.stops.countP Shutdown.isPast ≤ s'.stops.countP Shutdown.isPast) :
    Conserved s' := by
  have hsum : ∀ f : Sender → ℕ, f .get = 0 → (s'.senders.map f).sum = (s.senders.map f).sum := by
    intro f hf
    rcases hsenders with heq | heq <;> simp [heq, hf]
  refine ⟨fun e => ?_, ?_, ?_, ?_, ?_⟩
  · rw [hpipeline, hsum _ rfl]
    exact h.counts e
  · rw [hpipeline, hsum _ rfl]
    exact h.unfinished
  · rw [hpipeline]
    exact h.not_raised
  · rw [hpipeline, hsum _ rfl, hput]
    exact h.sentinels
  · rw [hput]
    exact h.put_le.trans hstops

/-- How many calls are past the queue, after one has gone on. -/
theorem countP_isPast_set {l : List Shutdown} {j : ℕ} {c : Shutdown} (hc : l[j]? = some c)
    (c' : Shutdown) : (l.set j c').countP Shutdown.isPast + (if c.isPast then 1 else 0)
      = l.countP Shutdown.isPast + (if c'.isPast then 1 else 0) := by
  have hcount : ∀ l : List Shutdown,
      l.countP Shutdown.isPast = (l.map fun c => if c.isPast then 1 else 0).sum := by
    intro l
    induction l with
    | nil => rfl
    | cons c l ih => rw [List.countP_cons, ih, List.map_cons, List.sum_cons, add_comm]
  rw [hcount, hcount]
  exact sum_map_set hc c' fun c => if c.isPast then 1 else 0

theorem Conserved.step (h : Conserved s) (st : Step) : Conserved (s.step st) := by
  cases st with
  | submit event => exact h.submit event
  | advance i => exact h.advance i
  | send i raises => exact h.send i raises
  | start =>
    rw [Restarts.step, start]
    split
    · exact h
    · exact h.of_same rfl rfl (Or.inr rfl) le_rfl
  | stop drain =>
    refine h.of_same rfl rfl (Or.inl rfl) ?_
    show _ ≤ (s.stops ++ [_]).countP _
    rw [List.countP_append]
    exact Nat.le_add_right _ _
  | goStop j givesUp =>
    rw [Restarts.step, goStop]
    split
    · next i drain hj =>
      have hpast := countP_isPast_set hj (s.answered i drain)
      exact h.of_same rfl rfl (Or.inl rfl) ((Nat.le_add_right _ _).trans hpast.ge)
    · next i hj =>
      have hpast := countP_isPast_set hj (.putting i)
      split
      · exact h.of_same rfl rfl (Or.inl rfl) hpast.ge
      · exact h
    · next i hj =>
      have hpast := countP_isPast_set hj (.joining i)
      split
      · next queue hput =>
        obtain ⟨hentries, hmore⟩ := BoundedQueue.put?_eq_some hput
        have hunfinished := h.unfinished
        have hsentinels := h.sentinels
        have hputs := h.put_le
        refine ⟨fun e => ?_, ?_, h.not_raised, ?_, ?_⟩
        · have hcount := EventPipeline.count_put hput e
          exact hcount ▸ h.counts e
        · simp only [hentries, hmore, List.length_append, List.length_singleton]
          omega
        · simp only [hentries, List.count_append, List.count_singleton_self]
          omega
        · simp only [Shutdown.isPast, Bool.false_eq_true, if_false, if_true] at hpast ⊢
          omega
      · exact h
    · next i hj =>
      have hpast := countP_isPast_set hj .publishers
      split
      · exact h.of_same rfl rfl (Or.inl rfl) (Nat.add_right_cancel hpast).ge
      · exact h
    · next hj =>
      have hpast := countP_isPast_set hj .returned
      exact h.of_same rfl rfl (Or.inl rfl) (Nat.add_right_cancel hpast).ge
    · exact h

theorem conserved_run (config : PipelineConfig) (steps : List Step) :
    Conserved (run step ({} : Restarts config) steps) := by
  induction steps using List.reverseRecOn with
  | nil => exact conserved_new
  | append_singleton steps st ih =>
    rw [run_concat]
    exact ih.step st

theorem Conserved.perm (h : Conserved s) :
    s.pipeline.submitted.Perm
      (s.inFlight ++ s.pipeline.offered.flatten ++ s.pipeline.discarded) := by
  refine List.perm_iff_count.mpr fun e => (h.counts e).trans ?_
  rw [inFlight, List.count_append, List.count_append, List.count_append, List.count_append,
    List.count_flatMap, List.count_flatMap]
  rfl

/-- Each sender that has ended has cost a call of `stop`. -/
theorem Conserved.exited_le (h : Conserved s) :
    s.senders.count .exited ≤ s.stops.countP Shutdown.isPast := by
  have hle : ∀ l : List Sender, l.count .exited ≤ (l.map Sender.sentinels).sum := by
    intro l
    induction l with
    | nil => exact le_rfl
    | cons x l ih =>
      rw [List.count_cons, List.map_cons, List.sum_cons]
      cases x <;> simp [Sender.sentinels] <;> omega
  have hsentinels := h.sentinels
  have hput := h.put_le
  have hexited := hle s.senders
  omega

/-! ### What a sender has before it -/

/-- How far a sender has to go until nothing is queued. -/
def toGo (queued : ℕ) : Sender → ℕ
  | .takeMore taken => 8 * queued + taken.length + 5
  | .deliver taken => 8 * queued + taken.length + 4
  | .taskDone left _ => 8 * queued + left + 3
  | .checkEmpty _ => 8 * queued + 2
  | .setIdle _ => 8 * queued + 1
  | .get | .exited => 8 * queued

/-- **A sender that has something to do comes nearer.** -/
theorem toGo_send_lt {p : EventPipeline config} (howed : p.sender.owed ≤ p.queue.unfinished)
    (hgoing : p.sender ≠ .exited) (hbusy : p.sender = .get → p.queue.entries ≠ [])
    (raises : ℕ → Option String) :
    toGo (p.send raises).queue.entries.length (p.send raises).sender
      < toGo p.queue.entries.length p.sender := by
  rw [EventPipeline.send]
  split
  · next hsender =>
    split
    · next hget => simp [hsender, toGo, (BoundedQueue.get?_eq_some hget).1]; omega
    · next hget =>
      obtain ⟨x, rest, hentries⟩ := List.exists_cons_of_ne_nil (hbusy hsender)
      obtain ⟨q, hq, -⟩ := BoundedQueue.get?_of_cons hentries
      simp [hq] at hget
  · next hsender =>
    split
    · split
      · next hget => simp [hsender, toGo, (BoundedQueue.get?_eq_some hget).1]; omega
      · simp [hsender, toGo]
    · simp [hsender, toGo]
  · next hsender =>
    rw [EventPipeline.deliver]
    split <;> simp [hsender, toGo]
  · next hsender =>
    rw [hsender, Sender.owed] at howed
    split
    · next hdone => simp [hsender, toGo, (BoundedQueue.taskDone?_eq_some hdone).1]
    · next hdone =>
      rw [BoundedQueue.taskDone?_eq_none_iff] at hdone
      omega
  · next hsender => simp [hsender, toGo]
  · next stopping hsender =>
    split
    · simp [hsender, toGo]
    · cases stopping <;> simp [hsender, toGo]
  · next stopping hsender => cases stopping <;> simp [hsender, toGo]
  · next hsender => exact absurd hsender hgoing

/-- **A sender that goes on offers everything that is queued, in order**, after what it has. -/
theorem Conserved.exists_drained (h : Conserved s) {i : ℕ} {x : Sender}
    (hx : s.senders[i]? = some x) (hsentinels : x.sentinels = 0)
    (hqueue : s.pipeline.queue.entries.count .stop = 0) (raises : ℕ → Option String) :
    ∃ n, (run Restarts.step s (List.replicate n (Step.send i raises))).pipeline.queue.entries = []
      ∧ (run Restarts.step s (List.replicate n (Step.send i raises))).pipeline.offered.flatten
        = s.pipeline.offered.flatten ++ x.holding
          ++ s.pipeline.queue.entries.filterMap Entry.event? := by
  -- on how many steps the sender has to go; it never ends, since no sentinel is in its way
  induction htogo : toGo s.pipeline.queue.entries.length x using Nat.strong_induction_on
    generalizing s x with
  | _ k ih =>
    by_cases hidle : x = .get ∧ s.pipeline.queue.entries = []
    · obtain ⟨rfl, hnil⟩ := hidle
      exact ⟨0, hnil, by simp [run, Sender.holding, hnil]⟩
    · obtain ⟨p, hp⟩ : ∃ p : EventPipeline config, p = { s.pipeline with sender := x } := ⟨_, rfl⟩
      have hnext : s.step (.send i raises)
          = { s with
              pipeline := p.send raises
              senders := s.senders.set i (p.send raises).sender } := by
        rw [Restarts.step, Restarts.send, hx, hp]
      have hqueue' : p.queue = s.pipeline.queue := by rw [hp]
      have hsender' : p.sender = x := by rw [hp]
      have howed : p.sender.owed ≤ p.queue.unfinished := by
        rw [hqueue', hsender']
        exact h.owed_sender_le hx
      have hless := EventPipeline.sentinels_send raises howed
      rw [hqueue', hsender', hqueue, hsentinels] at hless
      have hcloser : toGo (p.send raises).queue.entries.length (p.send raises).sender < k := by
        rw [← htogo, ← hqueue', ← hsender']
        refine toGo_send_lt howed ?_ ?_ raises
        · rintro hexited
          rw [hsender'] at hexited
          simp [hexited, Sender.sentinels] at hsentinels
        · intro hget
          rw [hsender'] at hget
          rw [hqueue']
          exact fun hnil => hidle ⟨hget, hnil⟩
      have hconserved : Conserved (s.step (.send i raises)) := h.send i raises
      rw [hnext] at hconserved
      have hx' : (s.senders.set i (p.send raises).sender)[i]? = some (p.send raises).sender := by
        rw [List.getElem?_set_self (List.getElem?_eq_some_iff.mp hx).1]
      obtain ⟨n, hnil, hoffered⟩ := ih _ hcloser hconserved hx' (by omega)
        (by dsimp only; omega) rfl
      -- a step moves events along the line: offered, held, queued
      have hlineup : (p.send raises).offered.flatten ++ (p.send raises).sender.holding
          ++ (p.send raises).queue.entries.filterMap Entry.event?
            = s.pipeline.offered.flatten ++ x.holding
              ++ s.pipeline.queue.entries.filterMap Entry.event? := by
        have hsame := p.lineup_send raises
        rw [EventPipeline.lineup, EventPipeline.lineup, hqueue', hsender'] at hsame
        rw [hsame, hp]
      refine ⟨n + 1, ?_, ?_⟩
      · rw [List.replicate_succ]
        show (run Restarts.step (s.step (.send i raises)) _).pipeline.queue.entries = []
        rw [hnext]
        exact hnil
      · rw [List.replicate_succ]
        show (run Restarts.step (s.step (.send i raises)) _).pipeline.offered.flatten = _
        rw [hnext, ← hlineup]
        exact hoffered

/-- **What is conserved, however often a pipeline is started and stopped.**  Each event that was
submitted is on its way, offered or discarded, once; no call of `submit` raises, and no sender ends
but at the cost of a call of `stop`; and as long as no sentinel waits, any sender that is left alone
offers all that is queued, in order, whatever the publishers raise. -/
theorem restarts_conserve (config : PipelineConfig) (steps : List Step) :
    let s := run step ({} : Restarts config) steps
    s.pipeline.submitted.Perm (s.inFlight ++ s.pipeline.offered.flatten ++ s.pipeline.discarded)
      ∧ Submit.raised ∉ s.pipeline.calls
      ∧ s.senders.count .exited ≤ s.stops.countP Shutdown.isPast
      ∧ ∀ i x, s.senders[i]? = some x → x.sentinels = 0 →
        s.pipeline.queue.entries.count .stop = 0 → ∀ raises, ∃ n,
          (run step s (List.replicate n (.send i raises))).pipeline.queue.entries = []
          ∧ (run step s (List.replicate n (.send i raises))).pipeline.offered.flatten
            = s.pipeline.offered.flatten ++ x.holding
              ++ s.pipeline.queue.entries.filterMap Entry.event? := by
  intro s
  have hconserved : Conserved s := conserved_run config steps
  exact ⟨hconserved.perm, hconserved.not_raised, hconserved.exited_le,
    fun i x hx hsentinels hqueue raises => hconserved.exists_drained hx hsentinels hqueue raises⟩

end Restarts

end TaskflowMeter
