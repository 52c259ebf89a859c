import TaskflowMeter.Collect.Conservation
import TaskflowMeter.Contiguous

/-!
# The sentinel on a queue that makes room

`stop` puts a sentinel behind the events, and the sender exits when it takes it.  A call of
`submit` that finds the queue full discards the oldest entry, whatever it is.

## Main definitions

* `Barrier.SentinelSafe` — the sentinel is on the queue until the sender has it, and what is
  discarded is an event.
* `Barrier.Spares` — an operation does not discard the sentinel.
* `Barrier.toGo` — how many operations the sender has before it at the most.

## Main results

* `sentinelSafe_iff` — **the sentinel is safe exactly in the runs in which no call makes room
  while it is the oldest entry**, and in them the sender exits.
* `sentinel_discarded` — a queue of one: the sentinel is discarded, and the sender waits.
-/

namespace TaskflowMeter
namespace Barrier

open Runs

variable {config : PipelineConfig}

/-- A sentinel that entered is on the queue until the sender takes it, and what is discarded is
an event. -/
structure SentinelSafe (p : Barrier config) : Prop where
  stays : ∀ sentinel ∈ p.entered, sentinel.entry = .stop →
    sentinel ∈ p.queue.entries ∨ sentinel ∈ p.sender.batch ∨ sentinel ∈ p.delivered.flatten
  discards : ∀ queued ∈ p.discarded, ∃ event, queued.entry = .event event

/-- An operation does not make room while the sentinel is the oldest entry. -/
def Spares (config : PipelineConfig) (done : List Move) (a : Move) : Prop :=
  ∀ i event number, a = .advance i →
    (after config done).calls[i]? = some ⟨.makeRoom event, number⟩ →
    (after config done).queue.entries.head?.map Queued.entry ≠ some .stop

/-- What an operation discards, and whose operation it is then. -/
theorem discarded_advance (p : Barrier config) (number : Option ℕ) (phase : Submit) :
    (p.advance number phase).1.discarded = p.discarded
      ∨ ∃ event oldest rest, phase = .makeRoom event ∧ p.queue.entries = oldest :: rest
        ∧ (p.advance number phase).1.discarded = p.discarded ++ [oldest] := by
  cases phase with
  | makeRoom event =>
    rw [advance]
    rcases hget : p.queue.get? with _ | ⟨oldest, queue⟩
    · exact .inl rfl
    · exact .inr ⟨event, oldest, queue.entries, rfl, (BoundedQueue.get?_eq_some hget).1, rfl⟩
  | put event | putAgain event =>
    rw [advance]
    rcases hput : p.put? (.event event) with _ | p'
    · exact .inl rfl
    · obtain ⟨queue, -, rfl⟩ := put?_eq_some hput
      exact .inl rfl
  | taskDone event =>
    rw [advance]
    cases p.queue.taskDone? <;> exact .inl rfl
  | count event | clearIdle | returned queued | raised => exact .inl rfl

theorem discarded_step (p : Barrier config) (a : Move) :
    (p.step a).discarded = p.discarded
      ∨ ∃ i event number oldest rest, a = .advance i
        ∧ p.calls[i]? = some ⟨.makeRoom event, number⟩ ∧ p.queue.entries = oldest :: rest
        ∧ (p.step a).discarded = p.discarded ++ [oldest] := by
  cases a with
  | submit event | flush => exact .inl rfl
  | advance i =>
    rw [step]
    rcases hcall : p.calls[i]? with _ | ⟨phase, number⟩
    · exact .inl rfl
    · rcases p.discarded_advance number phase with heq | ⟨event, oldest, rest, rfl, hqueue, heq⟩
      · exact .inl heq
      · exact .inr ⟨i, event, number, oldest, rest, rfl, hcall, hqueue, heq⟩
  | send raises => exact .inl (p.send_frame raises).2.2.2.2
  | wake i =>
    rw [step]
    split
    · split <;> exact .inl rfl
    · exact .inl rfl
  | giveUp i | stop drain =>
    rw [step]
    split <;> exact .inl rfl
  | stopNext =>
    rw [step]
    cases p.stopping with
    | put =>
      rcases hput : p.put? .stop with _ | p'
      · exact .inl rfl
      · obtain ⟨queue, -, rfl⟩ := put?_eq_some hput
        exact .inl rfl
    | notCalled | flush | join | returned => exact .inl rfl

/-- A call that makes room discards the oldest entry. -/
theorem discarded_makeRoom {p : Barrier config} {i : ℕ} {event : Event} {number : Option ℕ}
    (hcall : p.calls[i]? = some ⟨.makeRoom event, number⟩) {oldest : Queued} {rest : List Queued}
    (hqueue : p.queue.entries = oldest :: rest) :
    (p.step (.advance i)).discarded = p.discarded ++ [oldest] := by
  obtain ⟨queue, hget, -⟩ := BoundedQueue.get?_of_cons hqueue
  rw [step, hcall]
  dsimp only
  rw [advance, hget]

/-- It is enough to look at what was discarded. -/
theorem sentinelSafe_iff_discarded (moves : List Move) : SentinelSafe (after config moves)
    ↔ ∀ queued ∈ (after config moves).discarded, queued.entry ≠ .stop := by
  constructor
  · intro h queued hmem hstop
    obtain ⟨event, hevent⟩ := h.discards queued hmem
    rw [hstop] at hevent
    cases hevent
  · intro h
    refine ⟨?_, ?_⟩
    · intro sentinel hentered hstop
      rcases (inv_after config moves).kept.mem_iff.mp hentered with ((hmem | hmem) | hmem) | hmem
      · exact .inr (.inr hmem)
      · exact .inr (.inl hmem)
      · exact .inl hmem
      · exact absurd hstop (h sentinel hmem)
    · intro queued hmem
      rcases hentry : queued.entry with event | _
      · exact ⟨event, rfl⟩
      · exact absurd hentry (h queued hmem)

/-- **The sentinel is safe as long as it is spared.** -/
theorem sentinelSafe_concat (done : List Move) (a : Move) :
    SentinelSafe (after config (done ++ [a]))
      ↔ SentinelSafe (after config done) ∧ Spares config done a := by
  rw [sentinelSafe_iff_discarded, sentinelSafe_iff_discarded, after_concat]
  unfold Spares
  generalize after config done = p
  constructor
  · intro h
    refine ⟨?_, ?_⟩
    · intro queued hmem
      apply h
      rcases p.discarded_step a with heq |
        ⟨i, event, number, oldest, rest, -, -, -, heq⟩ <;> rw [heq]
      · exact hmem
      · exact List.mem_append_left _ hmem
    · rintro i event number rfl hcall hhead
      obtain ⟨oldest, holdest, hstop⟩ := Option.map_eq_some_iff.mp hhead
      obtain ⟨rest, hqueue⟩ := List.head?_eq_some_iff.mp holdest
      refine h oldest ?_ hstop
      rw [discarded_makeRoom hcall hqueue]
      exact List.mem_append_right _ (List.mem_singleton_self _)
  · rintro ⟨h, hspares⟩ queued hmem
    rcases p.discarded_step a with heq |
      ⟨i, event, number, oldest, rest, rfl, hcall, hqueue, heq⟩ <;>
      rw [heq] at hmem
    · exact h queued hmem
    · rcases List.mem_append.mp hmem with hmem | hmem
      · exact h queued hmem
      · obtain rfl := List.mem_singleton.mp hmem
        intro hstop
        refine hspares i event number rfl hcall ?_
        rw [hqueue, List.head?_cons, Option.map_some, hstop]

theorem sentinelSafe_iff_everyMove (moves : List Move) :
    SentinelSafe (after config moves) ↔ EveryMove (Spares config) moves := by
  have hstart : SentinelSafe (after config []) :=
    ⟨fun _ hmem => absurd hmem List.not_mem_nil, fun _ hmem => absurd hmem List.not_mem_nil⟩
  exact iff_everyMove (P := fun moves => SentinelSafe (after config moves)) hstart
    sentinelSafe_concat moves

/-! ### The sender gets to the sentinel -/

/-- How many operations the sender has before it in this round. -/
def roundToGo (config : PipelineConfig) : Sending → ℕ
  | .get | .exited => 0
  | .takeMore taken =>
      2 * (config.batchSize - taken.length) + config.publishers + taken.length + 5
  | .publish taken had => config.publishers - had.length + taken.length + 4
  | .taskDone left _ => left + 3
  | .checkEmpty _ => 2
  | .setIdle _ => 1

/-- How many operations the sender has before it, at the most, when it is to get to the entry of
this number: a round for each entry that is before it, and the one it is at. -/
def toGo (p : Barrier config) (number : ℕ) : ℕ :=
  p.queue.entries.countP (·.number ≤ number) * (2 * config.batchSize + config.publishers + 5)
    + roundToGo config p.sender

/-- In a round, every operation of the sender brings its end nearer. -/
theorem roundToGo_send (p : Barrier config) (hget : p.sender ≠ .get) (hexited : p.sender ≠ .exited)
    (raises : Option String) :
    roundToGo config (p.send raises).sender < roundToGo config p.sender := by
  rw [send]
  cases hs : p.sender with
  | get => exact absurd hs hget
  | takeMore taken =>
    dsimp only
    split
    · rcases p.queue.get? with _ | ⟨queued, queue⟩
      · simp only [roundToGo, List.length_nil]
        omega
      · simp only [roundToGo, List.length_append, List.length_singleton]
        omega
    · simp only [roundToGo, List.length_nil]
      omega
  | publish taken had =>
    dsimp only
    split
    · simp only [roundToGo]
      omega
    · next hmore =>
      obtain ⟨-, hless⟩ := not_or.mp hmore
      simp only [roundToGo, List.length_append, List.length_singleton]
      omega
  | taskDone left stopping =>
    cases left with
    | zero => simp [roundToGo]
    | succ left => rcases p.queue.taskDone? with _ | queue <;> simp [roundToGo]
  | checkEmpty stopping =>
    dsimp only
    split
    · simp [roundToGo]
    · cases stopping <;> simp [roundToGo]
  | setIdle stopping => cases stopping <;> simp [roundToGo]
  | exited => exact absurd hs hexited

/-- No one gets in front of an entry. -/
theorem countP_step_le (p : Barrier config) (a : Move) {number : ℕ}
    (hlt : number < p.entered.length) :
    (p.step a).queue.entries.countP (·.number ≤ number)
      ≤ p.queue.entries.countP (·.number ≤ number) := by
  have hmoves := p.conveyor_step a
  have hwaiting : (p.step a).queue.entries = (p.step a).conveyor.waiting := rfl
  have hbefore : p.queue.entries = p.conveyor.waiting := rfl
  have hentered : p.entered = p.conveyor.entered := rfl
  rw [hwaiting, hbefore]
  rw [hentered] at hlt
  generalize (p.step a).conveyor = next, p.conveyor = now at *
  cases hmoves with
  | stays | delivered => exact le_refl _
  | @enters queued hnumber =>
    -- it is given a number of its own
    unfold numbered at hnumber
    have hlate : ¬queued.number ≤ number := by omega
    simp [List.countP_append, hlate]
  | taken h | discarded h =>
    rw [h, List.countP_cons]
    exact Nat.le_add_right _ _

/-- The sentinel that the sender has had makes it exit. -/
theorem Inv.stopping_of_mem {p : Barrier config} (h : Inv p) {sentinel : Queued}
    (hmem : sentinel ∈ p.delivered.flatten) (hstop : sentinel.entry = .stop) :
    p.sender.stopping = true := by
  obtain ⟨taken, htaken, hsentinel⟩ := List.mem_flatten.mp hmem
  rw [h.sends.stopping]
  refine List.any_eq_true.mpr ⟨taken, htaken, ?_⟩
  unfold isStopping
  rw [List.contains_iff_mem, ← hstop]
  exact List.mem_map_of_mem hsentinel

theorem Inv.number_lt {p : Barrier config} (h : Inv p) {queued : Queued}
    (hmem : queued ∈ p.entered) :
    queued.number < p.entered.length :=
  List.mem_range.mp (h.numbers ▸ List.mem_map_of_mem hmem)

/-- **The sender's next operation brings it nearer to the sentinel**, or to its exit. -/
theorem toGo_send {p : Barrier config} (h : Inv p) (hsafe : SentinelSafe p) {sentinel : Queued}
    (hentered : sentinel ∈ p.entered) (hstop : sentinel.entry = .stop)
    (hexited : p.sender ≠ .exited) (raises : Option String) :
    toGo (p.send raises) sentinel.number < toGo p sentinel.number := by
  have hlt := h.number_lt hentered
  by_cases hget : p.sender = .get
  · -- the queue is not empty, for the sentinel is on it
    have hwaiting : sentinel ∈ p.queue.entries := by
      rcases hsafe.stays sentinel hentered hstop with hmem | hmem | hmem
      · exact hmem
      · rw [hget] at hmem
        exact absurd hmem List.not_mem_nil
      · have hstopping := h.stopping_of_mem hmem hstop
        rw [hget] at hstopping
        cases hstopping
    rcases hqueue : p.queue.entries with _ | ⟨oldest, rest⟩
    · rw [hqueue] at hwaiting
      exact absurd hwaiting List.not_mem_nil
    · have hle : oldest.number ≤ sentinel.number := by
        rw [hqueue] at hwaiting
        rcases List.mem_cons.mp hwaiting with rfl | hmem
        · exact le_refl _
        · have hpair := h.pairwise.sublist ((List.sublist_append_right _ _).trans h.kept.line)
          simp only [conveyor, hqueue] at hpair
          exact (List.rel_of_pairwise_cons hpair hmem).le
      obtain ⟨queue, htake, hrest⟩ := BoundedQueue.get?_of_cons hqueue
      have hone := config.one_le_batchSize
      rw [send, hget, htake]
      simp only [toGo, hget, hrest, hqueue, List.countP_cons, hle, decide_true, if_true, roundToGo,
        List.length_singleton, Nat.add_mul]
      omega
  · have hcount := p.countP_step_le (.send raises) hlt
    exact Nat.add_lt_add_of_le_of_lt (Nat.mul_le_mul_right _ hcount)
      (p.roundToGo_send hget hexited raises)

/-- What has entered stays in the history. -/
theorem mem_entered_step {p : Barrier config} {queued : Queued} (hmem : queued ∈ p.entered)
    (a : Move) :
    queued ∈ (p.step a).entered := by
  rcases (p.conveyor_step a).entered_eq with heq | ⟨x, -, heq⟩ <;> simp only [conveyor] at heq <;>
    rw [heq]
  · exact hmem
  · exact List.mem_append_left _ hmem

theorem mem_entered_run {moves : List Move} {queued : Queued}
    (hmem : queued ∈ (after config moves).entered) (more : List Move) :
    queued ∈ (after config (moves ++ more)).entered := by
  induction more using List.reverseRecOn with
  | nil => rwa [List.append_nil]
  | append_singleton more a ih =>
    rw [← List.append_assoc, after_concat]
    exact mem_entered_step ih a

/-- How many operations of a run are the sender's. -/
def sends (moves : List Move) : ℕ := moves.countP fun
  | .send _ => true
  | _ => false

/-- **Every operation of the sender brings it nearer to its exit**, and no one else's takes it
back. -/
theorem toGo_run {moves more : List Move} (hspares : EveryMove (Spares config) (moves ++ more))
    {sentinel : Queued} (hentered : sentinel ∈ (after config moves).entered)
    (hstop : sentinel.entry = .stop) :
    (after config (moves ++ more)).sender = .exited
      ∨ toGo (after config (moves ++ more)) sentinel.number + sends more
        ≤ toGo (after config moves) sentinel.number := by
  induction more using List.reverseRecOn with
  | nil =>
    right
    rw [List.append_nil]
    exact le_refl _
  | append_singleton more a ih =>
    rw [← List.append_assoc] at hspares ⊢
    obtain ⟨hbefore, -⟩ := everyMove_concat.mp hspares
    have hsafe := (sentinelSafe_iff_everyMove (moves ++ more)).mpr hbefore
    have hmem := mem_entered_run hentered more
    have hinv := inv_after config (moves ++ more)
    have hless := ih hbefore
    rw [after_concat]
    unfold sends at hless ⊢
    rw [List.countP_append]
    generalize after config (moves ++ more) = p at *
    by_cases hsend : ∃ raises, a = .send raises
    · obtain ⟨raises, rfl⟩ := hsend
      by_cases hexited : p.sender = .exited
      · left
        rw [step, send, hexited]
        exact hexited
      · right
        have hnear := toGo_send hinv hsafe hmem hstop hexited raises
        rcases hless with heq | hless
        · exact absurd heq hexited
        · change toGo (p.send raises) sentinel.number + (_ + 1) ≤ _
          omega
    · obtain ⟨hsender, -, -⟩ := p.step_frame fun raises heq => hsend ⟨raises, heq⟩
      rcases hless with heq | hless
      · exact .inl (hsender.trans heq)
      · right
        have hcount := p.countP_step_le a (hinv.number_lt hmem)
        have hle : toGo (p.step a) sentinel.number ≤ toGo p sentinel.number := by
          unfold toGo
          rw [hsender]
          exact Nat.add_le_add_right (Nat.mul_le_mul_right _ hcount) _
        have hnone : List.countP (fun
            | Move.send _ => true
            | _ => false) [a] = 0 := by
          cases a with
          | send raises => exact absurd ⟨raises, rfl⟩ hsend
          | _ => rfl
        omega

/-! ### The sentinel that is lost -/

/-- Whether an entry is the sentinel. -/
def isSentinel (queued : Queued) : Bool := queued.entry = .stop

/-- Whether the call of `stop` has put the sentinel. -/
def hasStopped : Stopping → Bool
  | .notCalled | .flush | .put => false
  | .join | .returned => true

/-- A call of `submit` puts events only. -/
theorem countP_entered_advance (p : Barrier config) (number : Option ℕ) (phase : Submit) :
    (p.advance number phase).1.entered.countP isSentinel = p.entered.countP isSentinel := by
  cases phase with
  | put event | putAgain event =>
    rw [advance]
    rcases hput : p.put? (.event event) with _ | p'
    · rfl
    · obtain ⟨queue, -, rfl⟩ := put?_eq_some hput
      dsimp only
      rw [List.countP_append]
      rfl
  | makeRoom event =>
    rw [advance]
    rcases p.queue.get? with _ | next <;> rfl
  | taskDone event =>
    rw [advance]
    rcases p.queue.taskDone? with _ | queue <;> rfl
  | count event | clearIdle | returned queued | raised => rfl

/-- **There is one sentinel**, from when it has been put. -/
theorem countP_entered (moves : List Move) : (after config moves).entered.countP isSentinel
    = (hasStopped (after config moves).stopping).toNat := by
  induction moves using List.reverseRecOn with
  | nil => rfl
  | append_singleton moves a ih =>
    rw [after_concat]
    generalize after config moves = p at ih ⊢
    cases a with
    | submit event | flush => exact ih
    | advance i =>
      rw [step]
      rcases p.calls[i]? with _ | call
      · exact ih
      · obtain ⟨-, -, -, -, hstopping⟩ := p.advance_frame call.number call.phase
        dsimp only
        rw [p.countP_entered_advance call.number call.phase, hstopping, ih]
    | send raises =>
      obtain ⟨-, -, hstopping, hentered, -⟩ := p.send_frame raises
      rw [step, hentered, hstopping, ih]
    | wake i =>
      rw [step]
      split
      · split <;> exact ih
      · exact ih
    | giveUp i =>
      rw [step]
      split <;> exact ih
    | stop drain =>
      rw [step]
      split
      · next hnot =>
        rw [hnot] at ih
        cases drain <;> exact ih
      · exact ih
    | stopNext =>
      rw [step]
      rcases hs : p.stopping with _ | _ | _ | _ | _ <;> rw [hs] at ih <;> dsimp only
      · rw [hs]
        exact ih
      · exact ih
      · rcases hput : p.put? .stop with _ | p'
        · dsimp only
          rw [hs]
          exact ih
        · obtain ⟨queue, -, rfl⟩ := put?_eq_some hput
          dsimp only
          rw [List.countP_append, ih]
          rfl
      · exact ih
      · rw [hs]
        exact ih

/-- **When the sentinel has been discarded the sender never exits.** -/
theorem not_exited {moves : List Move} {sentinel : Queued}
    (hmem : sentinel ∈ (after config moves).discarded) (hstop : sentinel.entry = .stop) :
    (after config moves).sender ≠ .exited := by
  intro hexited
  have h := inv_after config moves
  obtain ⟨other, hother, hentry, -⟩ := h.exited hexited
  have hone : (after config moves).entered.countP isSentinel ≤ 1 := by
    rw [countP_entered]
    exact Bool.toNat_le _
  have hperm := h.kept.perm.countP_eq isSentinel
  have hline : 1 ≤ (after config moves).conveyor.line.countP isSentinel := by
    refine List.countP_pos_iff.mpr ⟨other, ?_, decide_eq_true hentry⟩
    exact List.mem_append_left _ (List.mem_append_left _ hother)
  have hdiscarded : 1 ≤ (after config moves).discarded.countP isSentinel :=
    List.countP_pos_iff.mpr ⟨sentinel, hmem, decide_eq_true hstop⟩
  rw [List.countP_append] at hperm
  simp only [conveyor] at hperm hline
  omega

theorem not_exited_run {moves : List Move} (hnot : ¬SentinelSafe (after config moves))
    (more : List Move) : (after config (moves ++ more)).sender ≠ .exited := by
  have hnot' : ¬SentinelSafe (after config (moves ++ more)) := by
    rw [sentinelSafe_iff_everyMove] at hnot ⊢
    exact fun hspares => hnot hspares.of_append
  rw [sentinelSafe_iff_discarded] at hnot'
  push Not at hnot'
  obtain ⟨sentinel, hmem, hstop⟩ := hnot'
  exact not_exited hmem hstop

/-- **The sentinel is safe exactly in the runs in which no call makes room while it is the oldest
entry.**  In them the sender exits, after so many operations of its own, whatever the others do;
after any other run it never exits. -/
theorem sentinelSafe_iff (config : PipelineConfig) (moves : List Move) :
    (SentinelSafe (after config moves) ↔ EveryMove (Spares config) moves)
      ∧ (∀ sentinel ∈ (after config moves).entered, sentinel.entry = .stop →
        ∃ bound, ∀ more, EveryMove (Spares config) (moves ++ more) → bound < sends more →
          (after config (moves ++ more)).sender = .exited)
      ∧ (¬EveryMove (Spares config) moves → ∀ more,
          (after config (moves ++ more)).sender ≠ .exited) := by
  refine ⟨sentinelSafe_iff_everyMove moves, ?_, ?_⟩
  · intro sentinel hentered hstop
    refine ⟨toGo (after config moves) sentinel.number, ?_⟩
    intro more hspares hbound
    rcases toGo_run hspares hentered hstop with hexited | hless
    · exact hexited
    · omega
  · intro hnot more
    exact not_exited_run (mt (sentinelSafe_iff_everyMove moves).mp hnot) more

/-- A queue of one entry: the sentinel is put, and a call of `submit` makes room. -/
def stopThenSubmit : List Move :=
  [.stop false, .stopNext, .submit (heartbeat 1), .advance 0, .advance 0, .advance 0, .advance 0,
    .advance 0, .advance 0]

/-- **The sentinel is discarded and counted as a drop, and the sender never exits**, though it is
never kept from going on. -/
theorem sentinel_discarded :
    let p := after { maxQueue := 1 } stopThenSubmit
    p.discarded.map Queued.entry = [.stop] ∧ p.stats.dropped = 1 ∧ p.stopping = .join
      ∧ ¬SentinelSafe p
      ∧ ∀ more, (after { maxQueue := 1 } (stopThenSubmit ++ more)).sender ≠ .exited := by
  intro p
  have hdiscarded : p.discarded.map Queued.entry = [.stop] := by decide
  have hnot : ¬SentinelSafe p := by
    intro hsafe
    have hmem : Entry.stop ∈ p.discarded.map Queued.entry := by rw [hdiscarded]; decide
    obtain ⟨sentinel, hsentinel, hstop⟩ := List.mem_map.mp hmem
    exact (sentinelSafe_iff_discarded stopThenSubmit).mp hsafe sentinel hsentinel hstop
  exact ⟨hdiscarded, by decide, by decide, hnot, not_exited_run hnot⟩

end Barrier
end TaskflowMeter
