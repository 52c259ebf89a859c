import TaskflowMeter.Collect.Barrier
import TaskflowMeter.Lib.Conveyor

/-!
# What becomes of the entries of a pipeline

The queue, the sender's batch, the batches that all publishers have had and what was
discarded to make room are a conveyor, and whatever the threads do is a move of it.

## Main definitions

* `Barrier.conveyor` — the entries, and where they are.
* `Barrier.batches` — the batches of events that all publishers have had.
* `Barrier.Inv` — the order of the entries, the batches and what was offered to whom.

## Main results

* `conveyor_step` — each operation moves at most one entry, or a batch, one place further.
* `inv_after` — the invariant holds after every run.
* `conserved` — **every event that entered is in exactly one place**, and publishers are
  offered the events in the order in which they entered.
-/

namespace TaskflowMeter
namespace Barrier

variable {config : PipelineConfig}

/-- The entries, and where they are. -/
def conveyor (p : Barrier config) : Conveyor Queued :=
  { entered := p.entered
    waiting := p.queue.entries
    batch := p.sender.batch
    delivered := p.delivered
    discarded := p.discarded }

/-- An entry carries its place in the order of entering. -/
def numbered (entered : List Queued) (queued : Queued) : Prop := queued.number = entered.length

/-- What putting an entry does. -/
theorem put?_eq_some {p p' : Barrier config} {entry : Entry} (h : p.put? entry = some p') :
    ∃ queue, queue.entries = p.queue.entries ++ [⟨p.entered.length, entry⟩]
      ∧ p' = { p with queue := queue, entered := p.entered ++ [⟨p.entered.length, entry⟩] } := by
  unfold put? at h
  obtain ⟨queue, hput, rfl⟩ := Option.map_eq_some_iff.mp h
  exact ⟨queue, (BoundedQueue.put?_eq_some hput).1, rfl⟩

/-- What an operation of a call of `submit` leaves alone. -/
theorem advance_frame (p : Barrier config) (number : Option ℕ) (phase : Submit) :
    (p.advance number phase).1.sender = p.sender ∧ (p.advance number phase).1.offers = p.offers
      ∧ (p.advance number phase).1.delivered = p.delivered
      ∧ (p.advance number phase).1.flushes = p.flushes
      ∧ (p.advance number phase).1.stopping = p.stopping := by
  cases phase with
  | put event | putAgain event =>
    rw [advance]
    rcases hput : p.put? (.event event) with _ | p'
    · exact ⟨rfl, rfl, rfl, rfl, rfl⟩
    · obtain ⟨queue, -, rfl⟩ := put?_eq_some hput
      exact ⟨rfl, rfl, rfl, rfl, rfl⟩
  | makeRoom event =>
    rw [advance]
    rcases p.queue.get? with _ | next <;> exact ⟨rfl, rfl, rfl, rfl, rfl⟩
  | taskDone event =>
    rw [advance]
    rcases p.queue.taskDone? with _ | queue <;> exact ⟨rfl, rfl, rfl, rfl, rfl⟩
  | count event | clearIdle | returned queued | raised => exact ⟨rfl, rfl, rfl, rfl, rfl⟩

/-- What an operation of a call of `submit` does to the entries. -/
theorem conveyor_advance (p : Barrier config) (number : Option ℕ) (phase : Submit) :
    p.conveyor.Moves numbered (p.advance number phase).1.conveyor := by
  cases phase with
  | put event | putAgain event =>
    rw [advance]
    rcases hput : p.put? (.event event) with _ | p'
    · exact .stays
    · obtain ⟨queue, hentries, rfl⟩ := put?_eq_some hput
      have henters := Conveyor.Moves.enters (s := p.conveyor)
        (show numbered p.entered ⟨p.entered.length, .event event⟩ from rfl)
      simpa only [conveyor, hentries] using henters
  | makeRoom event =>
    rw [advance]
    rcases hget : p.queue.get? with _ | ⟨oldest, queue⟩
    · exact .stays
    · exact .discarded (BoundedQueue.get?_eq_some hget).1
  | taskDone event =>
    rw [advance]
    rcases hdone : p.queue.taskDone? with _ | queue
    · exact .stays
    · simp only [conveyor, (BoundedQueue.taskDone?_eq_some hdone).1]
      exact .stays
  | count event | clearIdle | returned queued | raised => exact .stays

/-- What an operation of the sender does to the entries. -/
theorem conveyor_send (p : Barrier config) (raises : Option String) :
    p.conveyor.Moves numbered (p.send raises).conveyor := by
  -- most operations leave the batch as it is
  have hturn : ∀ sender : Sending, sender.batch = p.sender.batch →
      p.conveyor.Moves numbered ({ p with sender := sender } : Barrier config).conveyor := by
    intro sender hbatch
    simpa only [conveyor, hbatch] using Conveyor.Moves.stays (s := p.conveyor)
  rw [send]
  cases hs : p.sender with
  | get =>
    cases hget : p.queue.get? with
    | none => exact .stays
    | some next =>
      obtain ⟨queued, queue⟩ := next
      have htaken : p.conveyor.Moves numbered _ := .taken (BoundedQueue.get?_eq_some hget).1
      simpa only [conveyor, hs, Sending.batch, List.nil_append] using htaken
  | takeMore taken =>
    dsimp only
    split
    · cases hget : p.queue.get? with
      | none => exact hturn _ (by rw [hs]; rfl)
      | some next =>
        obtain ⟨queued, queue⟩ := next
        have htaken : p.conveyor.Moves numbered _ := .taken (BoundedQueue.get?_eq_some hget).1
        simpa only [conveyor, hs, Sending.batch] using htaken
    · exact hturn _ (by rw [hs]; rfl)
  | publish taken had =>
    dsimp only
    split
    · have hdelivered : p.conveyor.Moves numbered _ := .delivered
      simpa only [conveyor, hs, Sending.batch] using hdelivered
    · exact hturn (.publish taken (had ++ [raises])) (by rw [hs]; rfl)
  | taskDone left stopping =>
    cases left with
    | zero => exact hturn _ (by rw [hs]; rfl)
    | succ left =>
      cases hdone : p.queue.taskDone? with
      | none => exact hturn _ (by rw [hs]; rfl)
      | some queue =>
        have hstays := hturn (.taskDone left stopping) (by rw [hs]; rfl)
        simpa only [conveyor, (BoundedQueue.taskDone?_eq_some hdone).1] using hstays
  | checkEmpty stopping =>
    dsimp only
    split
    · exact hturn _ (by rw [hs]; rfl)
    · exact hturn _ (by rw [hs]; cases stopping <;> rfl)
  | setIdle stopping => exact hturn _ (by rw [hs]; cases stopping <;> rfl)
  | exited => exact .stays

/-- **Each operation moves at most one entry, or a batch, one place further.** -/
theorem conveyor_step (p : Barrier config) (a : Move) :
    p.conveyor.Moves numbered (p.step a).conveyor := by
  cases a with
  | submit event | flush => exact .stays
  | advance i =>
    rw [step]
    cases p.calls[i]? with
    | none => exact .stays
    | some call => exact p.conveyor_advance call.number call.phase
  | send raises => exact p.conveyor_send raises
  | wake i =>
    rw [step]
    split
    · split <;> exact .stays
    · exact .stays
  | giveUp i | stop drain =>
    rw [step]
    split <;> exact .stays
  | stopNext =>
    rw [step]
    split
    · exact .stays
    · cases hput : p.put? .stop with
      | none => exact .stays
      | some p' =>
        obtain ⟨queue, hentries, rfl⟩ := put?_eq_some hput
        have henters := Conveyor.Moves.enters (s := p.conveyor)
          (show numbered p.entered ⟨p.entered.length, .stop⟩ from rfl)
        simpa only [conveyor, hentries] using henters
    · exact .stays
    · exact .stays
    · exact .stays

/-- What no one but the sender touches. -/
theorem step_frame (p : Barrier config) {a : Move} (ha : ∀ raises, a ≠ .send raises) :
    (p.step a).sender = p.sender ∧ (p.step a).offers = p.offers
      ∧ (p.step a).delivered = p.delivered := by
  cases a with
  | submit event | flush => exact ⟨rfl, rfl, rfl⟩
  | advance i =>
    rw [step]
    cases p.calls[i]? with
    | none => exact ⟨rfl, rfl, rfl⟩
    | some call =>
      obtain ⟨hsender, hoffers, hdelivered, -, -⟩ := p.advance_frame call.number call.phase
      exact ⟨hsender, hoffers, hdelivered⟩
  | send raises => exact absurd rfl (ha raises)
  | wake i =>
    rw [step]
    split
    · split <;> exact ⟨rfl, rfl, rfl⟩
    · exact ⟨rfl, rfl, rfl⟩
  | giveUp i | stop drain =>
    rw [step]
    split <;> exact ⟨rfl, rfl, rfl⟩
  | stopNext =>
    rw [step]
    cases p.stopping with
    | put =>
      cases hput : p.put? .stop with
      | none => exact ⟨rfl, rfl, rfl⟩
      | some p' =>
        obtain ⟨queue, -, rfl⟩ := put?_eq_some hput
        exact ⟨rfl, rfl, rfl⟩
    | notCalled | flush | join | returned => exact ⟨rfl, rfl, rfl⟩

/-- What the sender does not touch. -/
theorem send_frame (p : Barrier config) (raises : Option String) :
    (p.send raises).calls = p.calls ∧ (p.send raises).flushes = p.flushes
      ∧ (p.send raises).stopping = p.stopping ∧ (p.send raises).entered = p.entered
      ∧ (p.send raises).discarded = p.discarded := by
  rw [send]
  split
  · split <;> exact ⟨rfl, rfl, rfl, rfl, rfl⟩
  · split
    · split <;> exact ⟨rfl, rfl, rfl, rfl, rfl⟩
    · exact ⟨rfl, rfl, rfl, rfl, rfl⟩
  · split <;> exact ⟨rfl, rfl, rfl, rfl, rfl⟩
  · split <;> exact ⟨rfl, rfl, rfl, rfl, rfl⟩
  · exact ⟨rfl, rfl, rfl, rfl, rfl⟩
  · split <;> exact ⟨rfl, rfl, rfl, rfl, rfl⟩
  · exact ⟨rfl, rfl, rfl, rfl, rfl⟩
  · exact ⟨rfl, rfl, rfl, rfl, rfl⟩

/-! ### What was offered to whom -/

/-- The batches of events that all publishers have had. -/
def batches (p : Barrier config) : List (List (ℕ × Event)) :=
  (p.delivered.map eventsOf).filter (!·.isEmpty)

/-- The batch in progress, if the `i`-th publisher has been offered it. -/
def current (p : Barrier config) (i : ℕ) : List (List (ℕ × Event)) :=
  if i < p.sender.had.length then [eventsOf p.sender.batch] else []

/-- What the sender does with its batches. -/
structure Sends (p : Barrier config) : Prop where
  sizes : ∀ taken ∈ p.delivered, taken.length ≤ config.batchSize
  size : p.sender.batch.length ≤ config.batchSize
  had : p.sender.had.length ≤ config.publishers
  some : p.sender.had ≠ [] → eventsOf p.sender.batch ≠ []
  offers : ∀ i < config.publishers, p.offers i = p.batches ++ p.current i
  stopping : p.sender.stopping = p.delivered.any isStopping

/-- The sender turns to something else, between batches. -/
theorem Sends.turn {p : Barrier config} (h : Sends p) (hhad : p.sender.had = []) (sender : Sending)
    (hhad' : sender.had = []) (hsize : sender.batch.length ≤ config.batchSize)
    (hstopping : sender.stopping = p.sender.stopping) :
    Sends { p with sender := sender } :=
  { sizes := h.sizes
    size := hsize
    had := by rw [hhad']; exact Nat.zero_le _
    some := fun hne => absurd hhad' hne
    offers := by
      intro i hi
      have hoffers := h.offers i hi
      simp only [current, hhad, hhad'] at hoffers ⊢
      exact hoffers
    stopping := hstopping.trans h.stopping }

/-- The batch in hand has been had by all publishers, or has no events. -/
theorem Sends.deliver {p : Barrier config} (h : Sends p) {taken : List Queued}
    {had : List (Option String)} (hs : p.sender = .publish taken had)
    (hdone : (eventsOf taken).isEmpty ∨ config.publishers ≤ had.length) :
    Sends
      { p with
        delivered := p.delivered ++ [taken]
        sender := .taskDone taken.length (isStopping taken) } := by
  obtain ⟨hsizes, hsize, -, hsome, hoffers, hstopping⟩ := h
  rw [hs] at hsize hsome hstopping
  refine ⟨?_, Nat.zero_le _, Nat.zero_le _, absurd rfl, ?_, ?_⟩
  · intro batch hbatch
    rcases List.mem_append.mp hbatch with hbatch | hbatch
    · exact hsizes batch hbatch
    · obtain rfl := List.mem_singleton.mp hbatch
      exact hsize
  · intro i hi
    rw [hoffers i hi]
    simp only [batches, current, hs, Sending.had, Sending.batch, List.map_append,
      List.filter_append,
      List.append_assoc]
    congr 1
    rcases hdone with hempty | hle
    · have hhad : had = [] := by_contra fun hne => hsome hne (List.isEmpty_iff.mp hempty)
      simp [hhad, List.isEmpty_iff.mp hempty]
    · by_cases hnil : eventsOf taken = []
      · have hhad : had = [] := by_contra fun hne => hsome hne hnil
        simp [hhad, hnil]
      · have hlt : i < had.length := by omega
        have hkeep : (!(eventsOf taken).isEmpty) = true := by simpa using hnil
        simp [hlt, hkeep]
  · rw [List.any_append, ← hstopping]
    simp [Sending.stopping]

/-- The next publisher is offered the batch. -/
theorem Sends.offer {p : Barrier config} (h : Sends p) {taken : List Queued}
    {had : List (Option String)} (hs : p.sender = .publish taken had)
    (hmore : ¬((eventsOf taken).isEmpty ∨ config.publishers ≤ had.length))
      (raises : Option String) :
    Sends
      { p with
        offers := Function.update p.offers had.length (p.offers had.length ++ [eventsOf taken])
        stats := tally (eventsOf taken).length p.stats raises
        sender := .publish taken (had ++ [raises]) } := by
  obtain ⟨hsizes, hsize, -, -, hoffers, hstopping⟩ := h
  obtain ⟨hsome, hless⟩ := not_or.mp hmore
  rw [hs] at hsize hstopping
  refine ⟨hsizes, hsize, ?_, ?_, ?_, hstopping⟩
  · rw [Sending.had, List.length_append, List.length_singleton]
    omega
  · intro _ hnil
    exact hsome (List.isEmpty_iff.mpr hnil)
  · intro i hi
    have hi' := hoffers i hi
    simp only [batches, current, hs, Sending.had, Sending.batch, List.length_append,
      List.length_singleton] at hi' ⊢
    by_cases heq : i = had.length
    · subst heq
      rw [Function.update_self, hi']
      simp
    · have hiff : i < had.length + 1 ↔ i < had.length := by omega
      rw [Function.update_of_ne heq, hi']
      simp only [hiff]

theorem Sends.send {p : Barrier config} (h : Sends p) (hunfinished : ∀ left stopping,
    p.sender = .taskDone (left + 1) stopping → p.queue.unfinished ≠ 0) (raises : Option String) :
    Sends (p.send raises) := by
  have hsize := h.size
  rw [Barrier.send]
  cases hs : p.sender with
  | get =>
    have hturn := h.turn (by rw [hs]; rfl)
    cases hget : p.queue.get? with
    | none => exact h
    | some next =>
      obtain ⟨queued, queue⟩ := next
      exact { hturn (.takeMore [queued]) rfl config.one_le_batchSize (by rw [hs]; rfl) with }
  | takeMore taken =>
    have hturn := h.turn (by rw [hs]; rfl)
    rw [hs] at hsize
    have hpublish := hturn (.publish taken []) rfl hsize (by rw [hs]; rfl)
    dsimp only
    split
    · next hless =>
      cases hget : p.queue.get? with
      | none => exact hpublish
      | some next =>
        obtain ⟨queued, queue⟩ := next
        refine { hturn (.takeMore (taken ++ [queued])) rfl ?_ (by rw [hs]; rfl) with }
        rw [Sending.batch, List.length_append]
        exact hless
    · exact hpublish
  | publish taken had =>
    dsimp only
    split
    · next hdone => exact h.deliver hs hdone
    · next hmore => exact h.offer hs hmore raises
  | taskDone left stopping =>
    have hturn := h.turn (by rw [hs]; rfl)
    cases left with
    | zero => exact hturn _ rfl (Nat.zero_le _) (by rw [hs]; rfl)
    | succ left =>
      cases hdone : p.queue.taskDone? with
      | none =>
        exact absurd (BoundedQueue.taskDone?_eq_none_iff.mp hdone) (hunfinished left stopping hs)
      | some queue =>
        exact { hturn (.taskDone left stopping) rfl (Nat.zero_le _) (by rw [hs]; rfl) with }
  | checkEmpty stopping =>
    have hturn := h.turn (by rw [hs]; rfl)
    dsimp only
    split
    · exact hturn _ rfl (Nat.zero_le _) (by rw [hs]; rfl)
    · cases stopping with
      | true => exact hturn _ rfl (Nat.zero_le _) (by rw [hs]; rfl)
      | false => exact hturn _ rfl (Nat.zero_le _) (by rw [hs]; rfl)
  | setIdle stopping =>
    have hturn := h.turn (by rw [hs]; rfl)
    cases stopping with
    | true => exact { hturn (.exited) rfl (Nat.zero_le _) (by rw [hs]; rfl) with }
    | false => exact { hturn (.get) rfl (Nat.zero_le _) (by rw [hs]; rfl) with }
  | exited => exact h

/-! ### Every run -/

/-- What holds throughout. -/
structure Inv (p : Barrier config) : Prop where
  kept : p.conveyor.Kept
  numbers : p.entered.map Queued.number = List.range p.entered.length
  sends : Sends p

/-- **The invariant holds after every run.** -/
theorem inv_after (config : PipelineConfig) (moves : List Move) : Inv (after config moves) := by
  induction moves using List.reverseRecOn with
  | nil =>
    refine ⟨⟨.refl _, .refl _⟩, rfl, ?_⟩
    refine ⟨nofun, Nat.zero_le _, Nat.zero_le _, absurd rfl, ?_, rfl⟩
    intro i _
    simp [after, batches, current, Sending.had]
  | append_singleton moves a ih =>
    obtain ⟨hkept, hnumbers, hsends⟩ := ih
    have hunfinished : ∀ left stopping,
        (after config moves).sender = .taskDone (left + 1) stopping →
        (after config moves).queue.unfinished ≠ 0 := fun _ _ hs => unfinished_ne_zero hs
    rw [after_concat]
    generalize after config moves = p at *
    have hmoves := p.conveyor_step a
    refine ⟨hkept.moves hmoves, ?_, ?_⟩
    · rcases hmoves.entered_eq with heq | ⟨queued, hnumber, heq⟩
      · simp only [conveyor] at heq
        rw [heq, hnumbers]
      · simp only [conveyor, numbered] at heq hnumber
        rw [heq, List.map_append, hnumbers, List.map_singleton, hnumber, List.length_append,
          List.length_singleton, List.range_succ]
    · by_cases hsend : ∃ raises, a = .send raises
      · obtain ⟨raises, rfl⟩ := hsend
        exact hsends.send hunfinished raises
      · obtain ⟨hsender, hoffers, hdelivered⟩ := p.step_frame fun raises heq => hsend ⟨raises, heq⟩
        obtain ⟨hsizes, hsize, hhad, hsome, hoffer, hstopping⟩ := hsends
        refine ⟨?_, ?_, ?_, ?_, ?_, ?_⟩
        · rwa [hdelivered]
        · rwa [hsender]
        · rwa [hsender]
        · rwa [hsender]
        · intro i hi
          simp only [batches, current, hsender, hoffers, hdelivered]
          exact hoffer i hi
        · rwa [hsender, hdelivered]

/-- The events offered to all publishers, in a row. -/
theorem flatten_batches (p : Barrier config) :
    p.batches.flatten = eventsOf p.delivered.flatten := by
  unfold batches eventsOf
  rw [List.flatten_filter_not_isEmpty, List.filterMap_flatten]

/-- The numbers of the events are some of the numbers. -/
theorem map_fst_eventsOf_sublist (taken : List Queued) :
    ((eventsOf taken).map Prod.fst).Sublist (taken.map Queued.number) := by
  induction taken with
  | nil => exact .slnil
  | cons queued taken ih =>
    rcases queued with ⟨number, _ | _⟩
    · exact ih.cons_cons number
    · exact ih.cons number

theorem Inv.nodup {p : Barrier config} (h : Inv p) : (eventsOf p.entered).Nodup := by
  have hsub := map_fst_eventsOf_sublist p.entered
  rw [h.numbers] at hsub
  exact (List.nodup_range.sublist hsub).of_map _

/-- What the `i`-th publisher has been offered. -/
theorem Inv.offers_eq {p : Barrier config} (h : Inv p) {i : ℕ} (hi : i < config.publishers) :
    p.offers i = p.batches ∨ p.offers i = p.batches ++ [eventsOf p.sender.batch] := by
  rw [h.sends.offers i hi, current]
  split
  · exact .inr rfl
  · exact .inl (List.append_nil _)

theorem Inv.offers_sublist {p : Barrier config} (h : Inv p) {i : ℕ} (hi : i < config.publishers) :
    (p.offers i).flatten.Sublist (eventsOf p.entered) := by
  have hline : (eventsOf p.delivered.flatten ++ eventsOf p.sender.batch).Sublist
      (eventsOf p.entered) := by
    have hsub := (List.sublist_append_left _ p.queue.entries).trans h.kept.line
    have hevents := hsub.filterMap Queued.event?
    rwa [List.filterMap_append] at hevents
  refine List.Sublist.trans ?_ hline
  rw [← flatten_batches]
  rcases h.offers_eq hi with heq | heq
  · rw [heq]
    exact List.sublist_append_left _ _
  · rw [heq, List.flatten_append, List.flatten_singleton]

/-- The size of what is offered. -/
theorem Inv.size_offers {p : Barrier config} (h : Inv p) {i : ℕ} (hi : i < config.publishers)
    {batch : List (ℕ × Event)} (hbatch : batch ∈ p.offers i) :
    1 ≤ batch.length ∧ batch.length ≤ config.batchSize := by
  have hle : ∀ taken : List Queued, (eventsOf taken).length ≤ taken.length :=
    fun taken => List.length_filterMap_le _ _
  rw [h.sends.offers i hi] at hbatch
  rcases List.mem_append.mp hbatch with hmem | hmem
  · obtain ⟨hmem, hsome⟩ := List.mem_filter.mp hmem
    obtain ⟨taken, htaken, rfl⟩ := List.mem_map.mp hmem
    refine ⟨?_, (hle taken).trans (h.sends.sizes taken htaken)⟩
    exact List.length_pos_of_ne_nil (by simpa using hsome)
  · unfold current at hmem
    split at hmem
    · next hlt =>
      obtain rfl := List.mem_singleton.mp hmem
      refine ⟨?_, (hle _).trans h.sends.size⟩
      exact List.length_pos_of_ne_nil (h.sends.some (List.ne_nil_of_length_pos (by omega)))
    · exact absurd hmem List.not_mem_nil

/-- Each event is in one place. -/
theorem Inv.perm {p : Barrier config} (h : Inv p) :
    (eventsOf p.queue.entries ++ eventsOf p.sender.batch ++ p.batches.flatten
      ++ eventsOf p.discarded).Perm (eventsOf p.entered) := by
  have hperm := h.kept.perm.filterMap Queued.event?
  simp only [Conveyor.line, conveyor, List.filterMap_append] at hperm
  refine List.Perm.trans ?_ hperm
  rw [flatten_batches]
  refine List.Perm.append_right _ ?_
  have hcomm : (eventsOf p.queue.entries ++ eventsOf p.sender.batch
      ++ eventsOf p.delivered.flatten).Perm (eventsOf p.delivered.flatten
      ++ (eventsOf p.queue.entries ++ eventsOf p.sender.batch)) := List.perm_append_comm
  refine hcomm.trans ?_
  rw [List.append_assoc]
  exact List.Perm.append_left _ List.perm_append_comm

/-- Entries are numbered in the order in which they entered. -/
theorem Inv.pairwise {p : Barrier config} (h : Inv p) :
    p.entered.Pairwise fun a b => a.number < b.number := by
  rw [← List.pairwise_map, h.numbers]
  exact List.pairwise_lt_range

/-- Whoever entered before a sentinel that the sender has had is gone too. -/
theorem Inv.exited {p : Barrier config} (h : Inv p) (hexited : p.sender = .exited) :
    ∃ sentinel ∈ p.delivered.flatten, sentinel.entry = .stop
      ∧ ∀ queued ∈ p.entered, queued.number < sentinel.number →
        queued ∈ p.delivered.flatten ∨ queued ∈ p.discarded := by
  have hstopping := h.sends.stopping
  rw [hexited] at hstopping
  obtain ⟨taken, htaken, hstop⟩ := List.any_eq_true.mp hstopping.symm
  unfold isStopping at hstop
  obtain ⟨sentinel, hsentinel, hentry⟩ := List.mem_map.mp (List.contains_iff_mem.mp hstop)
  have hhad : sentinel ∈ p.delivered.flatten := List.mem_flatten.mpr ⟨taken, htaken, hsentinel⟩
  refine ⟨sentinel, hhad, hentry, ?_⟩
  intro queued hqueued hlt
  rcases h.kept.mem_iff.mp hqueued with ((hmem | hmem) | hmem) | hmem
  · exact .inl hmem
  · simp only [conveyor, hexited, Sending.batch] at hmem
    exact absurd hmem List.not_mem_nil
  · have hbefore := h.kept.before h.pairwise (List.mem_append_left _ hhad) hmem
    omega
  · exact .inr hmem

/-- **Whatever the threads do, the publishers are offered the events in the order in which they
entered**, all publishers the same batches but for the one in progress; **every event that
entered is in exactly one place**; and when the sender has exited, what entered before the
sentinel was offered or discarded. -/
theorem conserved (config : PipelineConfig) (moves : List Move) :
    let p := after config moves
    (∀ i < config.publishers,
        (p.offers i = p.batches ∨ p.offers i = p.batches ++ [eventsOf p.sender.batch])
          ∧ (p.offers i).flatten.Sublist (eventsOf p.entered) ∧ (p.offers i).flatten.Nodup)
      ∧ (eventsOf p.entered).Nodup
      ∧ (eventsOf p.queue.entries ++ eventsOf p.sender.batch ++ p.batches.flatten
          ++ eventsOf p.discarded).Perm (eventsOf p.entered)
      ∧ p.queue.entries.length ≤ config.maxQueue
      ∧ (∀ i < config.publishers, ∀ batch ∈ p.offers i,
          1 ≤ batch.length ∧ batch.length ≤ config.batchSize)
      ∧ (p.sender = .exited → ∃ sentinel ∈ p.delivered.flatten, sentinel.entry = .stop
          ∧ ∀ number event, ⟨number, .event event⟩ ∈ p.entered → number < sentinel.number →
            (∀ i < config.publishers, (number, event) ∈ (p.offers i).flatten)
              ∨ (number, event) ∈ eventsOf p.discarded) := by
  intro p
  have h : Inv p := inv_after config moves
  refine ⟨?_, h.nodup, h.perm, p.queue.length_le, fun i hi batch => h.size_offers hi, ?_⟩
  · intro i hi
    have hsub := h.offers_sublist hi
    exact ⟨h.offers_eq hi, hsub, h.nodup.sublist hsub⟩
  · intro hexited
    obtain ⟨sentinel, hhad, hentry, hbefore⟩ := h.exited hexited
    refine ⟨sentinel, hhad, hentry, ?_⟩
    intro number event hentered hlt
    rcases hbefore _ hentered hlt with hmem | hmem
    · left
      intro i hi
      have hevent : (number, event) ∈ p.batches.flatten := by
        rw [flatten_batches]
        exact List.mem_filterMap.mpr ⟨_, hmem, rfl⟩
      rcases h.offers_eq hi with heq | heq
      · rwa [heq]
      · rw [heq, List.flatten_append]
        exact List.mem_append_left _ hevent
    · exact .inr (List.mem_filterMap.mpr ⟨_, hmem, rfl⟩)

end Barrier
end TaskflowMeter
