import TaskflowMeter.Client
import TaskflowMeter.Lib.Runs

/-!
# Events that arrive while a client reads

Concurrent producers do not deliver in sequence order.  The events `1, …, n` of a run
arrive in any order at a store that evicts nothing, one after the other or in batches,
and between any two arrivals a client may ask for its next page.

## Main definitions

* `Reading.Move`, `Reading.State` — what may happen, and the state it happens to.
* `InOrder` — the client has the events `1, …, k`, and was told of no hole.
* `PrefixVisible` — nothing has arrived, or event 1 has.

## Main results

* `inOrder_iff` — **the client is always in order exactly when it never looks at a
  history that has begun without event 1.**
-/

namespace TaskflowMeter

open Consecutive Runs

namespace Reading

/-- Events arrive at the store, or the client asks for its next page. -/
inductive Move where
  | arrive (batch : List Event)
  | call (limit : ℤ)

/-- A store, and a client that pages through one of its runs. -/
structure State where
  store : WritableDataSource
  client : Client := {}

/-- One arrival, or one call. -/
def step (runId : String) (r : State) : Move → State
  | .arrive batch => { r with store := r.store.applyMany batch }
  | .call limit => { r with client := r.client.call (r.store.eventsSince runId) limit }

/-- The events that a move brings. -/
def Move.batch : Move → List Event
  | .arrive batch => batch
  | .call _ => []

/-- The events that have arrived. -/
def arrivals (moves : List Move) : List Event := moves.flatMap Move.batch

/-- The client has the events `1, …, k` for some `k`, and no page has told it of a hole. -/
structure InOrder (client : Client) : Prop where
  isRun : IsRun 1 (client.received.map Event.seq)
  unwarned : client.Unwarned

/-- Nothing has arrived, or event 1 has. -/
def PrefixVisible (arrived : List Event) : Prop := arrived = [] ∨ HasSeq arrived 1

/-- A call is made only when nothing has arrived, or event 1 has. -/
def Timely (done : List Move) : Move → Prop
  | .arrive _ => True
  | .call _ => PrefixVisible (arrivals done)

theorem arrivals_concat (moves : List Move) (m : Move) :
    arrivals (moves ++ [m]) = arrivals moves ++ m.batch := by
  simp [arrivals]

/-! ### One call -/

/-- The oldest of the numbers `1, …, n` that have arrived is 1 exactly when 1 has. -/
theorem oldestOf_eq_one {arrived : List Event} (hpos : ∀ e ∈ arrived, 1 ≤ e.seq)
    (h : HasSeq arrived 1) : oldestOf (sortedBySeq arrived) = some 1 := by
  obtain ⟨e, he, hone⟩ := h
  obtain ⟨o, ho, x, hx, rfl⟩ := exists_oldestOf he
  have hle := oldestOf_sorted_le ho he
  have hge := hpos x hx
  rw [ho]
  congr 1
  omega

/-- **A timely call** continues right after what the client has. -/
theorem inOrder_take {client : Client} {arrived : List Event} {limit : ℤ} (h : InOrder client)
    (hsince : client.sinceSeq = client.received.length) (hpos : ∀ e ∈ arrived, 1 ≤ e.seq)
    (hvisible : PrefixVisible arrived) (hlimit : 1 ≤ limit) :
    InOrder (client.take (eventPage (sortedBySeq arrived) client.sinceSeq limit))
      ∧ (eventPage (sortedBySeq arrived) client.sinceSeq limit).nextSeq
        = (client.received ++ (eventPage (sortedBySeq arrived) client.sinceSeq limit).events).length
    := by
  have hsorted := seqSorted_sortedBySeq arrived
  -- no number below the next one is missing at the front
  have hstart : startOf (sortedBySeq arrived) client.sinceSeq = client.sinceSeq + 1 := by
    rw [startOf]
    rcases hvisible with rfl | hone
    · exact max_eq_left le_rfl
    · rw [oldestOf_eq_one hpos hone, Option.getD_some]
      exact max_eq_left (by omega)
  have hnot : (eventPage (sortedBySeq arrived) client.sinceSeq limit).truncated = false := by
    rw [Bool.eq_false_iff]
    intro htrunc
    obtain ⟨o, ho, hlt⟩ := truncated_eventPage_iff.mp htrunc
    have hge : o ≤ startOf (sortedBySeq arrived) client.sinceSeq := by
      rw [startOf, ho]
      exact le_max_right _ _
    omega
  have hpage := eventPage_events hsorted client.sinceSeq hlimit
  have hnext := nextSeq_eventPage hsorted client.sinceSeq hlimit
  rw [hstart] at hpage hnext
  refine ⟨⟨?_, ?_⟩, ?_⟩
  · rw [Client.received_take, List.map_append, isRun_append, List.length_map]
    refine ⟨h.isRun, ?_⟩
    rw [add_comm, ← hsince]
    exact hpage.isRun
  · intro p hp
    rw [Client.pages_take] at hp
    rcases List.mem_append.mp hp with hp | hp
    · exact h.unwarned p hp
    · rw [List.mem_singleton.mp hp]
      exact hnot
  · rw [hnext, List.length_append]
    push_cast
    split
    · next hnil => rw [hnil, hsince]; simp
    · omega

/-! ### One move -/

/-- What holds after `arrived` has arrived, as long as every call has been timely. -/
structure InStep (s : WritableDataSource) (runId : String) (n : ℕ) (arrived : List Event)
    (r : State) : Prop where
  held : r.store.held runId = arrived
  roomy : ∀ es, s.Roomy n (arrived ++ es) → r.store.Roomy n es
  inOrder : InOrder r.client
  sinceSeq : r.client.sinceSeq = r.client.received.length
  received : ∀ e ∈ r.client.received, e ∈ arrived

/-- Events that may arrive: numbered from 1, without repetition, and no more than fit. -/
structure Arrivable (runId : String) (n : ℕ) (arrived : List Event) : Prop where
  ofRun : ∀ e ∈ arrived, e.runId = runId
  pos : ∀ e ∈ arrived, 1 ≤ e.seq
  nodup : (arrived.map Event.seq).Nodup
  length_le : arrived.length ≤ n

theorem arrivable_of_numbered {runId : String} {n : ℕ} {arrived later : List Event}
    (h : Numbered runId n (arrived ++ later)) : Arrivable runId n arrived where
  ofRun := fun e he => h.ofRun e (List.mem_append_left later he)
  pos := fun e he => ((h.hasSeq_iff e.seq).mp ⟨e, List.mem_append_left later he, rfl⟩).1
  nodup := by
    have hnodup := h.nodup
    rw [List.map_append] at hnodup
    exact hnodup.of_append_left
  length_le := by
    have hlen := h.perm.length_eq
    rw [List.length_map, List.length_map, List.length_range, List.length_append] at hlen
    omega

theorem InStep.arrive {s : WritableDataSource} {runId : String} {n : ℕ} {arrived batch : List Event}
    {r : State} (h : InStep s runId n arrived r) (harr : Arrivable runId n (arrived ++ batch))
    (hroomy : s.Roomy n (arrived ++ batch)) :
    InStep s runId n (arrived ++ batch) (step runId r (.arrive batch)) where
  held := by
    have hfilter : batch.filter (·.runId = runId) = batch := by
      rw [List.filter_eq_self]
      intro e he
      exact decide_eq_true (harr.ofRun e (List.mem_append_right arrived he))
    have hfresh := WritableDataSource.held_applyMany_of_fresh (r := runId) (h.roomy batch hroomy)
    rw [hfilter, h.held] at hfresh
    exact hfresh harr.nodup harr.length_le
  roomy := by
    intro es hes
    rw [List.append_assoc] at hes
    exact (h.roomy (batch ++ es) hes).applyMany
  inOrder := h.inOrder
  sinceSeq := h.sinceSeq
  received := fun e he => List.mem_append_left batch (h.received e he)

theorem step_call {runId : String} {limit : ℤ} (hlimit : 1 ≤ limit) (r : State) :
    step runId r (.call limit)
      = { r with client :=
            r.client.take (eventPage (sortedBySeq
              (r.store.held runId)) r.client.sinceSeq limit) } := by
  rw [step, Client.call_eq hlimit]

theorem InStep.call {s : WritableDataSource} {runId : String} {n : ℕ} {arrived : List Event}
    {r : State} {limit : ℤ} (h : InStep s runId n arrived r) (hpos : ∀ e ∈ arrived, 1 ≤ e.seq)
    (hvisible : PrefixVisible arrived) (hlimit : 1 ≤ limit) :
    InStep s runId n arrived (step runId r (.call limit)) := by
  obtain ⟨hin, hnext⟩ := inOrder_take h.inOrder h.sinceSeq hpos hvisible hlimit
  have hpage := eventPage_events (seqSorted_sortedBySeq arrived) r.client.sinceSeq hlimit
  rw [step_call hlimit, h.held]
  refine ⟨h.held, h.roomy, hin, ?_, ?_⟩
  · rw [Client.sinceSeq_take, Client.received_take, hnext]
  · intro e he
    rw [Client.received_take] at he
    rcases List.mem_append.mp he with he | he
    · exact h.received e he
    · exact mem_sortedBySeq.mp (hpage.mem he)

/-- **An untimely call**: the client is told of a hole where nothing has been evicted. -/
theorem InStep.not_inOrder_call {s : WritableDataSource} {runId : String} {n : ℕ}
    {arrived : List Event} {r : State} {limit : ℤ} (h : InStep s runId n arrived r)
    (hpos : ∀ e ∈ arrived, 1 ≤ e.seq) (hnot : ¬PrefixVisible arrived) (hlimit : 1 ≤ limit) :
    ¬InOrder (step runId r (.call limit)).client := by
  rw [PrefixVisible, not_or] at hnot
  obtain ⟨hne, hone⟩ := hnot
  -- the client cannot have received anything yet
  have hnil : r.client.received = [] := by
    by_contra hsome
    obtain ⟨e, l, heq⟩ := List.exists_cons_of_ne_nil hsome
    have hrun := h.inOrder.isRun
    rw [heq] at hrun
    exact hone ⟨e, h.received e (heq ▸ List.mem_cons_self), hrun.1⟩
  have hsince : r.client.sinceSeq = 0 := by
    rw [h.sinceSeq, hnil]
    rfl
  obtain ⟨e, l, heq⟩ := List.exists_cons_of_ne_nil hne
  obtain ⟨o, ho, x, hx, hxo⟩ := exists_oldestOf (heq ▸ List.mem_cons_self : e ∈ arrived)
  have hxpos := hpos x hx
  have hxone : x.seq ≠ 1 := fun h1 => hone ⟨x, hx, h1⟩
  intro hin
  rw [step_call hlimit, h.held, hsince] at hin
  have hfalse := hin.unwarned _ (List.mem_append_right _ (List.mem_singleton_self _))
  have htrue : (eventPage (sortedBySeq arrived) 0 limit).truncated = true :=
    truncated_eventPage_iff.mpr ⟨o, ho, by omega⟩
  rw [htrue] at hfalse
  exact absurd hfalse (by decide)

/-! ### A whole schedule -/

/-- **The client is in order at every moment exactly when every call is timely**: made
before anything has arrived, or after event 1 has. -/
theorem inOrder_iff {s : WritableDataSource} {runId : String} {n : ℕ} {moves : List Move}
    (hnew : s.held runId = []) (hroomy : s.Roomy n (arrivals moves))
    (h : Numbered runId n (arrivals moves))
    (hlimits : ∀ limit, Move.call limit ∈ moves → 1 ≤ limit) :
    Always (fun done => InOrder (run (step runId) { store := s } done).client) moves
      ↔ EveryMove Timely moves := by
  -- what has arrived before and with a move
  have hsplit : ∀ {done : List Move} {m : Move} {todo : List Move}, moves = done ++ m :: todo →
      arrivals moves = (arrivals done ++ m.batch) ++ arrivals todo := by
    intro done m todo heq
    rw [heq]
    simp [arrivals]
  have harr : ∀ {done : List Move} {m : Move} {todo : List Move}, moves = done ++ m :: todo →
      Arrivable runId n (arrivals done ++ m.batch) := by
    intro done m todo heq
    rw [hsplit heq] at h
    exact arrivable_of_numbered h
  have hpos : ∀ {done : List Move} {m : Move} {todo : List Move}, moves = done ++ m :: todo →
      ∀ e ∈ arrivals done, 1 ≤ e.seq := fun heq e he =>
    (harr heq).pos e (List.mem_append_left _ he)
  have hcall : ∀ {done : List Move} {limit : ℤ} {todo : List Move},
      moves = done ++ Move.call limit :: todo → 1 ≤ limit := by
    intro done limit todo heq
    apply hlimits
    rw [heq]
    exact List.mem_append_right _ List.mem_cons_self
  refine always_iff_everyMove
    (I := fun done => InStep s runId n (arrivals done) (run (step runId) { store := s } done))
    ?_ ?_ ?_ ?_
  · exact ⟨hnew, fun es hes => hes, ⟨trivial, by simp [Client.Unwarned]⟩, rfl,
      by simp [Client.received]⟩
  · intro done m todo heq hinv hok
    rw [run_concat, arrivals_concat]
    cases m with
    | arrive batch =>
      refine hinv.arrive (harr heq) ?_
      rw [hsplit heq] at hroomy
      exact hroomy.of_append_left
    | call limit =>
      have hstep := hinv.call (hpos heq) hok (hcall heq)
      rwa [← List.append_nil (arrivals done)] at hstep
  · intro done todo _ hinv
    exact hinv.inOrder
  · intro done m todo heq hinv hnot
    rw [run_concat]
    cases m with
    | arrive batch => exact absurd trivial hnot
    | call limit => exact hinv.not_inOrder_call (hpos heq) hnot (hcall heq)

/-! ### A late first event -/

/-- Event 2 overtakes event 1, and the client looks in between. -/
def firstIsLate : List Move := [.arrive [heartbeat 2], .call 500, .arrive [heartbeat 1]]

/-- The client is told that event 1 is gone, and moves on to event 2, whichever the store. -/
theorem late_first_event_announced_gone :
    Numbered "run-1" 2 (arrivals firstIsLate)
      ∧ ¬Always (fun done =>
          InOrder (run (step "run-1") { store := .memory {} } done).client) firstIsLate
      ∧ ¬Always (fun done =>
          InOrder (run (step "run-1") { store := .sqlalchemy {} } done).client) firstIsLate := by
  refine ⟨⟨by decide, by decide⟩, ?_, ?_⟩
  · intro h
    have hin := h [.arrive [heartbeat 2], .call 500] [.arrive [heartbeat 1]] rfl
    have hunwarned := hin.unwarned
    unfold Client.Unwarned at hunwarned
    revert hunwarned
    decide
  · intro h
    have hin := h [.arrive [heartbeat 2], .call 500] [.arrive [heartbeat 1]] rfl
    have hunwarned := hin.unwarned
    unfold Client.Unwarned at hunwarned
    revert hunwarned
    decide

/-- Event 3 overtakes event 2, but event 1 is there first. -/
def secondIsLate : List Move :=
  [.call 1, .arrive [heartbeat 1, heartbeat 3], .call 1, .call 500, .arrive [heartbeat 2],
    .call 500]

/-- There the client is in order throughout. -/
theorem inOrder_second_late :
    Always (fun done => InOrder (run (step "run-1") { store := .sqlalchemy {} } done).client)
      secondIsLate := by
  have hnumbered : Numbered "run-1" 3 (arrivals secondIsLate) := ⟨by decide, by decide⟩
  have hlimits : ∀ limit, Move.call limit ∈ secondIsLate → 1 ≤ limit := by
    intro limit hmem
    simp only [secondIsLate, List.mem_cons, Move.call.injEq, reduceCtorEq, false_or,
      List.not_mem_nil, or_false] at hmem
    omega
  have hroomy : (WritableDataSource.sqlalchemy {}).Roomy 3 (arrivals secondIsLate) := trivial
  have htimely : EveryMove Timely secondIsLate := by
    simp [secondIsLate, everyMove_cons, Timely, PrefixVisible, arrivals, Move.batch, HasSeq,
      heartbeat]
  exact (inOrder_iff rfl hroomy hnumbered hlimits).mpr htimely

end Reading

end TaskflowMeter
