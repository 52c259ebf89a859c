import TaskflowMeter.FoldOrder
import TaskflowMeter.Lib.Runs

/-!
# Two collectors and one row

Several collectors may share one queue, and then write to one database.  Each transaction
reads a run's row, folds its events into it and writes the whole row back.  A statement
reads the latest committed rows, and a row that was written is locked until the commit.

## Main definitions

* `Phase` — how far a transaction is: which of its statements comes next.
* `TwoCollectors`, `TwoCollectors.step` — two transactions on one run, statement by
  statement.
* `TwoCollectors.Serial` — what folding both batches gives, one after the other.
* `TwoCollectors.Redundant` — a batch adds nothing to the other, field by field.
* `TwoCollectors.WritesWhatItRead` — a transaction writes the row over as it has read it, or
  else nothing of the other batch could be lost.

## Main results

* `run_alone` — **a collector that is left alone** does what `applyMany` does.
* `Inv.step` — what is known of the row and of the two transactions.
* `right_step_iff` — what a statement makes of the row, which once wrong stays so.
* `get?_atoms_of_serial` — in the row of one of the orders no update of an atom is lost.
* `serial_iff` — **the row is that of one of the two orders exactly when every transaction
  writes what it read**.
-/

namespace TaskflowMeter

open Runs

/-- One of two collectors. -/
inductive Collector where
  | first
  | second
  deriving DecidableEq, Repr

namespace Collector

def other : Collector → Collector
  | first => second
  | second => first

@[simp] theorem other_other (c : Collector) : c.other.other = c := by cases c <;> rfl

@[simp] theorem other_ne (c : Collector) : c.other ≠ c := by cases c <;> decide

/-- A statement about both. -/
theorem forall_iff {P : Collector → Prop} (c : Collector) : (∀ d, P d) ↔ P c ∧ P c.other := by
  constructor
  · intro h
    exact ⟨h c, h c.other⟩
  · rintro ⟨hc, hother⟩ d
    cases c <;> cases d <;> assumption

end Collector

/-- How far a transaction is. -/
inductive Phase where
  /-- It is to select the row. -/
  | begun
  /-- It has read the row, and is to write it back with its events folded in. -/
  | loaded (row : Option FlowSnapshot)
  /-- It has written a row, which is locked, and inserts its events, of which some were new. -/
  | saved (snapshot : FlowSnapshot) (inserted todo : List Event)
  | committed
  deriving DecidableEq

/-- Whether a transaction in this phase has written the row and not committed yet. -/
def Phase.locks : Phase → Bool
  | .saved .. => true
  | _ => false

/-- Two transactions that each fold a batch of one run's events into its row. -/
structure TwoCollectors where
  db : SQLADataSource
  runId : String
  batch : Collector → List Event
  ofRun : ∀ c, ∀ e ∈ batch c, e.runId = runId
  /-- There is no transaction for no events. -/
  ne_nil : ∀ c, batch c ≠ []
  phase : Collector → Phase := fun _ => .begun

namespace TwoCollectors

def setPhase (s : TwoCollectors) (c : Collector) (phase : Phase) : TwoCollectors :=
  { s with phase := Function.update s.phase c phase }

/-- One statement of one collector. -/
def step (s : TwoCollectors) (c : Collector) : TwoCollectors :=
  match s.phase c with
  | .begun => s.setPhase c (.loaded (s.db.loadFlow s.runId))
  | .loaded row =>
      -- the update waits for the lock
      if (s.phase c.other).locks then s
      else
        match applyEvents row (s.batch c) with
        -- only for no events
        | none => s
        | some snapshot => s.setPhase c (.saved snapshot [] (s.batch c))
  | .saved snapshot inserted (event :: todo) =>
      -- an event that is stored already is no error
      if (s.db.events.keys ++ inserted.map fun e => (e.runId, e.seq)).contains
          (event.runId, event.seq) then
        s.setPhase c (.saved snapshot inserted todo)
      else s.setPhase c (.saved snapshot (inserted ++ [event]) todo)
  | .saved snapshot inserted [] =>
      { s.setPhase c .committed with
        db := inserted.foldl SQLADataSource.insertEvent (s.db.saveFlow snapshot) }
  | .committed => s

/-- What folding both batches onto a row gives, one after the other in either order. -/
def Serial (s : TwoCollectors) (row stored : Option FlowSnapshot) : Prop :=
  stored = applyEvents row (s.batch .first ++ s.batch .second)
    ∨ stored = applyEvents row (s.batch .second ++ s.batch .first)

/-- Another batch adds nothing to a batch, in front of it or behind it: field by field both together
say last of the row what the batch says by itself. -/
def Redundant (row : FlowSnapshot) (batch other : List Event) : Prop :=
  FlowSaidAlike row (other ++ batch) batch ∨ FlowSaidAlike row (batch ++ other) batch

/-- Folding such a batch in, before or after, makes no difference. -/
theorem redundant_iff {row : FlowSnapshot} {batch other : List Event} :
    Redundant row batch other
      ↔ applyEvents (some row) (other ++ batch) = applyEvents (some row) batch
        ∨ applyEvents (some row) (batch ++ other) = applyEvents (some row) batch := by
  simp only [applyEvents_some, Option.some.injEq, foldl_fold_eq_foldl_iff, Redundant]

/-- If a collector is to write the row when the other has committed, the row is still as it
has read it; or else the other's batch is redundant beside its own. -/
def WritesWhatItRead (s : TwoCollectors) (row : FlowSnapshot) (c : Collector) : Prop :=
  ∀ read, s.phase c = .loaded read → s.phase c.other = .committed →
    s.db.getFlow s.runId = read ∨ Redundant row (s.batch c) (s.batch c.other)

instance (row : FlowSnapshot) (batch other : List Event) : Decidable (Redundant row batch other) :=
  decidable_of_iff _ redundant_iff.symm

instance (s : TwoCollectors) (row : FlowSnapshot) (c : Collector) :
    Decidable (s.WritesWhatItRead row c) :=
  match hphase : s.phase c with
  | .loaded read =>
    decidable_of_iff (s.phase c.other = .committed →
        s.db.getFlow s.runId = read ∨ Redundant row (s.batch c) (s.batch c.other))
      ⟨fun h _ heq => Phase.loaded.inj (hphase.symm.trans heq) ▸ h, fun h => h read hphase⟩
  | .begun => isTrue fun _ heq => by simp [hphase] at heq
  | .saved .. => isTrue fun _ heq => by simp [hphase] at heq
  | .committed => isTrue fun _ heq => by simp [hphase] at heq

section

variable (s : TwoCollectors) (c : Collector) (phase : Phase)

@[simp] theorem phase_setPhase_self : (s.setPhase c phase).phase c = phase := by
  simp [setPhase]

@[simp] theorem phase_setPhase_other : (s.setPhase c phase).phase c.other = s.phase c.other := by
  simp [setPhase]

@[simp] theorem db_setPhase : (s.setPhase c phase).db = s.db := rfl

@[simp] theorem runId_setPhase : (s.setPhase c phase).runId = s.runId := rfl

@[simp] theorem batch_setPhase : (s.setPhase c phase).batch = s.batch := rfl

/-- The row is written and the transaction is over. -/
def commit (snapshot : FlowSnapshot) (inserted : List Event) : TwoCollectors :=
  { s.setPhase c .committed with
    db := inserted.foldl SQLADataSource.insertEvent (s.db.saveFlow snapshot) }

end

variable {s : TwoCollectors} {c : Collector}

/-! ### One statement -/

/-- **What a statement does**: it reads the row, writes it back, inserts an event or
commits. -/
theorem step_cases (s : TwoCollectors) (c : Collector) :
    (s.phase c = .begun ∧ s.step c = s.setPhase c (.loaded (s.db.getFlow s.runId)))
      ∨ (∃ read snapshot, s.phase c = .loaded read ∧ (s.phase c.other).locks = false
          ∧ applyEvents read (s.batch c) = some snapshot
          ∧ s.step c = s.setPhase c (.saved snapshot [] (s.batch c)))
      ∨ (∃ snapshot inserted todo inserted' todo', s.phase c = .saved snapshot inserted todo
          ∧ s.step c = s.setPhase c (.saved snapshot inserted' todo'))
      ∨ (∃ snapshot inserted, s.phase c = .saved snapshot inserted []
          ∧ s.step c = s.commit c snapshot inserted)
      ∨ (s.step c = s ∧ ∀ read, s.phase c = .loaded read → (s.phase c.other).locks = true) := by
  cases hphase : s.phase c with
  | begun =>
    refine Or.inl ⟨rfl, ?_⟩
    rw [step, hphase]
    rfl
  | loaded read =>
    by_cases hlock : (s.phase c.other).locks = true
    · refine Or.inr (Or.inr (Or.inr (Or.inr ⟨?_, fun _ _ => hlock⟩)))
      rw [step, hphase]
      exact if_pos hlock
    · obtain ⟨snapshot, happly⟩ := applyEvents_ne_none read (s.ne_nil c)
      refine Or.inr (Or.inl ⟨read, snapshot, rfl, by simpa using hlock, happly, ?_⟩)
      rw [step, hphase]
      dsimp only
      rw [if_neg hlock, happly]
  | saved snapshot inserted todo =>
    cases todo with
    | nil =>
      refine Or.inr (Or.inr (Or.inr (Or.inl ⟨snapshot, inserted, rfl, ?_⟩)))
      rw [step, hphase]
      rfl
    | cons event todo =>
      refine Or.inr (Or.inr (Or.inl ?_))
      by_cases hkey : (s.db.events.keys ++ inserted.map fun e => (e.runId, e.seq)).contains
          (event.runId, event.seq) = true
      · refine ⟨snapshot, inserted, event :: todo, inserted, todo, rfl, ?_⟩
        rw [step, hphase]
        exact if_pos hkey
      · refine ⟨snapshot, inserted, event :: todo, inserted ++ [event], todo, rfl, ?_⟩
        rw [step, hphase]
        exact if_neg hkey
  | committed =>
    refine Or.inr (Or.inr (Or.inr (Or.inr ⟨?_, by simp⟩)))
    rw [step, hphase]

/-- A commit writes the row. -/
theorem getFlow_commit {snapshot : FlowSnapshot} (h : snapshot.runId = s.runId)
    (inserted : List Event) :
    (s.commit c snapshot inserted).db.getFlow s.runId = some snapshot := by
  show (inserted.foldl SQLADataSource.insertEvent (s.db.saveFlow snapshot)).getFlow s.runId = _
  rw [SQLADataSource.getFlow_foldl_insertEvent, SQLADataSource.getFlow_saveFlow, if_pos h.symm]

/-! ### One transaction by itself -/

/-- The rest of a transaction that has written the row. -/
theorem run_saved {snapshot : FlowSnapshot} {inserted todo : List Event}
    (hphase : s.phase c = .saved snapshot inserted todo) :
    (run step s (List.replicate (todo.length + 1) c)).phase c = .committed
      ∧ (run step s (List.replicate (todo.length + 1) c)).db
        = (inserted ++ todo).foldl SQLADataSource.insertEvent (s.db.saveFlow snapshot) := by
  induction todo generalizing s inserted with
  | nil =>
    have hrun : run step s (List.replicate 1 c) = s.commit c snapshot inserted := by
      show s.step c = _
      rw [step, hphase]
      rfl
    rw [List.length_nil, hrun, List.append_nil]
    exact ⟨phase_setPhase_self .., rfl⟩
  | cons event todo ih =>
    have hrun : run step s (List.replicate ((event :: todo).length + 1) c)
        = run step (s.step c) (List.replicate (todo.length + 1) c) := rfl
    by_cases hkey : (s.db.events.keys ++ inserted.map fun e => (e.runId, e.seq)).contains
        (event.runId, event.seq) = true
    · have hstep : s.step c = s.setPhase c (.saved snapshot inserted todo) := by
        rw [step, hphase]
        exact if_pos hkey
      obtain ⟨hdone, hdb⟩ := ih (phase_setPhase_self s c _)
      have hsame : (s.db.saveFlow snapshot).events = s.db.events := rfl
      have hmem : (event.runId, event.seq)
          ∈ (inserted.foldl SQLADataSource.insertEvent (s.db.saveFlow snapshot)).events.keys := by
        rw [SQLADataSource.mem_keys_foldl_insertEvent, hsame]
        simpa using hkey
      rw [hrun, hstep]
      refine ⟨hdone, hdb.trans ?_⟩
      rw [db_setPhase, List.foldl_append, List.foldl_append, List.foldl_cons,
        SQLADataSource.insertEvent_of_mem hmem]
    · have hstep : s.step c = s.setPhase c (.saved snapshot (inserted ++ [event]) todo) := by
        rw [step, hphase]
        exact if_neg hkey
      obtain ⟨hdone, hdb⟩ := ih (phase_setPhase_self s c _)
      rw [hrun, hstep]
      refine ⟨hdone, hdb.trans ?_⟩
      rw [db_setPhase, List.append_assoc, List.singleton_append]

/-- **A collector that is left alone** does what `applyMany` does. -/
theorem run_alone (hbegun : s.phase c = .begun) (hlock : (s.phase c.other).locks = false) :
    (run step s (List.replicate ((s.batch c).length + 3) c)).phase c = .committed
      ∧ (run step s (List.replicate ((s.batch c).length + 3) c)).db
        = s.db.applyMany (s.batch c) := by
  obtain ⟨snapshot, happly⟩ := applyEvents_ne_none (s.db.getFlow s.runId) (s.ne_nil c)
  have hload : s.step c = s.setPhase c (.loaded (s.db.getFlow s.runId)) := by
    rw [step, hbegun]
    rfl
  have hsave : (s.step c).step c
      = (s.step c).setPhase c (.saved snapshot [] (s.batch c)) := by
    rw [hload, step, phase_setPhase_self]
    dsimp only
    rw [phase_setPhase_other, if_neg (by simp [hlock]), batch_setPhase, happly]
  have hrun : run step s (List.replicate ((s.batch c).length + 3) c)
      = run step ((s.step c).step c) (List.replicate ((s.batch c).length + 1) c) := rfl
  have hphase : ((s.step c).step c).phase c = .saved snapshot [] (s.batch c) := by
    rw [hsave, phase_setPhase_self]
  have hdb : ((s.step c).step c).db = s.db := by
    rw [hsave, db_setPhase, hload, db_setPhase]
  obtain ⟨hdone, hstored⟩ := run_saved hphase
  rw [hrun]
  refine ⟨hdone, hstored.trans ?_⟩
  rw [SQLADataSource.applyMany_eq_applyRun _ (s.ne_nil c) (s.ofRun c), SQLADataSource.applyRun]
  rw [SQLADataSource.getFlow] at happly
  rw [happly, hdb, List.nil_append]

/-! ### What is known -/

/-- What is known of the row, and of two transactions that found `row`. -/
structure Inv (row : FlowSnapshot) (s : TwoCollectors) : Prop where
  /-- Only one has written the row at a time. -/
  exclusive : ∀ c, (s.phase c).locks = true → (s.phase c.other).locks = false
  present : ∃ f, s.db.getFlow s.runId = some f
  /-- Nothing is committed. -/
  start : (∀ c, s.phase c ≠ .committed) → s.db.getFlow s.runId = some row
  loaded : ∀ c read, s.phase c = .loaded read → (∃ f, read = some f ∧ f.runId = s.runId)
    ∧ (read = some row ∨ s.phase c.other = .committed ∧ s.db.getFlow s.runId = read)
  saved : ∀ c snapshot inserted todo, s.phase c = .saved snapshot inserted todo →
    snapshot.runId = s.runId
      ∧ (s.phase c.other ≠ .committed → applyEvents (some row) (s.batch c) = some snapshot)
  /-- One transaction is committed. -/
  half : ∀ c, s.phase c = .committed → s.phase c.other ≠ .committed →
    s.db.getFlow s.runId = applyEvents (some row) (s.batch c)

section

variable {row : FlowSnapshot}

/-- A transaction goes on without committing. -/
theorem Inv.setPhase (h : Inv row s) {phase : Phase} (hnow : s.phase c ≠ .committed)
    (hnext : phase ≠ .committed) (hlocks : phase.locks = true → (s.phase c.other).locks = false)
    (hloaded : ∀ read, phase = .loaded read → (∃ f, read = some f ∧ f.runId = s.runId)
      ∧ (read = some row ∨ s.phase c.other = .committed ∧ s.db.getFlow s.runId = read))
    (hsaved : ∀ snapshot inserted todo, phase = .saved snapshot inserted todo →
      snapshot.runId = s.runId
        ∧ (s.phase c.other ≠ .committed → applyEvents (some row) (s.batch c) = some snapshot)) :
    Inv row (s.setPhase c phase) where
  exclusive := by
    rw [Collector.forall_iff c]
    refine ⟨by simpa using hlocks, fun hother => ?_⟩
    simp only [phase_setPhase_other, Collector.other_other, phase_setPhase_self] at hother ⊢
    by_contra hself
    exact absurd (hlocks (by simpa using hself)) (by simp [hother])
  present := h.present
  start := by
    intro hnone
    refine h.start ((Collector.forall_iff c).mpr ⟨hnow, ?_⟩)
    simpa using hnone c.other
  loaded := by
    rw [Collector.forall_iff c]
    refine ⟨by simpa using hloaded, fun read hread => ?_⟩
    have hold := h.loaded c.other read (by simpa using hread)
    simpa [hnow, hnext] using hold
  saved := by
    rw [Collector.forall_iff c]
    refine ⟨by simpa using hsaved, fun snapshot inserted todo heq => ?_⟩
    have hold := h.saved c.other snapshot inserted todo (by simpa using heq)
    simpa [hnow, hnext] using hold
  half := by
    rw [Collector.forall_iff c]
    refine ⟨by simp [hnext], fun hother _ => ?_⟩
    exact h.half c.other (by simpa using hother) (by simpa using hnow)

/-- A transaction reads the row. -/
theorem Inv.load (h : Inv row s) (hphase : s.phase c = .begun) :
    Inv row (s.setPhase c (.loaded (s.db.getFlow s.runId))) := by
  refine h.setPhase (by simp [hphase]) (by simp) (by simp [Phase.locks]) ?_ (by simp)
  intro read heq
  obtain rfl := Phase.loaded.inj heq
  obtain ⟨f, hf⟩ := h.present
  refine ⟨⟨f, hf, SQLADataSource.runId_getFlow f hf⟩, ?_⟩
  by_cases hother : s.phase c.other = .committed
  · exact Or.inr ⟨hother, rfl⟩
  · exact Or.inl (h.start ((Collector.forall_iff c).mpr ⟨by simp [hphase], hother⟩))

/-- A transaction writes the row. -/
theorem Inv.save (h : Inv row s) {read : Option FlowSnapshot} {snapshot : FlowSnapshot}
    (hphase : s.phase c = .loaded read) (hlock : (s.phase c.other).locks = false)
    (happly : applyEvents read (s.batch c) = some snapshot) :
    Inv row (s.setPhase c (.saved snapshot [] (s.batch c))) := by
  refine h.setPhase (by simp [hphase]) (by simp) (fun _ => hlock) (by simp) ?_
  intro snapshot' inserted todo heq
  obtain ⟨rfl, -, -⟩ := Phase.saved.inj heq
  obtain ⟨⟨f, rfl, hf⟩, hother⟩ := h.loaded c read hphase
  refine ⟨?_, fun hne => ?_⟩
  · rw [applyEvents_some, Option.some.injEq] at happly
    rw [← happly, runId_foldl, hf]
  · rcases hother with heq | ⟨hcommitted, -⟩
    · rw [← heq, happly]
    · exact absurd hcommitted hne

/-- A transaction inserts an event, or finds it there. -/
theorem Inv.insert (h : Inv row s) {snapshot : FlowSnapshot} {inserted todo : List Event}
    (hphase : s.phase c = .saved snapshot inserted todo) (inserted' todo' : List Event) :
    Inv row (s.setPhase c (.saved snapshot inserted' todo')) := by
  have hold := h.saved c snapshot inserted todo hphase
  refine h.setPhase (by simp [hphase]) (by simp) (fun _ => ?_) (by simp) ?_
  · exact h.exclusive c (by rw [hphase]; rfl)
  · intro snapshot' _ _ heq
    obtain ⟨rfl, -, -⟩ := Phase.saved.inj heq
    exact hold

/-- A transaction commits.  The other one is not writing. -/
theorem Inv.commit (h : Inv row s) {snapshot : FlowSnapshot} {inserted : List Event}
    (hphase : s.phase c = .saved snapshot inserted []) :
    Inv row (s.commit c snapshot inserted) := by
  obtain ⟨hrun, halone⟩ := h.saved c snapshot inserted [] hphase
  have hself : (s.commit c snapshot inserted).phase c = .committed := phase_setPhase_self ..
  have hother : (s.commit c snapshot inserted).phase c.other = s.phase c.other :=
    phase_setPhase_other ..
  have hget := getFlow_commit (c := c) hrun inserted
  have hlock : (s.phase c.other).locks = false := h.exclusive c (by rw [hphase]; rfl)
  refine ⟨?_, ⟨snapshot, hget⟩, fun hnone => absurd hself (hnone c), ?_, ?_, ?_⟩
  · rw [Collector.forall_iff c, hself, hother, hlock]
    simp [Phase.locks]
  · rw [Collector.forall_iff c, hself, hother]
    refine ⟨by simp, fun read hread => ?_⟩
    obtain ⟨hsome, hread'⟩ := h.loaded c.other read hread
    rw [Collector.other_other, hphase] at hread'
    exact ⟨hsome, Or.inl (by simpa using hread')⟩
  · rw [Collector.forall_iff c, hself, hother]
    refine ⟨by simp, fun snapshot' inserted' todo hsaved => ?_⟩
    rw [hsaved] at hlock
    simp [Phase.locks] at hlock
  · rw [Collector.forall_iff c, Collector.other_other, hself, hother]
    refine ⟨fun _ hne => hget.trans (halone hne).symm, fun _ hne => absurd rfl hne⟩

/-- **One statement** keeps what is known. -/
theorem Inv.step (h : Inv row s) (c : Collector) : Inv row (s.step c) := by
  rcases step_cases s c with ⟨hphase, hstep⟩ | ⟨read, snapshot, hphase, hlock, happly, hstep⟩
    | ⟨snapshot, inserted, todo, inserted', todo', hphase, hstep⟩ |
      ⟨snapshot, inserted, hphase, hstep⟩
    | ⟨hstep, -⟩
  · rw [hstep]
    exact h.load hphase
  · rw [hstep]
    exact h.save hphase hlock happly
  · rw [hstep]
    exact h.insert hphase inserted' todo'
  · rw [hstep]
    exact h.commit hphase
  · rwa [hstep]

/-! ### The row at the end -/

/-- Only an update can go wrong. -/
theorem writesWhatItRead_of_ne {stored : FlowSnapshot}
    (h : ∀ read, s.phase c ≠ .loaded read) : s.WritesWhatItRead stored c :=
  fun read hread => absurd hread (h read)

theorem serial_iff_of (row stored : Option FlowSnapshot) (c : Collector) :
    s.Serial row stored ↔ stored = applyEvents row (s.batch c.other ++ s.batch c)
      ∨ stored = applyEvents row (s.batch c ++ s.batch c.other) := by
  cases c with
  | first => exact or_comm
  | second => exact Iff.rfl

/-- A row that one of the two orders gives has lost no update of an atom: each atom is what
all its events make of it. -/
theorem get?_atoms_of_serial {stored : FlowSnapshot} (h : s.Serial (some row) (some stored)) :
    ∃ c, ∀ name, stored.atoms.get? name
      = ((s.batch c ++ s.batch c.other).filter (ofAtom name)).foldl (foldAtom? name)
          (row.atoms.get? name) := by
  rcases h with h | h
  · rw [applyEvents_some] at h
    refine ⟨.first, fun name => ?_⟩
    rw [Option.some.inj h]
    exact get?_atoms_foldl _ _ name
  · rw [applyEvents_some] at h
    refine ⟨.second, fun name => ?_⟩
    rw [Option.some.inj h]
    exact get?_atoms_foldl _ _ name

/-- The row is, or is about to be, that of one of the two orders. -/
structure Right (row : FlowSnapshot) (s : TwoCollectors) : Prop where
  saving : ∀ c snapshot inserted todo, s.phase c = .saved snapshot inserted todo →
    s.phase c.other = .committed → s.Serial (some row) (some snapshot)
  done : (∀ c, s.phase c = .committed) → s.Serial (some row) (s.db.getFlow s.runId)

/-- Nothing went wrong while a transaction has not written the row. -/
theorem right_of_begun (h : s.phase c = .begun ∨ ∃ read, s.phase c = .loaded read) :
    Right row s where
  saving := by
    rw [Collector.forall_iff c, Collector.other_other]
    rcases h with h | ⟨read, h⟩ <;> simp [h]
  done := by
    intro hall
    rcases h with h | ⟨read, h⟩ <;> simp [hall c] at h

theorem right_iff_of_saved {snapshot : FlowSnapshot} {inserted todo : List Event}
    (h : s.phase c = .saved snapshot inserted todo) :
    Right row s ↔ (s.phase c.other = .committed → s.Serial (some row) (some snapshot)) := by
  constructor
  · intro hright
    exact hright.saving c snapshot inserted todo h
  · intro hserial
    refine ⟨?_, fun hall => by simp [hall c] at h⟩
    rw [Collector.forall_iff c, Collector.other_other]
    refine ⟨?_, by simp [h]⟩
    intro snapshot' _ _ heq
    obtain ⟨rfl, -, -⟩ := Phase.saved.inj (h.symm.trans heq)
    exact hserial

theorem right_iff_of_committed (h : s.phase c = .committed)
    (hlock : (s.phase c.other).locks = false) :
    Right row s
      ↔ (s.phase c.other = .committed → s.Serial (some row) (s.db.getFlow s.runId)) := by
  constructor
  · intro hright hother
    exact hright.done ((Collector.forall_iff c).mpr ⟨h, hother⟩)
  · intro hserial
    refine ⟨?_, fun hall => hserial (hall c.other)⟩
    rw [Collector.forall_iff c]
    refine ⟨by simp [h], fun snapshot _ _ heq => ?_⟩
    rw [heq] at hlock
    simp [Phase.locks] at hlock

/-- **The update** writes what one of the orders gives exactly if it writes what it read. -/
theorem serial_update_iff (h : Inv row s) {read : Option FlowSnapshot} {snapshot : FlowSnapshot}
    (hphase : s.phase c = .loaded read) (happly : applyEvents read (s.batch c) = some snapshot) :
    (s.phase c.other = .committed → s.Serial (some row) (some snapshot))
      ↔ s.WritesWhatItRead row c := by
  have hok : s.WritesWhatItRead row c ↔ (s.phase c.other = .committed →
      s.db.getFlow s.runId = read ∨ Redundant row (s.batch c) (s.batch c.other)) := by
    constructor
    · intro hwrites
      exact hwrites read hphase
    · intro hwrites read' heq
      obtain rfl := Phase.loaded.inj (hphase.symm.trans heq)
      exact hwrites
  rw [hok]
  refine imp_congr_right fun hother => ?_
  have hhalf : s.db.getFlow s.runId = applyEvents (some row) (s.batch c.other) :=
    h.half c.other hother (by simp [hphase])
  rw [serial_iff_of _ _ c, ← happly]
  by_cases hread : s.db.getFlow s.runId = read
  · -- it folds its batch into what the other has left
    have hfold : applyEvents read (s.batch c)
        = applyEvents (some row) (s.batch c.other ++ s.batch c) := by
      rw [← hread, hhalf, applyEvents, applyEvents, applyEvents, List.foldl_append]
    exact ⟨fun _ => Or.inl hread, fun _ => Or.inl hfold⟩
  · have hstale : read = some row := by
      rcases (h.loaded c read hphase).2 with heq | ⟨-, heq⟩
      · exact heq
      · exact absurd heq hread
    rw [hstale, redundant_iff, eq_comm, eq_comm (a := applyEvents (some row) (s.batch c))]
    simp [← hstale, hread]

/-- **What a statement makes of the row**: it stays right exactly if the statement writes what
was read, and never becomes right again. -/
theorem right_step_iff (h : Inv row s) (c : Collector) :
    Right row (s.step c) ↔ Right row s ∧ s.WritesWhatItRead row c := by
  rcases step_cases s c with ⟨hphase, hstep⟩ | ⟨read, snapshot, hphase, hlock, happly, hstep⟩
    | ⟨snapshot, inserted, todo, inserted', todo', hphase, hstep⟩ |
      ⟨snapshot, inserted, hphase, hstep⟩
    | ⟨hstep, hwaits⟩
  · have hnext : (s.step c).phase c = .loaded (s.db.getFlow s.runId) := by
      rw [hstep, phase_setPhase_self]
    have hok : s.WritesWhatItRead row c := writesWhatItRead_of_ne (by simp [hphase])
    exact iff_of_true (right_of_begun (Or.inr ⟨_, hnext⟩)) ⟨right_of_begun (Or.inl hphase), hok⟩
  · rw [hstep, right_iff_of_saved (phase_setPhase_self ..), phase_setPhase_other,
      and_iff_right (right_of_begun (Or.inr ⟨read, hphase⟩))]
    exact serial_update_iff h hphase happly
  · have hok : s.WritesWhatItRead row c := by
      intro read hread
      simp [hphase] at hread
    rw [hstep, right_iff_of_saved (phase_setPhase_self ..), phase_setPhase_other,
      right_iff_of_saved hphase, and_iff_left hok]
    rfl
  · have hok : s.WritesWhatItRead row c := by
      intro read hread
      simp [hphase] at hread
    obtain ⟨hrun, -⟩ := h.saved c snapshot inserted [] hphase
    have hlock : (s.phase c.other).locks = false := h.exclusive c (by rw [hphase]; rfl)
    have hself : (s.commit c snapshot inserted).phase c = .committed := phase_setPhase_self ..
    have hother : (s.commit c snapshot inserted).phase c.other = s.phase c.other :=
      phase_setPhase_other ..
    rw [hstep, right_iff_of_committed hself (by rw [hother, hlock]), hother,
      right_iff_of_saved hphase, and_iff_left hok]
    exact imp_congr_right fun _ => by rw [← getFlow_commit (c := c) hrun inserted]; rfl
  · have hok : s.WritesWhatItRead row c := by
      intro read hread hother
      have hlock := hwaits read hread
      simp [hother, Phase.locks] at hlock
    rw [hstep, and_iff_left hok]

/-! ### Runs -/

/-- The statements are about one run, and the batches are given. -/
theorem same_step (s : TwoCollectors) (c : Collector) :
    (s.step c).batch = s.batch ∧ (s.step c).runId = s.runId := by
  rcases step_cases s c with ⟨-, hstep⟩ | ⟨_, _, -, -, -, hstep⟩ | ⟨_, _, _, _, _, -, hstep⟩
    | ⟨_, _, -, hstep⟩ | ⟨hstep, -⟩ <;> rw [hstep] <;> exact ⟨rfl, rfl⟩

theorem inv_begun (hrow : s.db.getFlow s.runId = some row) (hbegun : ∀ c, s.phase c = .begun) :
    Inv row s where
  exclusive c := by simp [hbegun, Phase.locks]
  present := ⟨row, hrow⟩
  start _ := hrow
  loaded c := by simp [hbegun]
  saved c := by simp [hbegun]
  half c := by simp [hbegun]

theorem same_run (s : TwoCollectors) (moves : List Collector) :
    (run step s moves).batch = s.batch ∧ (run step s moves).runId = s.runId := by
  induction moves using List.reverseRecOn with
  | nil => exact ⟨rfl, rfl⟩
  | append_singleton moves c ih =>
    obtain ⟨hbatch, hrun⟩ := same_step (run step s moves) c
    rw [run_concat]
    exact ⟨hbatch.trans ih.1, hrun.trans ih.2⟩

theorem inv_of_run (h : Inv row s) (moves : List Collector) : Inv row (run step s moves) := by
  induction moves using List.reverseRecOn with
  | nil => exact h
  | append_singleton moves c ih =>
    rw [run_concat]
    exact ih.step c

end

/-- A running flow, and two tasks of it that finish: each is reported to another collector. -/
def twoTasks : TwoCollectors where
  db := .filled [[flowEvent 1 States.RUNNING]]
  runId := "run-1"
  batch
    | .first => [taskEvent "a" 2 States.SUCCESS]
    | .second => [taskEvent "b" 3 States.SUCCESS]
  ofRun c := by cases c <;> simp [taskEvent]
  ne_nil c := by cases c <;> simp

end TwoCollectors

end TaskflowMeter
