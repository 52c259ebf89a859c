import TaskflowMeter.Datasource.Retention
import TaskflowMeter.Redelivery
import TaskflowMeter.Lib.Runs

/-!
# Pruning beside a collector

A retention job prunes the database that a collector writes to.  Both work in transactions, one
statement after the other: a statement reads the latest committed rows, and a row that was written
or deleted is locked until the commit.

## Main definitions

* `Transaction`, `Pruning` — how far a batch is, and how far `prune` is.
* `PruningRace`, `PruningRace.step` — the two, statement by statement.
* `RightlyPruned` — what `prune` should delete.
* `Undisturbed` — no event of the runs was committed that is not old.

## Main results

* `Transaction.Inv` — **a transaction makes of the database what `applyMany` makes of it.**
* `prune_alone` — a pruning that is left alone does what `prune` does.
* `rightlyPruned_iff` — **an active run is deleted exactly where one of its new events was committed
  between the selection of the runs and their deletion.**
-/

namespace TaskflowMeter

open Runs

/-- The next statement of a transaction, for the run that it is at. -/
inductive Statement where
  | select
  | update (row : Option FlowSnapshot)
  /-- The update has found no row. -/
  | insertRow (snapshot : FlowSnapshot)
  | insertEvents (todo : List Event)

/-- A transaction that applies a batch. -/
structure Transaction where
  batch : List Event
  /-- The runs to go, with their events; it is at the first. -/
  runs : List (String × List Event)
  next : Statement := .select
  /-- The rows that it has written and the events that it has inserted. -/
  rows : List FlowSnapshot := []
  inserted : List Event := []

namespace Transaction

/-- The transaction for a batch. -/
def begin (batch : List Event) : Transaction :=
  { batch := batch, runs := (Dict.groupBy Event.runId batch).entries }

/-- The database as the transaction would leave it now. -/
def view (t : Transaction) (db : SQLADataSource) : SQLADataSource :=
  t.inserted.foldl SQLADataSource.insertEvent (t.rows.foldl SQLADataSource.saveFlow db)

end Transaction

/-- How far `prune` is, with the events and rows that it has deleted. -/
inductive Pruning where
  /-- It is to select the runs. -/
  | begun
  | selected (stale : List String)
  | eventsDeleted (stale : List String) (keys : List (String × ℤ))
  | flowsDeleted (keys : List (String × ℤ)) (rows : List FlowRow)
  | committed (keys : List (String × ℤ)) (rows : List FlowRow)

namespace Pruning

/-- The events that have been deleted. -/
def keys : Pruning → List (String × ℤ)
  | eventsDeleted _ keys | flowsDeleted keys _ | committed keys _ => keys
  | begun | selected _ => []

/-- The rows that have been deleted, as they were committed then. -/
def rows : Pruning → List FlowRow
  | flowsDeleted _ rows | committed _ rows => rows
  | begun | selected _ | eventsDeleted .. => []

/-- The events that are deleted and not committed to be so. -/
def lockedKeys : Pruning → List (String × ℤ)
  | eventsDeleted _ keys | flowsDeleted keys _ => keys
  | begun | selected _ | committed .. => []

/-- The runs whose rows are deleted and not committed to be so. -/
def lockedRows : Pruning → List String
  | flowsDeleted _ rows => rows.map (·.runId)
  | begun | selected _ | eventsDeleted .. | committed .. => []

/-- The runs that are selected, until their rows are deleted. -/
def selection : Pruning → Option (List String)
  | selected stale | eventsDeleted stale _ => some stale
  | begun | flowsDeleted .. | committed .. => none

/-- Both deletions are made. -/
def Deleted : Pruning → Prop
  | flowsDeleted .. | committed .. => True
  | begun | selected _ | eventsDeleted .. => False

end Pruning

/-- The database of a collector and a retention job. -/
structure PruningRace where
  db : SQLADataSource
  before : ℚ
  transaction : Option Transaction := none
  pruning : Pruning := .begun
  /-- The events committed since the runs were selected. -/
  since : List Event := []

namespace PruningRace

inductive Move where
  /-- The collector begins to apply a batch. -/
  | applyMany (batch : List Event)
  /-- The next statement of the collector. -/
  | collect
  /-- The next statement of `prune`. -/
  | prune
  /-- A statement of the collector fails, as where each waits for the other. -/
  | rollback
  /-- A statement of `prune` fails. -/
  | giveUp

/-- The transaction is over. -/
def commit (s : PruningRace) (t : Transaction) : PruningRace :=
  { s with db := t.view s.db, transaction := none, since := s.since ++ t.batch }

/-- The transaction goes on. -/
def goOn (s : PruningRace) (t : Transaction) : PruningRace := { s with transaction := some t }

/-- The next statement of a transaction. -/
def collect (s : PruningRace) (t : Transaction) : PruningRace :=
  match t.runs with
  | [] => s.commit t
  | (runId, events) :: rest =>
    match t.next with
    | .select => s.goOn { t with next := .update (s.db.loadFlow runId) }
    | .update row =>
        -- the update waits for the lock
        if runId ∈ s.pruning.lockedRows then s
        else
          match applyEvents row events with
          -- only for no events
          | none => s
          | some snapshot =>
              if runId ∈ s.db.flows.keys then
                s.goOn { t with next := .insertEvents events, rows := t.rows ++ [snapshot] }
              else s.goOn { t with next := .insertRow snapshot }
    | .insertRow snapshot =>
        s.goOn { t with next := .insertEvents events, rows := t.rows ++ [snapshot] }
    | .insertEvents (event :: todo) =>
        -- so does an insertion under a key that may become free
        if s.pruning.lockedKeys.contains (event.runId, event.seq) then s
        else if (t.view s.db).events.keys.contains (event.runId, event.seq) then
          s.goOn { t with next := .insertEvents todo }
        else s.goOn { t with next := .insertEvents todo, inserted := t.inserted ++ [event] }
    | .insertEvents [] => s.goOn { t with runs := rest, next := .select }

/-- The deletion of rows waits for those that the collector has written. -/
def waits (s : PruningRace) (stale : List String) : Bool :=
  s.transaction.any fun t => t.rows.any fun snapshot =>
    stale.contains snapshot.runId && s.db.flows.keys.contains snapshot.runId

/-- The next statement of `prune`. -/
def prune (s : PruningRace) : PruningRace :=
  match s.pruning with
  | .begun =>
      if s.db.stale s.before = [] then { s with pruning := .committed [] [] }
      else { s with pruning := .selected (s.db.stale s.before), since := [] }
  | .selected stale =>
      { s with pruning :=
          .eventsDeleted stale (s.db.events.keys.filter fun key => key.1 ∈ stale) }
  | .eventsDeleted stale keys =>
      if s.waits stale then s
      else
        { s with pruning :=
            .flowsDeleted keys (s.db.flows.values.filter fun row => row.runId ∈ stale) }
  | .flowsDeleted keys rows =>
      { s with
        db := (s.db.deleteKeys keys).deleteFlows (rows.map (·.runId))
        pruning := .committed keys rows }
  | .committed .. => s

/-- A statement of `prune` fails, and nothing is deleted. -/
def giveUp (s : PruningRace) : PruningRace :=
  match s.pruning with
  | .begun | .selected _ | .eventsDeleted .. => { s with pruning := .committed [] [] }
  -- all its statements are made
  | .flowsDeleted .. | .committed .. => s

def step (s : PruningRace) : Move → PruningRace
  | .applyMany batch =>
    match s.transaction with
    -- there is no transaction for no events
    | none => if batch = [] then s else { s with transaction := some (.begin batch) }
    | some _ => s
  | .collect =>
    match s.transaction with
    | none => s
    | some t => s.collect t
  | .prune => s.prune
  | .rollback => { s with transaction := none }
  | .giveUp => s.giveUp

/-- The state after a run from the start. -/
def after (db : SQLADataSource) (before : ℚ) (moves : List Move) : PruningRace :=
  run step { db := db, before := before } moves

theorem after_concat (db : SQLADataSource) (before : ℚ) (moves : List Move) (a : Move) :
    after db before (moves ++ [a]) = (after db before moves).step a := run_concat ..

/-- No deleted row was observed at the time or later, and no deleted event is one of a run whose row
is kept. -/
structure RightlyPruned (s : PruningRace) : Prop where
  inactive : ∀ row ∈ s.pruning.rows, row.observedAt < s.before
  whole : s.pruning.Deleted → ∀ key ∈ s.pruning.keys, key.1 ∈ s.pruning.rows.map (·.runId)

/-- Where the rows are deleted next, no event of their runs observed at the time or later was
committed since they were selected. -/
def Undisturbed (s : PruningRace) (a : Move) : Prop :=
  a = .prune → ∀ stale keys, s.pruning = .eventsDeleted stale keys → s.waits stale = false →
    ∀ e ∈ s.since, e.runId ∈ stale → e.ts < s.before

end PruningRace

/-! ### Pruning by itself -/

namespace SQLADataSource

theorem deleteKeys_eq (db : SQLADataSource) (runIds : List String) :
    db.deleteKeys (db.events.keys.filter fun key => key.1 ∈ runIds) = db.deleteEvents runIds := by
  have hevents : (db.events.filterKeys fun key =>
      !(db.events.keys.filter fun key => key.1 ∈ runIds).contains key)
        = db.events.filterKeys fun key => key.1 ∉ runIds := by
    refine Dict.ext_entries (List.filter_congr fun entry hentry => ?_)
    have hkey : entry.1 ∈ db.events.keys := List.mem_map_of_mem hentry
    simp [hkey]
  simp only [deleteKeys, deleteEvents, hevents]

theorem deleteFlows_eq (db : SQLADataSource) (runIds : List String) :
    db.deleteFlows ((db.flows.values.filter fun row => row.runId ∈ runIds).map (·.runId))
      = db.deleteFlows runIds := by
  have hflows : (db.flows.filterKeys fun runId =>
      runId ∉ (db.flows.values.filter fun row => row.runId ∈ runIds).map (·.runId))
        = db.flows.filterKeys fun runId => runId ∉ runIds := by
    refine Dict.ext_entries (List.filter_congr fun entry hentry => ?_)
    have hrow : db.flows.get? entry.1 = some entry.2 := Dict.get?_eq_some_iff.mpr hentry
    have hrunId := db.flows_keyed entry.1 entry.2 hrow
    have hvalue : entry.2 ∈ db.flows.values := Dict.mem_values_iff.mpr ⟨entry.1, hrow⟩
    have hmem : entry.1 ∈ (db.flows.values.filter fun row => row.runId ∈ runIds).map (·.runId)
        ↔ entry.1 ∈ runIds := by
      constructor
      · intro h
        obtain ⟨row, hrow', heq⟩ := List.mem_map.mp h
        exact heq ▸ of_decide_eq_true (List.mem_filter.mp hrow').2
      · intro h
        exact List.mem_map.mpr ⟨entry.2,
          List.mem_filter.mpr ⟨hvalue, by simpa [hrunId] using h⟩, hrunId⟩
    exact decide_eq_decide.mpr (not_congr hmem)
  simp only [deleteFlows, hflows]

end SQLADataSource

/-- **A pruning that is left alone does what `prune` does.** -/
theorem PruningRace.prune_alone (db : SQLADataSource) (before : ℚ) :
    (after db before [.prune, .prune, .prune, .prune]).db = (db.prune before).2 := by
  show ((({ db := db, before := before } : PruningRace).prune).prune.prune.prune).db = _
  rw [SQLADataSource.prune]
  by_cases hnil : db.stale before = []
  · have hselect : ({ db := db, before := before } : PruningRace).prune
        = { db := db, before := before, pruning := .committed [] [] } := if_pos hnil
    rw [hselect, if_pos hnil]
    rfl
  · have hselect : ({ db := db, before := before } : PruningRace).prune
        = { db := db, before := before, pruning := .selected (db.stale before) } := if_neg hnil
    rw [hselect, if_neg hnil]
    show (db.deleteKeys _).deleteFlows _ = _
    rw [SQLADataSource.deleteKeys_eq]
    exact (db.deleteEvents (db.stale before)).deleteFlows_eq (db.stale before)

/-! ### A transaction by itself -/

namespace SQLADataSource

theorem insertEvent_saveFlow (db : SQLADataSource) (f : FlowSnapshot) (e : Event) :
    (db.saveFlow f).insertEvent e = (db.insertEvent e).saveFlow f := by
  by_cases hkey : (e.runId, e.seq) ∈ db.events.keys
  · have hkey' : (e.runId, e.seq) ∈ (db.saveFlow f).events.keys := hkey
    rw [insertEvent_of_mem hkey, insertEvent_of_mem hkey']
  · have hnew : (db.saveFlow f).insertEvent e = _ := if_neg hkey
    rw [hnew, insertEvent, if_neg hkey]
    rfl

theorem foldl_insertEvent_saveFlow (db : SQLADataSource) (f : FlowSnapshot) (es : List Event) :
    es.foldl insertEvent (db.saveFlow f) = (es.foldl insertEvent db).saveFlow f := by
  induction es generalizing db with
  | nil => rfl
  | cons e es ih => rw [List.foldl_cons, insertEvent_saveFlow, ih, List.foldl_cons]

end SQLADataSource

namespace Transaction

open SQLADataSource

variable {t : Transaction} {db : SQLADataSource}

/-- The runs whose rows it has not written. -/
def unwritten (t : Transaction) : List String :=
  match t.next with
  | .insertEvents _ => t.runs.tail.map Prod.fst
  | .select | .update _ | .insertRow _ => t.runs.map Prod.fst

/-- The database as the transaction would leave it at its end. -/
def finish (t : Transaction) (db : SQLADataSource) : SQLADataSource :=
  match t.next with
  | .insertEvents todo =>
      t.runs.tail.foldl (fun db p => db.applyRun p.1 p.2) (todo.foldl insertEvent (t.view db))
  | .select | .update _ | .insertRow _ =>
      t.runs.foldl (fun db p => db.applyRun p.1 p.2) (t.view db)

/-- What is known of a transaction as long as no other commits: **it will have done what `applyMany`
does**. -/
structure Inv (t : Transaction) (db : SQLADataSource) : Prop where
  distinct : (t.runs.map Prod.fst).Nodup
  parts : ∀ p ∈ t.runs, p.2 ≠ [] ∧ ∀ e ∈ p.2, e.runId = p.1
  unwritten : ∀ r ∈ t.unwritten, (t.view db).getFlow r = db.getFlow r
  update : ∀ row, t.next = .update row → ∀ p ∈ t.runs.head?, row = db.getFlow p.1
  insertRow : ∀ snapshot, t.next = .insertRow snapshot →
    ∀ p ∈ t.runs.head?, applyEvents (db.getFlow p.1) p.2 = some snapshot
  /-- The events to insert are those of a run. -/
  insertEvents : ∀ todo, t.next = .insertEvents todo → t.runs ≠ []
  finish : t.finish db = db.applyMany t.batch

theorem inv_begin (db : SQLADataSource) (batch : List Event) : (begin batch).Inv db where
  distinct := (Dict.groupBy Event.runId batch).nodup_keys
  parts := fun _ hp => Dict.mem_of_get?_groupBy (Dict.get?_eq_some_iff.mpr hp)
  unwritten := fun _ _ => rfl
  update := fun _ hrow => nomatch hrow
  insertRow := fun _ hsnapshot => nomatch hsnapshot
  insertEvents := fun _ htodo => nomatch htodo
  finish := rfl

theorem view_row (t : Transaction) (db : SQLADataSource) (snapshot : FlowSnapshot)
    (next : Statement) :
    ({ t with next := next, rows := t.rows ++ [snapshot] } : Transaction).view db
      = (t.view db).saveFlow snapshot := by
  unfold view
  rw [List.foldl_append, List.foldl_cons, List.foldl_nil, foldl_insertEvent_saveFlow]

theorem view_event (t : Transaction) (db : SQLADataSource) (event : Event) (next : Statement) :
    ({ t with next := next, inserted := t.inserted ++ [event] } : Transaction).view db
      = (t.view db).insertEvent event := by
  unfold view
  rw [List.foldl_append]
  rfl

/-- The row of the run is written. -/
theorem Inv.save (h : t.Inv db) {p : String × List Event} {rest : List (String × List Event)}
    (hruns : t.runs = p :: rest) (hnext : ∀ todo, t.next ≠ .insertEvents todo)
      {snapshot : FlowSnapshot}
    (happly : applyEvents (db.getFlow p.1) p.2 = some snapshot) :
    ({ t with next := .insertEvents p.2, rows := t.rows ++ [snapshot] } : Transaction).Inv db := by
  obtain ⟨hne, hrun⟩ := h.parts p (by rw [hruns]; exact List.mem_cons_self)
  have hunwritten : t.unwritten = p.1 :: rest.map Prod.fst := by
    rw [Transaction.unwritten, hruns]
    split
    · next todo heq => exact absurd heq (hnext todo)
    all_goals rfl
  have hfinish : t.finish db
      = rest.foldl (fun db p => db.applyRun p.1 p.2) ((t.view db).applyRun p.1 p.2) := by
    rw [Transaction.finish, hruns]
    split
    · next todo heq => exact absurd heq (hnext todo)
    all_goals rfl
  have hid : snapshot.runId = p.1 := runId_applyEvents runId_getFlow hrun snapshot happly
  have hsame := h.unwritten p.1 (by rw [hunwritten]; exact List.mem_cons_self)
  have happly' : (t.view db).applyRun p.1 p.2
      = p.2.foldl insertEvent ((t.view db).saveFlow snapshot) := by
    obtain ⟨f, hf, -, heq⟩ := (t.view db).applyRun_eq hne hrun
    rw [hsame, happly] at hf
    rw [heq, Option.some.inj hf]
  refine ⟨h.distinct, h.parts, ?_, nofun, nofun,
    fun _ _ => by rw [hruns]; exact List.cons_ne_nil _ _, ?_⟩
  · intro r hr
    have hr' : r ∈ rest.map Prod.fst := by
      rw [Transaction.unwritten, hruns] at hr
      exact hr
    have hdistinct := h.distinct
    rw [hruns, List.map_cons, List.nodup_cons] at hdistinct
    have hne' : r ≠ snapshot.runId := by
      rintro rfl
      exact hdistinct.1 (hid ▸ hr')
    rw [view_row, getFlow_saveFlow, if_neg hne']
    exact h.unwritten r (by rw [hunwritten]; exact List.mem_cons_of_mem _ hr')
  · show List.foldl _ (List.foldl insertEvent (Transaction.view _ db) p.2) t.runs.tail = _
    rw [view_row, hruns, List.tail_cons, ← happly', ← hfinish]
    exact h.finish

/-- The row of the run is read, or is to be inserted. -/
theorem Inv.turn (h : t.Inv db) {next : Statement} (hnow : ∀ todo, t.next ≠ .insertEvents todo)
    (hnext : ∀ todo, next ≠ .insertEvents todo)
    (hupdate : ∀ row, next = .update row → ∀ p ∈ t.runs.head?, row = db.getFlow p.1)
    (hinsert : ∀ snapshot, next = .insertRow snapshot →
      ∀ p ∈ t.runs.head?, applyEvents (db.getFlow p.1) p.2 = some snapshot) :
    ({ t with next := next } : Transaction).Inv db := by
  have hunwritten : ({ t with next := next } : Transaction).unwritten = t.unwritten := by
    unfold Transaction.unwritten
    cases next <;> cases hnext' : t.next <;>
      first | rfl | exact absurd rfl (hnext _) | exact absurd hnext' (hnow _)
  have hfinish : ({ t with next := next } : Transaction).finish db = t.finish db := by
    unfold Transaction.finish
    cases next <;> cases hnext' : t.next <;>
      first | rfl | exact absurd rfl (hnext _) | exact absurd hnext' (hnow _)
  refine ⟨h.distinct, h.parts, ?_, hupdate, hinsert, fun todo heq => absurd heq (hnext todo), ?_⟩
  · rw [hunwritten]
    exact h.unwritten
  · rw [hfinish]
    exact h.finish

/-- The next event of the run is inserted, or is there already. -/
theorem Inv.insert (h : t.Inv db) {event : Event} {todo : List Event}
    (hnext : t.next = .insertEvents (event :: todo)) {inserted : List Event}
    (hview : ∀ next, ({ t with next := next, inserted := inserted } : Transaction).view db
      = (t.view db).insertEvent event) :
    ({ t with next := .insertEvents todo, inserted := inserted } : Transaction).Inv db := by
  refine ⟨h.distinct, h.parts, fun r hr => ?_, nofun, nofun, fun _ _ => h.insertEvents _ hnext, ?_⟩
  · rw [hview, getFlow_insertEvent]
    refine h.unwritten r ?_
    rw [Transaction.unwritten, hnext]
    exact hr
  · have hfinish := h.finish
    rw [Transaction.finish, hnext] at hfinish
    show List.foldl _ (List.foldl insertEvent (Transaction.view _ db) todo) t.runs.tail = _
    rw [hview]
    exact hfinish

/-- The transaction turns to the next run. -/
theorem Inv.turnToNext (h : t.Inv db) {p : String × List Event} {rest : List (String × List Event)}
    (hruns : t.runs = p :: rest) (hnext : t.next = .insertEvents []) :
    ({ t with runs := rest, next := .select } : Transaction).Inv db := by
  have hdistinct := h.distinct
  have hunwritten := h.unwritten
  have hfinish := h.finish
  rw [hruns, List.map_cons, List.nodup_cons] at hdistinct
  rw [Transaction.unwritten, hnext, hruns] at hunwritten
  rw [Transaction.finish, hnext, hruns] at hfinish
  exact ⟨hdistinct.2, fun q hq => h.parts q (by rw [hruns]; exact List.mem_cons_of_mem p hq),
    hunwritten,
    nofun, nofun, nofun, hfinish⟩

end Transaction

/-- A run has one row. -/
theorem SQLADataSource.row_ext (db : SQLADataSource) {row row' : FlowRow}
    (hrow : row ∈ db.flows.values) (hrow' : row' ∈ db.flows.values) (heq : row.runId = row'.runId) :
    row = row' := by
  obtain ⟨r, hr⟩ := Dict.mem_values_iff.mp hrow
  obtain ⟨r', hr'⟩ := Dict.mem_values_iff.mp hrow'
  obtain rfl : r = r' := by rw [← db.flows_keyed r row hr, heq, db.flows_keyed r' row' hr']
  exact Option.some.inj (hr.symm.trans hr')

namespace PruningRace

open SQLADataSource

variable {s : PruningRace} {t : Transaction}

section

variable {batch : List Event} {runId : String} {events : List Event}
  {rest : List (String × List Event)} {rows : List FlowSnapshot} {inserted : List Event}

/-- The row of a run is updated, unless it is locked, or is to be inserted. -/
theorem collect_update {row : Option FlowSnapshot}
    (h : Transaction.Inv ⟨batch, (runId, events) :: rest, .update row, rows, inserted⟩ s.db) :
    s.collect ⟨batch, (runId, events) :: rest, .update row, rows, inserted⟩ = s
      ∨ ∃ t', t'.Inv s.db
        ∧ s.collect ⟨batch, (runId, events) :: rest, .update row, rows, inserted⟩ = s.goOn t' := by
  obtain rfl := h.update row rfl (runId, events) rfl
  unfold collect
  dsimp only
  split
  · exact .inl rfl
  · cases happly : applyEvents (s.db.getFlow runId) events with
    | none => exact .inl rfl
    | some snapshot =>
      dsimp only
      split
      · exact .inr ⟨_, h.save rfl nofun happly, rfl⟩
      · have hmissing : Transaction.Inv
            ⟨batch, (runId, events) :: rest, .insertRow snapshot, rows, inserted⟩ s.db := by
          refine h.turn nofun nofun nofun ?_
          rintro snapshot' heq p hp
          obtain rfl := Statement.insertRow.inj heq
          obtain rfl := Option.some.inj hp
          exact happly
        exact .inr ⟨_, hmissing, rfl⟩

/-- The next event of a run is inserted, unless its key is locked or taken. -/
theorem collect_insertEvents {event : Event} {todo : List Event}
    (h : Transaction.Inv
      ⟨batch, (runId, events) :: rest, .insertEvents (event :: todo), rows, inserted⟩ s.db) :
    s.collect ⟨batch, (runId, events) :: rest, .insertEvents (event :: todo), rows, inserted⟩ = s
      ∨ ∃ t', t'.Inv s.db
        ∧ s.collect ⟨batch, (runId, events) :: rest, .insertEvents (event :: todo), rows, inserted⟩
          = s.goOn t' := by
  unfold collect
  dsimp only
  split
  · exact .inl rfl
  · split
    · next hkey =>
      have hthere : Transaction.Inv
          ⟨batch, (runId, events) :: rest, .insertEvents todo, rows, inserted⟩ s.db :=
        h.insert rfl fun next => (insertEvent_of_mem (List.contains_iff_mem.mp hkey)).symm
      exact .inr ⟨_, hthere, rfl⟩
    · have hinserted := h.insert rfl fun next => Transaction.view_event _ s.db event next
      exact .inr ⟨_, hinserted, rfl⟩

/-- **What a statement of a transaction does**: it waits, goes on or commits. -/
theorem collect_cases (h : t.Inv s.db) :
    s.collect t = s ∨ (∃ t', t'.Inv s.db ∧ s.collect t = s.goOn t')
      ∨ t.runs = [] ∧ s.collect t = s.commit t := by
  obtain ⟨batch, runs, next, rows, inserted⟩ := t
  rcases runs with _ | ⟨⟨runId, events⟩, rest⟩
  · exact .inr (.inr ⟨rfl, rfl⟩)
  · cases next with
    | select =>
      have hread : Transaction.Inv
          ⟨batch, (runId, events) :: rest, .update (s.db.getFlow runId), rows, inserted⟩ s.db := by
        refine h.turn nofun nofun ?_ nofun
        rintro row heq p hp
        obtain rfl := Statement.update.inj heq
        obtain rfl := Option.some.inj hp
        rfl
      exact .inr (.inl ⟨_, hread, rfl⟩)
    | update row => exact (collect_update h).imp_right Or.inl
    | insertRow snapshot =>
      have hsaved := h.save rfl nofun (h.insertRow snapshot rfl (runId, events) rfl)
      exact .inr (.inl ⟨_, hsaved, rfl⟩)
    | insertEvents todo =>
      cases todo with
      | nil => exact .inr (.inl ⟨_, h.turnToNext rfl rfl, rfl⟩)
      | cons event todo => exact (collect_insertEvents h).imp_right Or.inl

end

/-- A transaction leaves the pruning alone. -/
theorem collect_frame (s : PruningRace) (t : Transaction) :
    (s.collect t).pruning = s.pruning ∧ (s.collect t).before = s.before := by
  unfold collect
  split
  · exact ⟨rfl, rfl⟩
  · split
    · exact ⟨rfl, rfl⟩
    · split
      · exact ⟨rfl, rfl⟩
      · split
        · exact ⟨rfl, rfl⟩
        · split <;> exact ⟨rfl, rfl⟩
    · exact ⟨rfl, rfl⟩
    · split
      · exact ⟨rfl, rfl⟩
      · split <;> exact ⟨rfl, rfl⟩
    · exact ⟨rfl, rfl⟩

/-- A transaction that commits has done what `applyMany` does. -/
theorem db_commit (h : t.Inv s.db) (hruns : t.runs = []) :
    (s.commit t).db = s.db.applyMany t.batch := by
  have hfinish := h.finish
  rw [Transaction.finish, hruns] at hfinish
  split at hfinish
  · next todo hnext => exact absurd hruns (h.insertEvents todo hnext)
  all_goals exact hfinish

/-! ### Both together -/

/-- What is known of both. -/
structure Inv (s : PruningRace) : Prop where
  transaction : (∀ keys rows, s.pruning ≠ .committed keys rows) → ∀ t ∈ s.transaction, t.Inv s.db
  /-- A selected run is there, and still old unless an event was committed that is not. -/
  selected : ∀ stale, s.pruning.selection = some stale → ∀ r ∈ stale,
    ∃ f, s.db.getFlow r = some f
      ∧ (f.observedAt < s.before ↔ ∀ e ∈ s.since, e.runId = r → e.ts < s.before)
  keys : ∀ stale, s.pruning.selection = some stale → ∀ key ∈ s.pruning.keys, key.1 ∈ stale
  whole : s.pruning.Deleted → ∀ key ∈ s.pruning.keys, key.1 ∈ s.pruning.rows.map (·.runId)

theorem inv_start (db : SQLADataSource) (before : ℚ) : Inv { db := db, before := before } where
  transaction := fun _ _ ht => nomatch ht
  selected := fun _ hstale => nomatch hstale
  keys := fun _ hstale => nomatch hstale
  whole := fun hdeleted => hdeleted.elim

/-- The collector goes on without committing. -/
theorem Inv.setTransaction (h : Inv s) {t? : Option Transaction}
    (ht : (∀ keys rows, s.pruning ≠ .committed keys rows) → ∀ t ∈ t?, t.Inv s.db) :
    Inv { s with transaction := t? } :=
  ⟨ht, h.selected, h.keys, h.whole⟩

/-- How old a run is after a batch. -/
theorem observedAt_applyEvents_lt {f : FlowSnapshot} {es : List Event} {before : ℚ} :
    ∃ f', applyEvents (some f) es = some f'
      ∧ (f'.observedAt < before ↔ f.observedAt < before ∧ ∀ e ∈ es, e.ts < before) := by
  refine ⟨_, applyEvents_some f es, ?_⟩
  induction es generalizing f with
  | nil => simp
  | cons e es ih =>
    rw [List.foldl_cons, ih, observedAt_fold, max_lt_iff, List.forall_mem_cons, and_assoc]

/-- The collector commits. -/
theorem Inv.commit (h : Inv s) (ht : t.Inv s.db) (hruns : t.runs = []) : Inv (s.commit t) := by
  refine ⟨fun _ t' ht' => (nomatch ht'), fun stale hstale r hr => ?_, h.keys, h.whole⟩
  obtain ⟨f, hf, hold⟩ := h.selected stale hstale r hr
  obtain ⟨f', hf', hnew⟩ := @observedAt_applyEvents_lt f (t.batch.filter (·.runId = r)) s.before
  refine ⟨f', ?_, ?_⟩
  · rw [db_commit ht hruns, getFlow_applyMany, hf, hf']
  · have hbefore : (s.commit t).before = s.before := rfl
    have hsince : (s.commit t).since = s.since ++ t.batch := rfl
    rw [hbefore, hsince, hnew, hold, List.forall_mem_append]
    simp

theorem Inv.collect (h : Inv s) (ht : s.transaction = some t)
    (hopen : ∀ keys rows, s.pruning ≠ .committed keys rows) : Inv (s.collect t) := by
  have htxn := h.transaction hopen t ht
  rcases collect_cases htxn with heq | ⟨t', ht', heq⟩ | ⟨hruns, heq⟩ <;> rw [heq]
  · exact h
  · refine h.setTransaction fun _ t'' ht'' => ?_
    obtain rfl := Option.some.inj ht''
    exact ht'
  · exact h.commit htxn hruns

/-- Once pruning is committed, the collector is on its own. -/
theorem Inv.of_committed {s' : PruningRace} (h : Inv s) {keys : List (String × ℤ)}
    {rows : List FlowRow} (hcommitted : s.pruning = .committed keys rows)
    (hsame : s'.pruning = s.pruning) : Inv s' := by
  have hwhole := h.whole
  rw [← hsame] at hwhole hcommitted
  refine ⟨fun hopen => absurd hcommitted (hopen keys rows), ?_, ?_, hwhole⟩ <;> rw [hcommitted] <;>
    exact fun _ hstale => nomatch hstale

/-- A selected run has a row, which its deletion would find. -/
theorem Inv.row (h : Inv s) {stale : List String} (hstale : s.pruning.selection = some stale)
    {r : String} (hr : r ∈ stale) :
    ∃ row ∈ s.db.flows.values.filter fun row => row.runId ∈ stale, row.runId = r
      ∧ (row.observedAt < s.before ↔ ∀ e ∈ s.since, e.runId = r → e.ts < s.before) := by
  obtain ⟨f, hf, hold⟩ := h.selected stale hstale r hr
  obtain ⟨row, hrow, rfl⟩ := Option.map_eq_some_iff.mp hf
  have hrunId := s.db.flows_keyed r row hrow
  refine ⟨row, List.mem_filter.mpr ⟨Dict.mem_values_iff.mpr ⟨r, hrow⟩, ?_⟩, hrunId, hold⟩
  simpa [hrunId] using hr

/-- Nothing is deleted. -/
theorem inv_nothing (s : PruningRace) : Inv { s with pruning := .committed [] [] } :=
  ⟨fun hopen => absurd rfl (hopen [] []), by simp [Pruning.selection], by simp [Pruning.selection],
    by simp [Pruning.keys]⟩

theorem Inv.prune (h : Inv s) : Inv s.prune := by
  have hrow := @h.row
  have hsame := h
  obtain ⟨htxn, hselected, hkeys, hwhole⟩ := h
  unfold PruningRace.prune
  cases hpruning : s.pruning with
  | begun =>
    rw [hpruning] at htxn
    dsimp only
    split
    · exact inv_nothing s
    · refine ⟨fun _ => htxn (by simp), fun stale hstale r hr => ?_, by simp [Pruning.keys],
        fun hdeleted => hdeleted.elim⟩
      obtain rfl := Option.some.inj hstale
      obtain ⟨row, hrow, hlt⟩ := mem_stale.mp hr
      have hold : (flowFromRow row).observedAt < s.before := hlt
      refine ⟨flowFromRow row, by rw [getFlow, loadFlow, hrow]; rfl, ?_⟩
      simp [hold]
  | selected stale =>
    rw [hpruning] at htxn hselected
    refine ⟨fun _ => htxn (by simp), hselected, fun stale' hstale key hkey => ?_,
      fun hdeleted => hdeleted.elim⟩
    obtain rfl := Option.some.inj hstale
    exact of_decide_eq_true (List.mem_filter.mp hkey).2
  | eventsDeleted stale keys =>
    dsimp only
    split
    · exact hsame
    · rw [hpruning] at htxn hrow hkeys
      refine ⟨fun _ => htxn (by simp), by simp [Pruning.selection], by simp [Pruning.selection],
        fun _ key hkey => ?_⟩
      have hstale := hkeys stale rfl key hkey
      obtain ⟨row, hdeleted, hrunId, -⟩ := hrow rfl hstale
      exact List.mem_map.mpr ⟨row, hdeleted, hrunId⟩
  | flowsDeleted keys rows =>
    rw [hpruning] at hwhole
    exact ⟨fun hopen => absurd rfl (hopen keys rows), by simp [Pruning.selection],
      by simp [Pruning.selection], hwhole⟩
  | committed keys rows => exact hsame

theorem Inv.giveUp (h : Inv s) : Inv s.giveUp := by
  unfold PruningRace.giveUp
  split
  all_goals first
    | exact h
    | exact inv_nothing s

/-- **Whatever comes next**, it is known of both. -/
theorem Inv.step (h : Inv s) (a : Move) : Inv (s.step a) := by
  cases a with
  | applyMany batch =>
    rw [PruningRace.step]
    split
    · split
      · exact h
      · refine h.setTransaction fun _ t ht => ?_
        obtain rfl := Option.some.inj ht
        exact Transaction.inv_begin s.db batch
    · exact h
  | collect =>
    rw [PruningRace.step]
    cases ht : s.transaction with
    | none => exact h
    | some t =>
      by_cases hopen : ∀ keys rows, s.pruning ≠ .committed keys rows
      · exact h.collect ht hopen
      · push Not at hopen
        obtain ⟨keys, rows, hcommitted⟩ := hopen
        exact h.of_committed hcommitted (s.collect_frame t).1
  | prune => exact h.prune
  | rollback => exact h.setTransaction fun _ _ ht => nomatch ht
  | giveUp => exact h.giveUp

theorem inv_after (db : SQLADataSource) (before : ℚ) (moves : List Move) :
    Inv (after db before moves) := by
  induction moves using List.reverseRecOn with
  | nil => exact inv_start db before
  | append_singleton moves a ih =>
    rw [after_concat]
    exact ih.step a

/-- The statement that deletes the rows. -/
theorem rows_prune {stale : List String} {keys : List (String × ℤ)}
    (hpruning : s.pruning = .eventsDeleted stale keys) (hwaits : s.waits stale = false) :
    s.prune.pruning.rows = s.db.flows.values.filter fun row => row.runId ∈ stale := by
  rw [prune, hpruning]
  simp [hwaits, Pruning.rows]

/-- The collector leaves the pruning alone. -/
theorem step_frame {a : Move} (hprune : a ≠ .prune) (hgiveUp : a ≠ .giveUp) :
    (s.step a).pruning = s.pruning ∧ (s.step a).before = s.before := by
  cases a with
  | applyMany batch =>
    rw [step]
    split
    · split <;> exact ⟨rfl, rfl⟩
    · exact ⟨rfl, rfl⟩
  | collect =>
    rw [step]
    split
    · exact ⟨rfl, rfl⟩
    · next t _ => exact s.collect_frame t
  | rollback => exact ⟨rfl, rfl⟩
  | prune => exact absurd rfl hprune
  | giveUp => exact absurd rfl hgiveUp

/-- No other step deletes rows. -/
theorem rows_step {a : Move} (hother : a = .prune → ∀ stale keys,
    s.pruning = .eventsDeleted stale keys → s.waits stale = true) :
    (s.step a).pruning.rows = s.pruning.rows := by
  cases a with
  | prune =>
    rw [step, prune]
    cases hpruning : s.pruning with
    | begun =>
      dsimp only
      split <;> rfl
    | eventsDeleted stale keys =>
      have hwaits := hother rfl stale keys hpruning
      dsimp only
      rw [if_pos hwaits, hpruning]
    | selected stale | flowsDeleted keys rows => rfl
    | committed keys rows => exact congrArg Pruning.rows hpruning
  | giveUp =>
    rw [step, giveUp]
    cases hpruning : s.pruning with
    | flowsDeleted keys rows | committed keys rows => exact congrArg Pruning.rows hpruning
    | begun | selected stale | eventsDeleted stale keys => rfl
  | applyMany batch | collect | rollback =>
    exact congrArg Pruning.rows (step_frame (by simp) (by simp)).1

@[simp] theorem before_step (s : PruningRace) (a : Move) : (s.step a).before = s.before := by
  cases a with
  | prune =>
    rw [step, prune]
    split
    · split <;> rfl
    · rfl
    · split <;> rfl
    all_goals rfl
  | giveUp =>
    rw [step, giveUp]
    split <;> rfl
  | applyMany batch | collect | rollback => exact (step_frame (by simp) (by simp)).2

theorem Inv.rightlyPruned (h : Inv s) :
    RightlyPruned s ↔ ∀ row ∈ s.pruning.rows, row.observedAt < s.before :=
  ⟨fun hright => hright.inactive, fun hinactive => ⟨hinactive, h.whole⟩⟩

/-- **A step prunes rightly exactly where it is undisturbed.** -/
theorem Inv.rightlyPruned_step (h : Inv s) (a : Move) :
    RightlyPruned (s.step a) ↔ RightlyPruned s ∧ Undisturbed s a := by
  rw [(h.step a).rightlyPruned, h.rightlyPruned, before_step]
  by_cases hdeletes : ∃ stale keys, a = .prune ∧ s.pruning = .eventsDeleted stale keys ∧
      s.waits stale = false
  · obtain ⟨stale, keys, rfl, hpruning, hwaits⟩ := hdeletes
    have hnone : s.pruning.rows = [] := by rw [hpruning]; rfl
    have hselection : s.pruning.selection = some stale := by rw [hpruning]; rfl
    rw [PruningRace.step, rows_prune hpruning hwaits, hnone]
    constructor
    · intro hinactive
      refine ⟨fun row hrow => (nomatch hrow), fun _ stale' keys' hpruning' _ e he hstale => ?_⟩
      obtain ⟨rfl, -⟩ := Pruning.eventsDeleted.inj (hpruning.symm.trans hpruning')
      obtain ⟨row, hdeleted, -, hold⟩ := h.row hselection hstale
      exact hold.mp (hinactive row hdeleted) e he rfl
    · rintro ⟨-, hundisturbed⟩ row hrow
      obtain ⟨hmem, hstale⟩ := List.mem_filter.mp hrow
      have hstale := of_decide_eq_true hstale
      obtain ⟨row', hrow', hrunId, hold⟩ := h.row hselection hstale
      obtain rfl := s.db.row_ext (List.mem_filter.mp hrow').1 hmem hrunId
      refine hold.mpr fun e he hrun => ?_
      exact hundisturbed rfl stale keys hpruning hwaits e he (hrun ▸ hstale)
  · have hundisturbed : Undisturbed s a := by
      rintro rfl stale keys hpruning hwaits
      exact absurd ⟨stale, keys, rfl, hpruning, hwaits⟩ hdeletes
    have hsame : (s.step a).pruning.rows = s.pruning.rows := by
      refine rows_step ?_
      rintro rfl stale keys hpruning
      by_contra hwaits
      exact hdeletes ⟨stale, keys, rfl, hpruning, Bool.eq_false_iff.mpr hwaits⟩
    rw [hsame]
    exact (and_iff_left hundisturbed).symm

/-- **No active run and no event of a kept run is deleted exactly where no event that is not old was
committed for a selected run before its row is deleted.** -/
theorem rightlyPruned_iff (db : SQLADataSource) (before : ℚ) (moves : List Move) :
    RightlyPruned (after db before moves)
      ↔ EveryMove (fun done a => Undisturbed (after db before done) a) moves := by
  refine iff_everyMove (P := fun moves => RightlyPruned (after db before moves)) ?_ ?_ moves
  · exact ⟨fun row hrow => (nomatch hrow), fun hdeleted => hdeleted.elim⟩
  · intro done a
    rw [after_concat]
    exact (inv_after db before done).rightlyPruned_step a

/-- A run that is old when it is selected, and gets an event before it is deleted. -/
def reborn : PruningRace :=
  after (filled [[{ kind := .flowState, runId := "a", ts := 1, seq := 1 }]]) 5
    [.prune,
     .applyMany [{ kind := .flowState, runId := "a", ts := 10, seq := 2 }],
     .collect, .collect, .prune, .collect, .collect, .collect,
     .prune, .prune]

/-- **A run that is active again is deleted**, and its new event stays without it. -/
theorem active_run_deleted :
    ¬RightlyPruned reborn ∧ reborn.db.flows.keys = [] ∧ reborn.db.events.keys = [("a", 2)] := by
  have hactive : ∃ row ∈ reborn.pruning.rows, ¬row.observedAt < reborn.before := by decide
  refine ⟨fun hright => ?_, by decide, by decide⟩
  obtain ⟨row, hrow, hlt⟩ := hactive
  exact hlt (hright.inactive row hrow)

end PruningRace

end TaskflowMeter
