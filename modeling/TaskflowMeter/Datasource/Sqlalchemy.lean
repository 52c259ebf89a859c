import TaskflowMeter.Datasource.Listing
import TaskflowMeter.Lib.Column

/-!
# A datasource with a schema of its own

Two tables: the current state of every run, with its atoms as JSON inside the row,
and every event, keyed by run and number.

## Main definitions

* `FlowRow`, `EventRow`, `SQLADataSource` — the rows and the tables.
* `asdict`, `AtomSnapshot.ofDict` — atoms as JSON and back.
* `SQLADataSource.applyMany` — fold a batch into the stored state, run by run.
* `SQLADataSource.getFlow`, `listFlows`, `eventsSince` — reading.
* `SQLADataSource.held` — the events stored for a run, in order of insertion.

## Main results

* `getFlow_applyMany`, `held_applyMany` — **what a batch does to each run.**
* `eventsSince_eq` — a page is made of the events stored for the run, by the rule that
  every store uses.
* `listFlows_some` — **the page after a row** is made of what has keys above its own.
-/

namespace TaskflowMeter

open Paging

/-! ### Columns -/

instance : Codec EventKind String where
  encode := EventKind.str
  decode := EventKind.ofStr
  decode_encode := EventKind.ofStr_str

/-- `dict(value or {})` of a JSON column. -/
def Json.toDict? : Json → Option (Dict String Json)
  | .null => some ∅
  | .obj fields => if h : (fields.map Prod.fst).Nodup then some ⟨fields, h⟩ else none
  | _ => none

instance : Codec (Dict String Json) Json where
  encode d := .obj d.entries
  decode := Json.toDict?
  decode_encode d := by simp [Json.toDict?, d.nodup_keys]

/-- `asdict(atom)`. -/
def asdict (atom : AtomSnapshot) : Json :=
  .obj
    [("name", .str atom.name),
     ("uuid", .ofOption atom.uuid),
     ("atom_type", .str atom.atomType),
     ("state", .ofOption atom.state),
     ("intention", .ofOption atom.intention),
     ("progress", .num atom.progress),
     ("progress_details", atom.progressDetails),
     ("failure", atom.failure),
     ("revert_failure", atom.revertFailure),
     ("has_result", .bool atom.hasResult),
     ("meta", .obj atom.«meta».entries)]

namespace Json

def str? : Json → Option String
  | .str s => some s
  | _ => none

def optStr? : Json → Option (Option String)
  | .null => some none
  | .str s => some (some s)
  | _ => none

def num? : Json → Option ℚ
  | .num q => some q
  | _ => none

def bool? : Json → Option Bool
  | .bool b => some b
  | _ => none

@[simp] theorem optStr?_ofOption (o : Option String) : optStr? (ofOption o) = some o := by
  cases o <;> rfl

end Json

/-- `AtomSnapshot(**data)`: an argument that is left out has its default, and there is
no argument of any other name. -/
def AtomSnapshot.ofDict (data : Json) : Option AtomSnapshot := do
  let data ← data.toDict?
  let known := ["name", "uuid", "atom_type", "state", "intention", "progress", "progress_details",
    "failure", "revert_failure", "has_result", "meta"]
  if data.keys.all fun key => known.contains key then
    let name ← (← data.get? "name").str?
    let uuid ← (data.getD "uuid" .null).optStr?
    let atomType ← (data.getD "atom_type" (.str TASK)).str?
    let state ← (data.getD "state" .null).optStr?
    let intention ← (data.getD "intention" .null).optStr?
    let progress ← (data.getD "progress" (.num 0)).num?
    let hasResult ← (data.getD "has_result" (.bool false)).bool?
    let «meta» ← (data.getD "meta" (.obj [])).toDict?
    return {
      name, uuid, atomType, state, intention, progress, hasResult, «meta»
      progressDetails := data.getD "progress_details" .null
      failure := data.getD "failure" .null
      revertFailure := data.getD "revert_failure" .null }
  else none

theorem AtomSnapshot.ofDict_asdict (atom : AtomSnapshot) : ofDict (asdict atom) = some atom := by
  simp [ofDict, asdict, Json.toDict?, Dict.keys, Dict.getD, Dict.get?, List.lookup_cons,
    Json.str?, Json.num?, Json.bool?, atom.«meta».nodup_keys]

/-- Decode the values of a JSON object one by one. -/
def ofDictAll : List (String × Json) → Option (List (String × AtomSnapshot))
  | [] => some []
  | (name, data) :: rest => do
      let atom ← AtomSnapshot.ofDict data
      let atoms ← ofDictAll rest
      return (name, atom) :: atoms

theorem ofDictAll_map_asdict (atoms : List (String × AtomSnapshot)) :
    ofDictAll (atoms.map fun p => (p.1, asdict p.2)) = some atoms := by
  induction atoms with
  | nil => rfl
  | cons p atoms ih => simp [ofDictAll, AtomSnapshot.ofDict_asdict, ih]

instance : Codec (Dict String AtomSnapshot) Json where
  encode atoms := .obj (atoms.entries.map fun p => (p.1, asdict p.2))
  decode
    | .null => some ∅
    | .obj fields => do
        let atoms ← ofDictAll fields
        if h : (atoms.map Prod.fst).Nodup then some ⟨atoms, h⟩ else none
    | _ => none
  decode_encode atoms := by simp [ofDictAll_map_asdict, atoms.nodup_keys]

/-! ### Rows -/

/-- The current state of a run. -/
structure FlowRow where
  runId : String
  bookId : Option String
  bookName : Option String
  name : String
  state : Option String
  observedAt : ℚ
  «meta» : Column (Dict String Json)
  atoms : Column (Dict String AtomSnapshot)
  deriving DecidableEq

/-- An event, as a row. -/
structure EventRow where
  runId : String
  seq : ℤ
  ts : ℚ
  kind : Column EventKind
  bookId : Option String
  atomName : Option String
  atomUuid : Option String
  atomType : Option String
  state : Option String
  oldState : Option String
  intention : Option String
  progress : Option ℚ
  details : Column (Dict String Json)
  deriving DecidableEq

/-- The values saved for a flow. -/
def flowRow (snapshot : FlowSnapshot) : FlowRow where
  runId := snapshot.runId
  bookId := snapshot.bookId
  bookName := snapshot.bookName
  name := snapshot.name
  state := snapshot.state
  observedAt := snapshot.observedAt
  «meta» := .write snapshot.«meta»
  atoms := .write snapshot.atoms

def flowFromRow (row : FlowRow) : FlowSnapshot where
  runId := row.runId
  name := row.name
  state := row.state
  bookId := row.bookId
  bookName := row.bookName
  observedAt := row.observedAt
  «meta» := row.«meta».read
  atoms := row.atoms.read

def eventRow (event : Event) : EventRow where
  runId := event.runId
  seq := event.seq
  ts := event.ts
  kind := .write event.kind
  bookId := event.bookId
  atomName := event.atomName
  atomUuid := event.atomUuid
  atomType := event.atomType
  state := event.state
  oldState := event.oldState
  intention := event.intention
  progress := event.progress
  details := .write event.details

def eventFromRow (row : EventRow) : Event where
  runId := row.runId
  seq := row.seq
  ts := row.ts
  kind := row.kind.read
  bookId := row.bookId
  atomName := row.atomName
  atomUuid := row.atomUuid
  atomType := row.atomType
  state := row.state
  oldState := row.oldState
  intention := row.intention
  progress := row.progress
  details := row.details.read

@[simp] theorem flowFromRow_flowRow (snapshot : FlowSnapshot) :
    flowFromRow (flowRow snapshot) = snapshot := by simp [flowFromRow, flowRow]

@[simp] theorem flowRow_flowFromRow (row : FlowRow) : flowRow (flowFromRow row) = row := by
  simp [flowFromRow, flowRow]

@[simp] theorem eventFromRow_eventRow (event : Event) : eventFromRow (eventRow event) = event := by
  simp [eventFromRow, eventRow]

/-- Newest observation first, ties broken by run id. -/
def FlowRow.ListedBefore (a b : FlowRow) : Prop :=
  b.observedAt < a.observedAt ∨ a.observedAt = b.observedAt ∧ a.runId ≤ b.runId

instance : DecidableRel FlowRow.ListedBefore := fun _ _ => inferInstanceAs (Decidable (_ ∨ _))

/-! ### The tables -/

/-- Stores flows and their events in a database: two tables, each with the key that
the database enforces. -/
structure SQLADataSource where
  flows : Dict String FlowRow := ∅
  events : Dict (String × ℤ) EventRow := ∅
  flows_keyed : ∀ runId row, flows.get? runId = some row → row.runId = runId := by simp
  events_keyed : ∀ key row, events.get? key = some row → (row.runId, row.seq) = key := by simp

namespace SQLADataSource

/-- Update the run's row, or insert one. -/
def saveFlow (db : SQLADataSource) (snapshot : FlowSnapshot) : SQLADataSource :=
  { db with
    flows := db.flows.set snapshot.runId (flowRow snapshot)
    flows_keyed := by
      intro runId row hrow
      rw [Dict.get?_set] at hrow
      split at hrow
      · next h => rw [h, ← Option.some.inj hrow]; rfl
      · exact db.flows_keyed runId row hrow }

/-- Insert an event, unless the run has one of that number. -/
def insertEvent (db : SQLADataSource) (event : Event) : SQLADataSource :=
  if (event.runId, event.seq) ∈ db.events.keys then db
  else
    { db with
      events := db.events.set (event.runId, event.seq) (eventRow event)
      events_keyed := by
        intro key row hrow
        rw [Dict.get?_set] at hrow
        split at hrow
        · next h => rw [h, ← Option.some.inj hrow]; rfl
        · exact db.events_keyed key row hrow }

def loadFlow (db : SQLADataSource) (runId : String) : Option FlowSnapshot :=
  (db.flows.get? runId).map flowFromRow

/-- Fold a run's part of a batch into its row, which its first event seeds, and insert
the events. -/
def applyRun (db : SQLADataSource) (runId : String) (runEvents : List Event) : SQLADataSource :=
  match applyEvents (db.loadFlow runId) runEvents with
  -- only of an empty part, which no batch has
  | none => db
  | some snapshot => runEvents.foldl insertEvent (db.saveFlow snapshot)

/-- Fold a batch into the stored state, in one transaction. -/
def applyMany (db : SQLADataSource) (batch : List Event) : SQLADataSource :=
  (Dict.groupBy Event.runId batch).entries.foldl (fun db p => db.applyRun p.1 p.2) db

def apply (db : SQLADataSource) (event : Event) : SQLADataSource := db.applyMany [event]

def getFlow (db : SQLADataSource) (runId : String) : Option FlowSnapshot := db.loadFlow runId

/-- The page that a query answers. -/
def flowPage (query : List FlowRow) (limit : ℕ) : FlowPage :=
  -- one row more than was asked for tells whether there are more
  let rows := (query.insertionSort FlowRow.ListedBefore).take (limit + 1)
  let more := limit < rows.length
  let window := (rows.take limit).map flowFromRow
  { items := window, nextMarker := if more then window.getLast?.map (·.runId) else none }

def listFlows (db : SQLADataSource) (filter : FlowFilter) (limit : ℤ) (marker : Option String) :
    Except ListError FlowPage :=
  if limit < 1 then .error limitTooLow
  else
    let query := db.flows.values.filter fun row => filter.admits row.state row.bookId
    match marker with
    | none => .ok (flowPage query limit.toNat)
    | some marker =>
        match db.flows.get? marker with
        | none => .error (unknownMarker marker)
        | some anchor =>
            .ok (flowPage
              (query.filter fun row => row.observedAt < anchor.observedAt
                ∨ row.observedAt = anchor.observedAt ∧ anchor.runId < row.runId)
              limit.toNat)

/-- The flows that a filter admits. -/
def matching (db : SQLADataSource) (filter : FlowFilter) : List FlowSnapshot :=
  (db.flows.values.map flowFromRow).filter fun flow => filter.admits flow.state flow.bookId

/-- The rows of a run, in order of insertion. -/
def rowsOf (db : SQLADataSource) (runId : String) : List EventRow :=
  db.events.values.filter (·.runId = runId)

/-- The events stored for a run, in order of insertion. -/
def held (db : SQLADataSource) (runId : String) : List Event := (db.rowsOf runId).map eventFromRow

def eventsSince (db : SQLADataSource) (runId : String) (since limit : ℤ) :
    Except String EventPage :=
  if limit < 1 then .error "limit must be at least 1"
  else
    let oldest := ((db.rowsOf runId).map (·.seq)).min?
    -- the query reads at most `limit` rows, before anything is known of gaps
    let rows := (((db.rowsOf runId).filter (since < ·.seq)).insertionSort
      fun a b => a.seq ≤ b.seq).take limit.toNat
    let truncated := oldest.any fun o => since + 1 < o
    let expected := if truncated then oldest.getD (since + 1) else since + 1
    let selected := contiguousFrom (rows.map eventFromRow) expected limit
    .ok
      { events := selected
        nextSeq := (selected.getLast?.map (·.seq)).getD since
        oldestSeq := oldest
        truncated := truncated }

/-! ### Writing the flow -/

@[simp] theorem getFlow_insertEvent (db : SQLADataSource) (e : Event) (r : String) :
    (db.insertEvent e).getFlow r = db.getFlow r := by
  rw [insertEvent]
  split <;> rfl

@[simp] theorem getFlow_foldl_insertEvent (db : SQLADataSource) (es : List Event) (r : String) :
    (es.foldl insertEvent db).getFlow r = db.getFlow r := by
  induction es generalizing db with
  | nil => rfl
  | cons e es ih => rw [List.foldl_cons, ih, getFlow_insertEvent]

theorem getFlow_saveFlow (db : SQLADataSource) (snapshot : FlowSnapshot) (r : String) :
    (db.saveFlow snapshot).getFlow r
      = if r = snapshot.runId then some snapshot else db.getFlow r := by
  show ((db.flows.set snapshot.runId (flowRow snapshot)).get? r).map flowFromRow = _
  rw [Dict.get?_set]
  split
  · rw [Option.map_some, flowFromRow_flowRow]
  · rfl

/-- A flow is kept under its own id. -/
theorem runId_getFlow {db : SQLADataSource} {r : String} : ∀ f ∈ db.getFlow r, f.runId = r := by
  intro f hf
  obtain ⟨row, hrow, rfl⟩ := Option.map_eq_some_iff.mp hf
  exact db.flows_keyed r row hrow

/-- A run's part of a batch, when it is not empty. -/
theorem applyRun_eq (db : SQLADataSource) {r : String} {es : List Event} (hne : es ≠ [])
    (hrun : ∀ e ∈ es, e.runId = r) :
    ∃ f, applyEvents (db.getFlow r) es = some f ∧ f.runId = r
      ∧ db.applyRun r es = es.foldl insertEvent (db.saveFlow f) := by
  obtain ⟨f, hf⟩ := applyEvents_ne_none (db.getFlow r) hne
  refine ⟨f, hf, runId_applyEvents runId_getFlow hrun f hf, ?_⟩
  rw [applyRun]
  rw [getFlow] at hf
  rw [hf]

theorem getFlow_applyRun {db : SQLADataSource} {r : String} {es : List Event} (hne : es ≠ [])
    (hrun : ∀ e ∈ es, e.runId = r) (r' : String) :
    (db.applyRun r es).getFlow r'
      = if r' = r then applyEvents (db.getFlow r') es else db.getFlow r' := by
  obtain ⟨f, hf, hid, heq⟩ := db.applyRun_eq hne hrun
  rw [heq, getFlow_foldl_insertEvent, getFlow_saveFlow, hid]
  split
  · next h => rw [h, hf]
  · rfl

/-- **A batch and a part of the tables** that only the events of one run change: what they do to it
is what the run's part of the batch does. -/
theorem applyMany_part {β : Type*} {f : SQLADataSource → β} {g : List Event → β → β} {r : String}
    (hnil : ∀ b, g [] b = b)
    (hrun : ∀ (db : SQLADataSource) runId es, es ≠ [] → (∀ e ∈ es, e.runId = runId) →
      f (db.applyRun runId es) = if r = runId then g es (f db) else f db)
    (db : SQLADataSource) (batch : List Event) :
    f (db.applyMany batch) = g (batch.filter (·.runId = r)) (f db) := by
  have hgroup : ∀ p ∈ (Dict.groupBy Event.runId batch).entries,
      p.2 ≠ [] ∧ ∀ e ∈ p.2, e.runId = p.1 := fun p hp =>
    Dict.mem_of_get?_groupBy (Dict.get?_eq_some_iff.mpr hp)
  rw [applyMany, Dict.foldl_entries_eq (f := f) (g := g) _ r, Dict.get?_groupBy]
  · split
    · next hnone => rw [hnone, hnil]; rfl
    · rfl
  · intro db es hes
    obtain ⟨hne, hofRun⟩ := hgroup _ hes
    rw [hrun db r es hne hofRun, if_pos rfl]
  · intro db p hp hr
    obtain ⟨hne, hofRun⟩ := hgroup p hp
    rw [hrun db p.1 p.2 hne hofRun, if_neg (Ne.symm hr)]

/-- **A batch and a run's flow**: the run's part of the batch is folded into it. -/
theorem getFlow_applyMany (db : SQLADataSource) (batch : List Event) (r : String) :
    (db.applyMany batch).getFlow r = applyEvents (db.getFlow r) (batch.filter (·.runId = r)) :=
  applyMany_part (f := fun db : SQLADataSource => db.getFlow r)
    (g := fun es stored => applyEvents stored es) (fun _ => rfl)
    (fun _ _ _ hne hrun => getFlow_applyRun hne hrun r) db batch

/-! ### Writing the events -/

theorem mem_rowsOf {db : SQLADataSource} {r : String} {row : EventRow} :
    row ∈ db.rowsOf r ↔ row.runId = r ∧ db.events.get? (r, row.seq) = some row := by
  rw [rowsOf, List.mem_filter, Dict.mem_values_iff, decide_eq_true_eq]
  constructor
  · rintro ⟨⟨key, hkey⟩, rfl⟩
    refine ⟨rfl, ?_⟩
    rw [db.events_keyed key row hkey, hkey]
  · rintro ⟨hr, hrow⟩
    exact ⟨⟨_, hrow⟩, hr⟩

/-- A number is stored for a run exactly when its key is taken. -/
theorem hasSeq_held_iff {db : SQLADataSource} {r : String} {m : ℤ} :
    HasSeq (db.held r) m ↔ (r, m) ∈ db.events.keys := by
  rw [Dict.mem_keys_iff]
  constructor
  · rintro ⟨e, he, rfl⟩
    obtain ⟨row, hrow, rfl⟩ := List.mem_map.mp he
    exact ⟨row, (mem_rowsOf.mp hrow).2⟩
  · rintro ⟨row, hrow⟩
    obtain ⟨hr, hm⟩ := Prod.mk.inj (db.events_keyed (r, m) row hrow)
    exact ⟨eventFromRow row, List.mem_map_of_mem (mem_rowsOf.mpr ⟨hr, by rw [hm]; exact hrow⟩), hm⟩

/-- The numbers stored for a run are distinct. -/
theorem nodup_seq_held (db : SQLADataSource) (r : String) :
    ((db.held r).map Event.seq).Nodup := by
  have hkeys : db.events.keys.Pairwise (· ≠ ·) := db.events.nodup_keys'
  rw [Dict.keys, List.pairwise_map] at hkeys
  have hmap : (db.held r).map Event.seq = (db.rowsOf r).map EventRow.seq := by
    rw [held, List.map_map]; rfl
  have hrows : db.rowsOf r = (db.events.entries.filter (fun p => p.2.runId = r)).map Prod.snd := by
    rw [rowsOf, Dict.values, List.filter_map]; rfl
  rw [hmap, hrows, List.map_map, List.Nodup, List.pairwise_map]
  -- two rows of the run with one number would have one key
  refine (hkeys.filter _).imp_of_mem ?_
  intro p q hp hq hne hseq
  apply hne
  rw [List.mem_filter, decide_eq_true_eq] at hp hq
  rw [← db.events_keyed p.1 p.2 (Dict.get?_eq_some_iff.mpr hp.1),
    ← db.events_keyed q.1 q.2 (Dict.get?_eq_some_iff.mpr hq.1), hp.2, hq.2]
  exact congrArg (Prod.mk r) hseq

theorem events_insertEvent (db : SQLADataSource) (e : Event) :
    (db.insertEvent e).events
      = if (e.runId, e.seq) ∈ db.events.keys then db.events
        else db.events.set (e.runId, e.seq) (eventRow e) := by
  rw [insertEvent]
  split <;> rfl

/-- An event that is stored already is not inserted again. -/
theorem insertEvent_of_mem {db : SQLADataSource} {e : Event}
    (h : (e.runId, e.seq) ∈ db.events.keys) : db.insertEvent e = db := if_pos h

theorem mem_keys_foldl_insertEvent {db : SQLADataSource} {es : List Event} {key : String × ℤ} :
    key ∈ (es.foldl insertEvent db).events.keys
      ↔ key ∈ db.events.keys ∨ key ∈ es.map fun e => (e.runId, e.seq) := by
  induction es generalizing db with
  | nil => simp
  | cons e es ih =>
    have hkeys : key ∈ (db.insertEvent e).events.keys
        ↔ key ∈ db.events.keys ∨ key = (e.runId, e.seq) := by
      rw [events_insertEvent]
      split
      · next hmem =>
        refine ⟨Or.inl, ?_⟩
        rintro (h | rfl)
        · exact h
        · exact hmem
      · rw [Dict.mem_keys_set, or_comm]
    rw [List.foldl_cons, ih, hkeys, List.map_cons, List.mem_cons, or_assoc]

/-- A batch of one run is one read and one write of its row. -/
theorem applyMany_eq_applyRun (db : SQLADataSource) {batch : List Event} {r : String}
    (hne : batch ≠ []) (hrun : ∀ e ∈ batch, e.runId = r) :
    db.applyMany batch = db.applyRun r batch := by
  rw [applyMany, Dict.entries_groupBy_of_const hne hrun]
  rfl

theorem held_eq (db : SQLADataSource) (r : String) :
    db.held r
      = (db.events.entries.filter (fun p => p.2.runId = r)).map fun p => eventFromRow p.2 := by
  rw [held, rowsOf, Dict.values, List.filter_map, List.map_map]
  rfl

theorem held_insertEvent (db : SQLADataSource) (e : Event) (r : String) :
    (db.insertEvent e).held r
      = if r = e.runId then keepFirst (db.held r) e else db.held r := by
  by_cases hmem : (e.runId, e.seq) ∈ db.events.keys
  · -- the key is taken: the event is dropped
    have hsame : (db.insertEvent e).held r = db.held r := by
      rw [held_eq, held_eq, events_insertEvent, if_pos hmem]
    rw [hsame]
    split
    · next hr =>
      have hseq : ∃ x ∈ db.held r, x.seq = e.seq := by
        rw [hr]
        exact hasSeq_held_iff.mpr hmem
      rw [keepFirst, if_pos hseq]
    · rfl
  · rw [held_eq, events_insertEvent, if_neg hmem, Dict.entries_set_of_notMem _ hmem,
      List.filter_append, List.map_append, ← held_eq]
    split
    · next hr =>
      have hseq : ¬∃ x ∈ db.held r, x.seq = e.seq := by
        rw [hr]
        exact fun h => hmem (hasSeq_held_iff.mp h)
      rw [keepFirst, if_neg hseq, List.filter_cons_of_pos (by simp [eventRow, hr])]
      simp
    · next hr =>
      rw [List.filter_cons_of_neg (by simp [eventRow, Ne.symm hr])]
      simp

theorem held_foldl_insertEvent (db : SQLADataSource) (es : List Event) (r : String) :
    (es.foldl insertEvent db).held r = (es.filter (·.runId = r)).foldl keepFirst (db.held r) := by
  induction es generalizing db with
  | nil => rfl
  | cons e es ih =>
    rw [List.foldl_cons, ih, held_insertEvent, List.filter_cons]
    by_cases hr : r = e.runId
    · rw [if_pos hr, if_pos (by simp [hr]), List.foldl_cons]
    · rw [if_neg hr, if_neg (by simpa using Ne.symm hr)]

theorem held_applyRun {db : SQLADataSource} {r : String} {es : List Event} (hne : es ≠ [])
    (hrun : ∀ e ∈ es, e.runId = r) (r' : String) :
    (db.applyRun r es).held r' = if r' = r then es.foldl keepFirst (db.held r')
      else db.held r' := by
  obtain ⟨f, -, -, heq⟩ := db.applyRun_eq hne hrun
  have hsave : (db.saveFlow f).held r' = db.held r' := rfl
  rw [heq, held_foldl_insertEvent, hsave]
  split
  · next h => rw [h, List.filter_eq_self.mpr fun e he => by simp [hrun e he]]
  · next h =>
    have hnil : es.filter (·.runId = r') = [] := by
      rw [List.filter_eq_nil_iff]
      intro e he
      simpa [hrun e he] using Ne.symm h
    rw [hnil]
    rfl

/-- **A batch and a run's events**: of each new number the first is kept. -/
theorem held_applyMany (db : SQLADataSource) (batch : List Event) (r : String) :
    (db.applyMany batch).held r
      = (batch.filter (·.runId = r)).foldl keepFirst (db.held r) :=
  applyMany_part (f := fun db : SQLADataSource => db.held r)
    (g := fun es stored => es.foldl keepFirst stored) (fun _ => rfl)
    (fun _ _ _ hne hrun => held_applyRun hne hrun r) db batch

/-! ### Several batches -/

theorem getFlow_foldl_applyMany (db : SQLADataSource) (batches : List (List Event)) (r : String) :
    (batches.foldl applyMany db).getFlow r
      = applyEvents (db.getFlow r) (batches.flatten.filter (·.runId = r)) := by
  induction batches generalizing db with
  | nil => rfl
  | cons batch batches ih =>
    rw [List.foldl_cons, ih, getFlow_applyMany, List.flatten_cons, List.filter_append, applyEvents,
      applyEvents, applyEvents, List.foldl_append]

theorem held_foldl_applyMany (db : SQLADataSource) (batches : List (List Event)) (r : String) :
    (batches.foldl applyMany db).held r
      = (batches.flatten.filter (·.runId = r)).foldl keepFirst (db.held r) := by
  induction batches generalizing db with
  | nil => rfl
  | cons batch batches ih =>
    rw [List.foldl_cons, ih, held_applyMany, List.flatten_cons, List.filter_append,
      List.foldl_append]

/-! ### Reading -/

/-- The rows that the query returns, as events. -/
theorem map_rows_eq (db : SQLADataSource) (r : String) (since limit : ℤ) :
    ((((db.rowsOf r).filter (since < ·.seq)).insertionSort
        fun a b => a.seq ≤ b.seq).take limit.toNat).map eventFromRow
      = ((sortedBySeq (db.held r)).filter (since < ·.seq)).take limit.toNat := by
  rw [List.map_take]
  congr 1
  have hsort : (((db.rowsOf r).filter (since < ·.seq)).insertionSort
      fun a b => a.seq ≤ b.seq).map eventFromRow
        = sortedBySeq ((db.held r).filter (since < ·.seq)) := by
    have hmap := List.map_insertionSort (r := fun a b : EventRow => a.seq ≤ b.seq)
      (s := fun a b : Event => a.seq ≤ b.seq) eventFromRow
      ((db.rowsOf r).filter (since < ·.seq)) fun _ _ _ _ => Iff.rfl
    rw [hmap, held, List.filter_map]
    rfl
  rw [hsort]
  have hnodup := db.nodup_seq_held r
  -- both list the same events in strict order
  apply eq_of_seqStrict_of_perm
  · exact seqStrict_sortedBySeq (hnodup.sublist (List.filter_sublist.map _))
  · exact (seqStrict_sortedBySeq hnodup).filter _
  · exact (perm_sortedBySeq _).trans ((perm_sortedBySeq _).symm.filter _)

/-- **A page is made of the events stored for the run**: the query's limit and its
lower bound leave out nothing that could be returned. -/
theorem eventsSince_eq (db : SQLADataSource) (r : String) (since : ℤ) {limit : ℤ}
    (hlimit : 1 ≤ limit) :
    db.eventsSince r since limit = .ok (eventPage (sortedBySeq (db.held r)) since limit) := by
  have hsorted := seqSorted_sortedBySeq (db.held r)
  have hstrict := seqStrict_sortedBySeq (db.nodup_seq_held r)
  have holdest : ((db.rowsOf r).map (·.seq)).min? = oldestOf (sortedBySeq (db.held r)) := by
    rw [oldestOf_sortedBySeq, held, List.map_map]
    rfl
  have hselected : contiguousFrom
      (((sortedBySeq (db.held r)).filter (since < ·.seq)).take limit.toNat)
      (startOf (sortedBySeq (db.held r)) since) limit
        = contiguousFrom (sortedBySeq (db.held r)) (startOf (sortedBySeq (db.held r)) since)
            limit := by
    rw [contiguousFrom_take (hstrict.filter _) _ hlimit, contiguousFrom_filter]
    · intro e he hle
      have hstart : since + 1 ≤ startOf (sortedBySeq (db.held r)) since := le_max_left _ _
      simp only [decide_eq_false_iff_not, not_lt] at hle
      omega
    · intro e he
      obtain ⟨he, hlt⟩ := List.mem_filter.mp he
      exact startOf_le hsorted he (by simpa using hlt)
  rw [eventsSince, if_neg (not_lt.mpr hlimit)]
  simp only [map_rows_eq, holdest, expected_eq_startOf, hselected, ← events_eventPage]
  rfl

/-! ### Listing -/

theorem mem_matching {db : SQLADataSource} {filter : FlowFilter} {f : FlowSnapshot} :
    f ∈ db.matching filter
      ↔ db.getFlow f.runId = some f ∧ filter.admits f.state f.bookId = true := by
  rw [matching, List.mem_filter, getFlow, loadFlow, List.mem_map]
  refine and_congr_left fun _ => ?_
  constructor
  · rintro ⟨row, hrow, rfl⟩
    obtain ⟨r, hr⟩ := Dict.mem_values_iff.mp hrow
    have hid : (flowFromRow row).runId = r := db.flows_keyed r row hr
    rw [hid, hr]
    rfl
  · intro hf
    obtain ⟨row, hrow, heq⟩ := Option.map_eq_some_iff.mp hf
    exact ⟨row, Dict.mem_values_iff.mpr ⟨_, hrow⟩, heq⟩

/-- No run is listed twice. -/
theorem nodup_matching (db : SQLADataSource) (filter : FlowFilter) :
    ((db.matching filter).map (·.runId)).Nodup := by
  have hkeys : (db.flows.values.map flowFromRow).map (·.runId) = db.flows.keys := by
    rw [Dict.values, List.map_map, List.map_map]
    exact List.map_congr_left fun p hp => db.flows_keyed p.1 p.2 (Dict.get?_eq_some_iff.mpr hp)
  refine List.Nodup.sublist (List.filter_sublist.map _) ?_
  rw [hkeys]
  exact db.flows.nodup_keys'

theorem sortedBy_matching (db : SQLADataSource) (filter : FlowFilter) :
    SortedBy listKey (sortFlows (db.matching filter)) :=
  sortedBy_sortFlows (db.nodup_matching filter)

theorem listKey_flowFromRow_le_iff {a b : FlowRow} :
    listKey (flowFromRow a) ≤ listKey (flowFromRow b) ↔ a.ListedBefore b :=
  listKey_le_iff

/-- A query answers the page of its rows in the listing order. -/
theorem flowPage_eq (query : List FlowRow) (limit : ℕ) :
    flowPage query limit = pageOf limit (sortFlows (query.map flowFromRow)) := by
  have hsort : (query.insertionSort FlowRow.ListedBefore).map flowFromRow
      = sortFlows (query.map flowFromRow) :=
    List.map_insertionSort _ _ flowFromRow query fun _ _ _ _ => listKey_flowFromRow_le_iff.symm
  rw [← hsort, flowPage]
  generalize query.insertionSort FlowRow.ListedBefore = rows
  have hmore : limit < (rows.take (limit + 1)).length ↔ limit < (rows.map flowFromRow).length := by
    rw [List.length_take, List.length_map]
    omega
  have hwindow : ((rows.take (limit + 1)).take limit).map flowFromRow
      = (rows.map flowFromRow).take limit := by
    rw [List.take_take, min_eq_left (Nat.le_succ limit), List.map_take]
  simp only [pageOf, hmore, hwindow]

theorem listFlows_none (db : SQLADataSource) (filter : FlowFilter) {limit : ℤ}
    (hlimit : 1 ≤ limit) :
    db.listFlows filter limit none = .ok (pageOf limit.toNat (sortFlows (db.matching filter))) := by
  rw [listFlows, if_neg (not_lt.mpr hlimit)]
  dsimp only
  rw [flowPage_eq, matching, List.filter_map]
  rfl

/-- **The page after a row** is made of what has keys above its own, whether or not the
filter admits the row itself. -/
theorem listFlows_some {db : SQLADataSource} (filter : FlowFilter) {limit : ℤ}
    (hlimit : 1 ≤ limit) {f : FlowSnapshot} (hf : db.getFlow f.runId = some f) :
    db.listFlows filter limit (some f.runId)
      = .ok (pageOf limit.toNat
          (after listKey (listKey f) (sortFlows (db.matching filter)))) := by
  obtain ⟨anchor, hanchor, rfl⟩ := Option.map_eq_some_iff.mp hf
  rw [listFlows, if_neg (not_lt.mpr hlimit)]
  dsimp only
  rw [hanchor]
  dsimp only
  -- the key set of the query is what comes after the row
  have hquery : ∀ rows : List FlowRow, (rows.filter fun row => row.observedAt < anchor.observedAt
      ∨ row.observedAt = anchor.observedAt ∧ anchor.runId < row.runId).map flowFromRow
        = after listKey (listKey (flowFromRow anchor)) (rows.map flowFromRow) := by
    intro rows
    rw [after, List.filter_map]
    congr 1
    refine List.filter_congr fun row _ => ?_
    rw [Function.comp_apply, decide_eq_decide, listKey_lt_iff, eq_comm]
    rfl
  have hadmits : (db.flows.values.filter fun row => filter.admits row.state row.bookId).map
      flowFromRow = db.matching filter := by
    rw [matching, List.filter_map]
    rfl
  rw [flowPage_eq, hquery, hadmits, sortFlows_after (db.nodup_matching filter)]

theorem listFlows_unknown {db : SQLADataSource} (filter : FlowFilter) {limit : ℤ}
    (hlimit : 1 ≤ limit) {m : String} (h : db.getFlow m = none) :
    db.listFlows filter limit (some m) = .error (unknownMarker m) := by
  rw [listFlows, if_neg (not_lt.mpr hlimit)]
  dsimp only
  rw [Option.map_eq_none_iff.mp h]

end SQLADataSource

end TaskflowMeter
