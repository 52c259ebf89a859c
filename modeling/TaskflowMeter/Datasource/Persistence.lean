import TaskflowMeter.Datasource.Listing

/-!
# Reading taskflow's own persistence layer

A backend holds logbooks, these hold flow details, and these atom details.  Flow details
carry no time of their own: each is stamped with a reading of the clock when it is
scanned, and every page of a listing scans the backend again.

## Main definitions

* `AtomDetail`, `FlowDetail`, `LogBook` — what taskflow stores.
* `atomSnapshot`, `flowSnapshot` — how it is shown.
* `PersistenceDataSource.scan` — one walk through every logbook.
* `PersistenceDataSource.listFlows` — a page of a scan.
* `PersistenceDataSource.matched` — the flow details that a filter admits, in scan order.

## Main results

* `scan_filter` — the matching part of a scan, whatever the clock says.
-/

namespace TaskflowMeter

open Paging

/-- taskflow's name for a task detail. -/
def TASK_DETAIL : String := "TASK_DETAIL"

def META_PROGRESS : String := "progress"
def META_PROGRESS_DETAILS : String := "progress_details"

/-- A taskflow `Failure`: what it renders to, unless rendering raises, and its `repr`. -/
structure Failure where
  toDict : Option (Dict String Json)
  repr : String
  deriving DecidableEq, Repr

/-- Render a failure, tolerating anything that is not one. -/
def failureDict : Option Failure → Json
  | none => .null
  | some failure =>
      match failure.toDict with
      | some fields => .obj fields.entries
      | none => .obj [("unserialisable", .str failure.repr)]

/-- What taskflow stores of an atom.  The progress is a number, as the engine writes it. -/
structure AtomDetail where
  name : String
  uuid : String
  detailType : String := TASK_DETAIL
  state : Option String := none
  intention : Option String := none
  «meta» : Option (Dict String Json) := none
  failure : Option Failure := none
  revertFailure : Option Failure := none
  results : Option Json := none
  progress_eq_num : ∀ m ∈ «meta», ∀ v, m.get? META_PROGRESS = some v → v = .null ∨ ∃ q, v = .num q
    := by simp

/-- What taskflow stores of a run. -/
structure FlowDetail where
  uuid : String
  name : String := ""
  state : Option String := none
  «meta» : Option (Dict String Json) := none
  atoms : List AtomDetail := []

/-- A logbook, with the time it was created at if that is known. -/
structure LogBook where
  uuid : String
  name : String := ""
  createdAt : Option ℚ := none
  flows : List FlowDetail := []

def atomSnapshot (detail : AtomDetail) : AtomSnapshot :=
  let «meta» := detail.«meta».getD ∅
  { name := detail.name
    uuid := some detail.uuid
    atomType := if detail.detailType = TASK_DETAIL then TASK else RETRY
    state := detail.state
    intention := detail.intention
    progress :=
      match «meta».getD META_PROGRESS .null with
      | .num q => q
      | _ => 0
    progressDetails := «meta».getD META_PROGRESS_DETAILS .null
    failure := failureDict detail.failure
    revertFailure := failureDict detail.revertFailure
    -- only the presence of a result is reported
    hasResult := detail.results.isSome
    «meta» := «meta» }

/-- A flow detail of a book, observed at a time. -/
def flowSnapshot (detail : FlowDetail) (bookId bookName : Option String) (bookCreatedAt : Option ℚ)
    (observedAt : ℚ) : FlowSnapshot :=
  let «meta» := detail.«meta».getD ∅
  { runId := detail.uuid
    name := detail.name
    state := detail.state
    bookId := bookId
    bookName := bookName
    observedAt := observedAt
    «meta» :=
      match bookCreatedAt with
      | some created =>
          if "book_created_at" ∈ «meta».keys then «meta»
            else «meta».set "book_created_at" (.num created)
      | none => «meta»
    atoms := detail.atoms.foldl (fun atoms atom => atoms.set atom.name (atomSnapshot atom)) ∅ }

/-- A read-only view of a backend, in which each run is in one logbook. -/
structure PersistenceDataSource where
  books : List LogBook := []
  nodup_uuids : ((books.flatMap (·.flows)).map (·.uuid)).Nodup := by decide

namespace PersistenceDataSource

/-- Every flow detail with its book, in scan order. -/
def details (source : PersistenceDataSource) : List (LogBook × FlowDetail) :=
  source.books.flatMap fun book => book.flows.map fun detail => (book, detail)

/-- A flow detail as it is shown at a time. -/
def shownAt (p : LogBook × FlowDetail) (observedAt : ℚ) : FlowSnapshot :=
  flowSnapshot p.2 (some p.1.uuid) (some p.1.name) p.1.createdAt observedAt

/-- Walk every logbook.  The clock is read once for each flow detail, after the `reads`
readings made before. -/
def scan (source : PersistenceDataSource) (clock : ℕ → ℚ) (reads : ℕ) : List FlowSnapshot :=
  (source.details.zipIdx reads).map fun p => shownAt p.1 (clock p.2)

/-- A page of what is scanned for it. -/
def listFlows (source : PersistenceDataSource) (clock : ℕ → ℚ) (reads : ℕ) (filter : FlowFilter)
    (limit : ℤ) (marker : Option String) : Except ListError FlowPage :=
  if limit < 1 then .error limitTooLow
  else
    listPage
      (sortFlows ((source.scan clock reads).filter fun flow =>
        filter.admits flow.state flow.bookId))
      limit.toNat marker

/-- The flow details that a filter admits, each with its position in a scan. -/
def matched (source : PersistenceDataSource) (filter : FlowFilter) :
    List ((LogBook × FlowDetail) × ℕ) :=
  source.details.zipIdx.filter fun p => filter.admits p.1.2.state (some p.1.1.uuid)

/-- The run id of a flow detail. -/
def idOf (p : (LogBook × FlowDetail) × ℕ) : String := p.1.2.uuid

/-- Whatever the clock says, **the matching part of a scan** is made of the same flow
details. -/
theorem scan_filter (source : PersistenceDataSource) (clock : ℕ → ℚ) (reads : ℕ)
    (filter : FlowFilter) :
    ((source.scan clock reads).filter fun flow => filter.admits flow.state flow.bookId)
      = (source.matched filter).map fun p => shownAt p.1 (clock (reads + p.2)) := by
  rw [scan, matched, List.zipIdx_eq_map_add, List.map_map, List.filter_map]
  rfl

/-- The positions of a scan increase. -/
theorem pairwise_matched (source : PersistenceDataSource) (filter : FlowFilter) :
    (source.matched filter).Pairwise fun p q => p.2 < q.2 := by
  refine List.Pairwise.filter _ ?_
  rw [← List.pairwise_map (f := Prod.snd) (R := fun i j => i < j), List.zipIdx_map_snd]
  exact List.pairwise_lt_range'

/-- No run is matched twice. -/
theorem nodup_matched (source : PersistenceDataSource) (filter : FlowFilter) :
    ((source.matched filter).map idOf).Nodup := by
  have hids : source.details.zipIdx.map idOf = (source.books.flatMap (·.flows)).map (·.uuid) := by
    have hfst : source.details.zipIdx.map idOf
        = (source.details.zipIdx.map Prod.fst).map fun d => d.2.uuid := by
      rw [List.map_map]
      rfl
    rw [hfst, List.zipIdx_map_fst, details, List.map_flatMap, List.map_flatMap]
    refine List.flatMap_congr fun book _ => ?_
    rw [List.map_map]
    rfl
  refine List.Nodup.sublist (List.filter_sublist.map idOf) ?_
  rw [hids]
  exact source.nodup_uuids

theorem snd_lt_of_mem_matched {source : PersistenceDataSource} {filter : FlowFilter}
    {p : (LogBook × FlowDetail) × ℕ} (h : p ∈ source.matched filter) :
    p.2 < source.details.length :=
  List.snd_lt_of_mem_zipIdx (List.mem_of_mem_filter h)

end PersistenceDataSource

end TaskflowMeter
