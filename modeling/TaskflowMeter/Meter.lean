import TaskflowMeter.Datasource.Persistence
import TaskflowMeter.Datasource.Writable

/-!
# The meter: one source, optionally one store

* `DataSource` — what every datasource answers, whatever it is.
* `Meter` — a source and perhaps a store; queries go to the store where there is one.
-/

namespace TaskflowMeter

/-- Read access to observed flows. -/
structure DataSource where
  /-- Whether `eventsSince` can return a history. -/
  supportsEvents : Bool := true
  listFlows : FlowFilter → ℤ → Option String → Except ListError FlowPage
  getFlow : String → Option FlowSnapshot
  eventsSince : String → ℤ → ℤ → Except String EventPage
  /-- A flow's atoms in name order. -/
  getAtoms : String → Option (List AtomSnapshot) := fun runId =>
    (getFlow runId).map fun flow => flow.atomNames.filterMap flow.atoms.get?

/-- A store, as what it answers. -/
def WritableDataSource.toDataSource (store : WritableDataSource) : DataSource where
  listFlows := store.listFlows
  getFlow := store.getFlow
  eventsSince := store.eventsSince

structure Meter where
  source : DataSource
  store : Option DataSource := none

namespace Meter

/-- Where queries are answered from: the store wins when there is one. -/
def reader (meter : Meter) : DataSource := meter.store.getD meter.source

def supportsEvents (meter : Meter) : Bool := meter.reader.supportsEvents

def listFlows (meter : Meter) : FlowFilter → ℤ → Option String → Except ListError FlowPage :=
  meter.reader.listFlows

def getFlow (meter : Meter) : String → Option FlowSnapshot := meter.reader.getFlow

def getAtoms (meter : Meter) : String → Option (List AtomSnapshot) := meter.reader.getAtoms

def eventsSince (meter : Meter) : String → ℤ → ℤ → Except String EventPage :=
  meter.reader.eventsSince

end Meter

/-! ### A store of nothing -/

theorem one_le_default : 1 ≤ DEFAULT_MAX_EVENTS_PER_RUN := by decide

theorem unbounded : ∀ m ∈ (none : Option ℕ), 1 ≤ m := by simp

theorem kept_empty : ∀ runId run, (∅ : Dict String Run).get? runId = some run →
    run.KeptAs runId DEFAULT_MAX_EVENTS_PER_RUN := by simp

/-- A store of nothing. -/
def noRuns : MemoryDataSource where
  one_le_maxEventsPerRun := one_le_default
  one_le_maxRuns := unbounded
  kept := kept_empty

end TaskflowMeter
