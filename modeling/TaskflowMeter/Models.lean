import TaskflowMeter.Json
import TaskflowMeter.Lib.Dict
import TaskflowMeter.States

/-!
# Point-in-time view of a flow and its atoms

## Main definitions

* `AtomSnapshot`, `FlowSnapshot` — what is known about an atom, and about a run.
* `AtomSnapshot.completion`, `FlowSnapshot.completion` — how far along they are.
* `FlowSnapshot.runningAtoms`, `FlowSnapshot.stateCounts` — the atoms executing right now, in
  name order, and how many are in each state.

## Main results

* `FlowSnapshot.completion_congr` — the completion of a flow depends only on the
  state and the progress of each atom, not on the order the atoms are kept in.
-/

namespace TaskflowMeter

def TASK : String := "task"
def RETRY : String := "retry"

/-- What is known about a single atom at one moment.  The fields declared
`dict | None` in the source are `Json`, with `Json.null` for `None`. -/
structure AtomSnapshot where
  name : String
  uuid : Option String := none
  atomType : String := TASK
  state : Option String := none
  intention : Option String := none
  progress : ℚ := 0
  progressDetails : Json := .null
  failure : Json := .null
  revertFailure : Json := .null
  hasResult : Bool := false
  «meta» : Dict String Json := ∅
  deriving DecidableEq, Repr, Inhabited

/-- What is known about one flow run at one moment. -/
structure FlowSnapshot where
  runId : String
  name : String := ""
  state : Option String := none
  bookId : Option String := none
  bookName : Option String := none
  observedAt : ℚ := 0
  «meta» : Dict String Json := ∅
  atoms : Dict String AtomSnapshot := ∅
  deriving DecidableEq, Repr, Inhabited

/-- `state in group`, where an absent state is in no group. -/
def inStates (state : Option String) (group : List String) : Bool :=
  state.any fun s => group.contains s

/-- Confine a value to an interval. -/
def clamp (value : ℚ) (low : ℚ := 0) (high : ℚ := 1) : ℚ := max low (min high value)

namespace AtomSnapshot

def isFinished (atom : AtomSnapshot) : Bool := inStates atom.state States.ATOM_FINISH_STATES

def isRunning (atom : AtomSnapshot) : Bool := inStates atom.state States.ATOM_RUNNING_STATES

/-- This atom's contribution to flow completion.  Reported progress is only
trusted while the atom is running. -/
def completion (atom : AtomSnapshot) : ℚ :=
  if inStates atom.state States.ATOM_COMPLETE_STATES then 1
  else if atom.isRunning then clamp atom.progress
  else 0

theorem isRunning_congr {a b : AtomSnapshot} (h : a.state = b.state) :
    a.isRunning = b.isRunning := by rw [isRunning, isRunning, h]

theorem completion_congr {a b : AtomSnapshot} (hs : a.state = b.state)
    (hp : a.progress = b.progress) : a.completion = b.completion := by
  rw [completion, completion, isRunning_congr hs, hs, hp]

end AtomSnapshot

namespace FlowSnapshot

def isFinished (flow : FlowSnapshot) : Bool := inStates flow.state States.FLOW_FINISH_STATES

/-- Atom names in a stable order. -/
def atomNames (flow : FlowSnapshot) : List String := flow.atoms.keys.insertionSort (· ≤ ·)

/-- The atoms executing right now, in name order. -/
def runningAtoms (flow : FlowSnapshot) : List AtomSnapshot :=
  flow.atomNames.filterMap fun name => (flow.atoms.get? name).filter AtomSnapshot.isRunning

/-- How many atoms are in each state. -/
def stateCounts (flow : FlowSnapshot) : Dict String ℕ :=
  flow.atoms.values.foldl
    (fun counts atom =>
      let key := atom.state.getD "UNKNOWN"
      counts.set key (counts.getD key 0 + 1))
    ∅

/-- Unweighted mean of the atoms' completion.  The sum is exact: the source adds floats in the order
of its dictionary, and rounds as it goes. -/
def completion (flow : FlowSnapshot) : ℚ :=
  if flow.atoms.values.isEmpty then 0
  else (flow.atoms.values.map AtomSnapshot.completion).sum / flow.atoms.values.length

/-- The atoms' own names are the keys they are kept under. -/
def Keyed (flow : FlowSnapshot) : Prop :=
  ∀ name atom, flow.atoms.get? name = some atom → atom.name = name

instance (flow : FlowSnapshot) : Decidable flow.Keyed :=
  decidable_of_iff (∀ p ∈ flow.atoms.entries, p.2.name = p.1)
    ⟨fun h name atom hatom => h (name, atom) (Dict.get?_eq_some_iff.mp hatom),
      fun h p hp => h p.1 p.2 (Dict.get?_eq_some_iff.mpr hp)⟩

theorem mem_atomNames {flow : FlowSnapshot} {name : String} :
    name ∈ flow.atomNames ↔ name ∈ flow.atoms.keys :=
  (List.perm_insertionSort _ _).mem_iff

theorem nodup_atomNames (flow : FlowSnapshot) : flow.atomNames.Nodup :=
  (List.perm_insertionSort _ _).nodup_iff.mpr flow.atoms.nodup_keys'

/-- Two flows with the same atom names list them in the same order. -/
theorem atomNames_congr {f g : FlowSnapshot}
    (h : ∀ name, name ∈ f.atoms.keys ↔ name ∈ g.atoms.keys) :
    f.atomNames = g.atomNames := by
  have hperm : f.atoms.keys.Perm g.atoms.keys :=
    (List.perm_ext_iff_of_nodup f.atoms.nodup_keys' g.atoms.nodup_keys').mpr h
  exact List.Perm.eq_of_pairwise (fun a b _ _ hab hba => le_antisymm hab hba)
    (List.pairwise_insertionSort _ _) (List.pairwise_insertionSort _ _)
    ((List.perm_insertionSort _ _).trans (hperm.trans (List.perm_insertionSort _ _).symm))

theorem isFinished_congr {f g : FlowSnapshot} (h : f.state = g.state) :
    f.isFinished = g.isFinished := by rw [isFinished, isFinished, h]

/-- The completion of a flow is determined by its atoms' state and progress. -/
theorem completion_congr {f g : FlowSnapshot}
    (h : ∀ name, (f.atoms.get? name).map AtomSnapshot.completion
      = (g.atoms.get? name).map AtomSnapshot.completion) : f.completion = g.completion := by
  have hkeys : f.atoms.keys.toFinset = g.atoms.keys.toFinset := by
    ext name
    have hn := congrArg Option.isSome (h name)
    rw [Option.isSome_map, Option.isSome_map] at hn
    rw [List.mem_toFinset, List.mem_toFinset, Dict.mem_keys_iff_isSome,
      Dict.mem_keys_iff_isSome, hn]
  have hlen : f.atoms.values.length = g.atoms.values.length := by
    rw [Dict.length_values, Dict.length_values, hkeys]
  have hsum : (f.atoms.values.map AtomSnapshot.completion).sum
      = (g.atoms.values.map AtomSnapshot.completion).sum := by
    rw [Dict.sum_values, Dict.sum_values, hkeys]
    refine Finset.sum_congr rfl fun name _ => ?_
    have hn := h name
    cases hf : f.atoms.get? name <;> cases hg : g.atoms.get? name <;> simp_all
  have hempty : f.atoms.values.isEmpty = g.atoms.values.isEmpty := by
    rw [Bool.eq_iff_iff, List.isEmpty_iff_length_eq_zero, List.isEmpty_iff_length_eq_zero, hlen]
  rw [completion, completion, hempty, hsum, hlen]

end FlowSnapshot

end TaskflowMeter
