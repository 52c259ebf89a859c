import TaskflowMeter.Models

/-!
# The single event shape every producer emits

## Main definitions

* `EventKind`, `Event` — one observation about one flow run.
* `Event.toDict` — an event as a JSON object.
* `SequenceAllocator` — per-run sequence numbers, starting at 1.

## Main results

* `Event.toDict_injective` — an event can be told from its JSON object.
-/

namespace TaskflowMeter

/-- What an event is reporting. -/
inductive EventKind where
  | flowState
  | atomState
  | atomProgress
  | flowStructure
  | flowResult
  | heartbeat
  deriving DecidableEq, Repr, Inhabited

namespace EventKind

/-- The value that goes on the wire. -/
def str : EventKind → String
  | flowState => "flow_state"
  | atomState => "atom_state"
  | atomProgress => "atom_progress"
  | flowStructure => "flow_structure"
  | flowResult => "flow_result"
  | heartbeat => "heartbeat"

/-- `EventKind(value)`: no member for any other string. -/
def ofStr (s : String) : Option EventKind :=
  [flowState, atomState, atomProgress, flowStructure, flowResult, heartbeat].find? fun k =>
    k.str = s

theorem ofStr_str (k : EventKind) : ofStr k.str = some k := by cases k <;> decide

end EventKind

/-- One observation about one flow run. -/
structure Event where
  runId : String
  seq : ℤ
  ts : ℚ
  kind : EventKind
  bookId : Option String := none
  atomName : Option String := none
  atomUuid : Option String := none
  atomType : Option String := none
  state : Option String := none
  oldState : Option String := none
  intention : Option String := none
  progress : Option ℚ := none
  details : Dict String Json := ∅
  deriving DecidableEq, Repr, Inhabited

namespace Event

/-- `event.details.get(key)`. -/
def detail (event : Event) (key : String) : Json := event.details.getD key .null

/-- Render to plain JSON-serialisable types. -/
def toDict (event : Event) : List (String × Json) :=
  [("run_id", .str event.runId),
   ("seq", .num event.seq),
   ("ts", .num event.ts),
   ("kind", .str event.kind.str),
   ("book_id", .ofOption event.bookId),
   ("atom_name", .ofOption event.atomName),
   ("atom_uuid", .ofOption event.atomUuid),
   ("atom_type", .ofOption event.atomType),
   ("state", .ofOption event.state),
   ("old_state", .ofOption event.oldState),
   ("intention", .ofOption event.intention),
   ("progress", (event.progress.map Json.num).getD .null),
   ("details", .obj event.details.entries)]

/-- Rendering loses nothing. -/
theorem toDict_injective : Function.Injective toDict := by
  have hoption : Function.Injective Json.ofOption := by
    intro a b h
    cases a <;> cases b <;> simp_all [Json.ofOption]
  have hprogress : Function.Injective fun q : Option ℚ => (q.map Json.num).getD .null := by
    intro a b h
    cases a <;> cases b <;> simp_all
  have hkind : Function.Injective EventKind.str := by
    intro a b h
    have hof := congrArg EventKind.ofStr h
    rw [EventKind.ofStr_str, EventKind.ofStr_str] at hof
    exact Option.some.inj hof
  intro a b h
  simp only [toDict, List.cons.injEq, Prod.mk.injEq, true_and, Json.str.injEq, Json.num.injEq,
    Json.obj.injEq, and_true] at h
  obtain ⟨hrun, hseq, hts, hk, hbook, hname, huuid, htype, hstate, hold, hint, hprog, hdetails⟩ := h
  cases a
  cases b
  simp only [Event.mk.injEq]
  exact ⟨hrun, by exact_mod_cast hseq, hts, hkind hk, hoption hbook, hoption hname, hoption huuid,
    hoption htype, hoption hstate, hoption hold, hoption hint, hprogress hprog,
    Dict.ext_entries hdetails⟩

end Event

/-- The events of a run. -/
def ofRun (runId : String) (events : List Event) : List Event := events.filter (·.runId = runId)

theorem ofRun_append (r : String) (es es' : List Event) :
    ofRun r (es ++ es') = ofRun r es ++ ofRun r es' := List.filter_append _ _

theorem ofRun_singleton (r : String) (e : Event) :
    ofRun r [e] = if r = e.runId then [e] else [] := by
  rw [ofRun, List.filter_singleton]
  by_cases h : r = e.runId
  · simp [h]
  · simp [h, Ne.symm h]

theorem ofRun_eq_self {r : String} {es : List Event} (h : ∀ e ∈ es, e.runId = r) :
    ofRun r es = es := by
  rw [ofRun, List.filter_eq_self]
  intro e he
  exact decide_eq_true (h e he)

theorem ofRun_eq_nil {r r' : String} {es : List Event} (h : ∀ e ∈ es, e.runId = r) (hne : r' ≠ r) :
    ofRun r' es = [] := by
  rw [ofRun, List.filter_eq_nil_iff]
  intro e he
  simpa [h e he] using Ne.symm hne

/-- A liveness event of `run-1`. -/
def heartbeat (seq : ℤ) : Event where
  runId := "run-1"
  seq := seq
  ts := 0
  kind := .heartbeat

/-- The state of `run-1` itself changes. -/
def flowEvent (seq : ℤ) (state : String) : Event where
  runId := "run-1"
  seq := seq
  ts := seq
  kind := .flowState
  state := some state

/-- Hands out gap-free per-run sequence numbers, starting at 1. -/
structure SequenceAllocator where
  counters : Dict String ℤ := ∅
  deriving DecidableEq, Repr, Inhabited

namespace SequenceAllocator

/-- The last number handed out, or 0 if none has been. -/
def peek (allocator : SequenceAllocator) (runId : String) : ℤ := allocator.counters.getD runId 0

/-- The next sequence number for `runId`, and the allocator after handing it out. -/
def allocate (allocator : SequenceAllocator) (runId : String) : ℤ × SequenceAllocator :=
  let nxt := allocator.counters.getD runId 0 + 1
  (nxt, ⟨allocator.counters.set runId nxt⟩)

/-- Drop the counter for a run that is finished and expired. -/
def forget (allocator : SequenceAllocator) (runId : String) : SequenceAllocator :=
  ⟨allocator.counters.erase runId⟩

theorem peek_allocate (a : SequenceAllocator) (runId r : String) :
    (a.allocate runId).2.peek r = if r = runId then a.peek runId + 1 else a.peek r := by
  rw [peek, allocate, Dict.getD, Dict.get?_set]
  split <;> rfl

end SequenceAllocator

end TaskflowMeter
