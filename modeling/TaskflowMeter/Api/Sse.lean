import TaskflowMeter.Datasource.Base

/-!
# Server-sent events: the cursor that drives a stream

A poll makes two reads: the run's events after the cursor's position and, if there are
none, the flow.  Each read and what is made of it is a function of its own.

## Main definitions

* `Frame` — one SSE frame.
* `EventCursor` — one client's position in one run's event stream.
* `EventCursor.drain`, `EventCursor.close` — what is made of the page, and of the flow.
* `EventCursor.poll` — the two together.
-/

namespace TaskflowMeter

/-- One SSE frame: the data, before it is rendered as JSON text, and the fields. -/
structure Frame where
  data : Json
  event : String
  eventId : Option ℤ := none
  deriving DecidableEq, Repr

/-- Tracks one client's position in one run's event stream. -/
structure EventCursor where
  runId : String
  sinceSeq : ℤ := 0
  batchLimit : ℤ := 200
  /-- Set once the flow has finished. -/
  complete : Bool := false
  deriving DecidableEq, Repr

namespace EventCursor

/-- The client's next event was evicted before it got here. -/
def gapFrame (page : EventPage) : Frame where
  data := .obj [("reason", .str "events_evicted"),
    ("resume_from", (page.oldestSeq.map fun o => Json.num o).getD .null)]
  event := "gap"

def eventFrame (item : Event) : Frame where
  data := .obj item.toDict
  event := item.kind.str
  eventId := some item.seq

def endFrame : Frame where
  data := .obj []
  event := "end"

/-- The frames of a page, and the cursor after it. -/
def drain (cursor : EventCursor) (page : EventPage) : List Frame × EventCursor :=
  ((if page.truncated then [gapFrame page] else []) ++ page.events.map eventFrame,
    { cursor with sinceSeq := page.nextSeq })

def flowFinished (snapshot : Option FlowSnapshot) : Bool := snapshot.any FlowSnapshot.isFinished

/-- The end of the stream, if the flow has finished. -/
def close (cursor : EventCursor) (snapshot : Option FlowSnapshot) : List Frame × EventCursor :=
  if flowFinished snapshot then ([endFrame], { cursor with complete := true }) else ([], cursor)

/-- Frames for everything new since the last call. -/
def poll (cursor : EventCursor) (eventsSince : String → ℤ → ℤ → Except String EventPage)
    (getFlow : String → Option FlowSnapshot) : Except String (List Frame × EventCursor) :=
  match eventsSince cursor.runId cursor.sinceSeq cursor.batchLimit with
  | .error e => .error e
  | .ok page =>
      let drained := cursor.drain page
      if page.events.isEmpty then
        let closed := drained.2.close (getFlow cursor.runId)
        .ok (drained.1 ++ closed.1, closed.2)
      else .ok drained

/-- An event can be told from its frame. -/
theorem eventFrame_injective : Function.Injective eventFrame := by
  intro a b h
  exact Event.toDict_injective (Json.obj.inj (congrArg Frame.data h))

/-- The other frames carry no number. -/
theorem eventFrame_ne {frame : Frame} (h : frame.eventId = none) (item : Event) :
    eventFrame item ≠ frame := by
  intro heq
  rw [← heq] at h
  cases h

/-- The events that a page frames. -/
theorem eventFrame_mem_drain {cursor : EventCursor} {page : EventPage} {item : Event} :
    eventFrame item ∈ (cursor.drain page).1 ↔ item ∈ page.events := by
  have hgap : eventFrame item ∉ (if page.truncated then [gapFrame page] else []) := by
    split
    · rw [List.mem_singleton]
      exact eventFrame_ne rfl item
    · exact List.not_mem_nil
  rw [drain, List.mem_append, List.mem_map, or_iff_right hgap]
  constructor
  · rintro ⟨x, hx, heq⟩
    exact eventFrame_injective heq ▸ hx
  · intro h
    exact ⟨item, h, rfl⟩

theorem eventFrame_notMem_close {cursor : EventCursor} {snapshot : Option FlowSnapshot}
    {item : Event} : eventFrame item ∉ (cursor.close snapshot).1 := by
  rw [close]
  split
  · rw [List.mem_singleton]
    exact eventFrame_ne rfl item
  · exact List.not_mem_nil

/-- No page ends the stream. -/
theorem endFrame_notMem_drain {cursor : EventCursor} {page : EventPage} :
    endFrame ∉ (cursor.drain page).1 := by
  have hgap : endFrame ∉ (if page.truncated then [gapFrame page] else []) := by
    split
    · rw [List.mem_singleton]
      intro h
      have hevent : "end" = "gap" := congrArg Frame.event h
      exact absurd hevent (by decide)
    · exact List.not_mem_nil
  rw [drain, List.mem_append, List.mem_map, or_iff_right hgap]
  rintro ⟨x, -, heq⟩
  exact eventFrame_ne rfl x heq

end EventCursor

end TaskflowMeter
