import TaskflowMeter.Api.Router
import TaskflowMeter.Events
import TaskflowMeter.Datasource.Base

/-!
# Snapshots and events, rendered as JSON

Every payload carries the links that reach the rest of the API.

* `Json.field?` — a field of a payload.
* `Serializers.atom`, `Serializers.flow`, `Serializers.flowPage`, `Serializers.event`,
  `Serializers.eventPage` — the payloads.
* `Serializers.runUrl` — a link to an endpoint of a run.
* `link_flow`, `link_flowPage`, `link_eventPage` — the links in them.
-/

namespace TaskflowMeter

/-- A field of an object. -/
def Json.field? (name : String) : Json → Option Json
  | .obj fields => fields.lookup name
  | _ => none

/-- A link of a payload. -/
def Json.link? (name : String) (payload : Json) : Option String :=
  match (payload.field? "links").bind (Json.field? name) with
  | some (.str link) => some link
  | _ => none

namespace Serializers

def atom (snapshot : AtomSnapshot) : Json :=
  .obj
    [("name", .str snapshot.name),
      ("uuid", .ofOption snapshot.uuid),
      ("type", .str snapshot.atomType),
      ("state", .ofOption snapshot.state),
      ("intention", .ofOption snapshot.intention),
      ("progress", .num snapshot.progress),
      ("progress_details", snapshot.progressDetails),
      ("completion", .num snapshot.completion),
      ("finished", .bool snapshot.isFinished),
      ("running", .bool snapshot.isRunning),
      ("has_result", .bool snapshot.hasResult),
      ("failure", snapshot.failure),
      ("revert_failure", snapshot.revertFailure)]

/-- A link to an endpoint of a run. -/
def runUrl (request : MeterRequest) (template runId : String)
    (query : List (String × Option String) := []) : String :=
  request.url (formatTemplate template fun _ => runId) query

/-- Render a flow. -/
def flow (snapshot : FlowSnapshot) (request : MeterRequest) (withAtoms withEvents : Bool) : Json :=
  let runId := snapshot.runId
  let links :=
    [("self", Json.str (runUrl request Routes.FLOW runId)),
      ("atoms", .str (runUrl request Routes.ATOMS runId))]
      ++ if withEvents then
        [("events", .str (runUrl request Routes.EVENTS runId)),
          ("stream", .str (runUrl request Routes.STREAM runId))]
      else []
  .obj
    ([("run_id", .str runId),
      ("name", .str snapshot.name),
      ("state", .ofOption snapshot.state),
      ("book_id", .ofOption snapshot.bookId),
      ("book_name", .ofOption snapshot.bookName),
      ("observed_at", .num snapshot.observedAt),
      ("finished", .bool snapshot.isFinished),
      ("completion", .num snapshot.completion),
      ("atom_count", .num snapshot.atoms.entries.length),
      ("running_atoms", .arr (snapshot.runningAtoms.map fun running => .str running.name)),
      ("state_counts", .obj (snapshot.stateCounts.entries.map fun p => (p.1, .num p.2))),
      ("meta", .obj snapshot.«meta».entries),
      ("links", .obj links)]
    ++ if withAtoms then
      [("atoms", .arr ((snapshot.atomNames.filterMap snapshot.atoms.get?).map atom))]
    else [])

def flowPage (page : FlowPage) (request : MeterRequest) (withEvents : Bool) : Json :=
  let links :=
    ("self", Json.str (request.url Routes.FLOWS))
      :: match page.nextMarker with
        | some marker => [("next", .str (request.url Routes.FLOWS [("marker", some marker)]))]
        | none => []
  .obj
    [("flows", .arr (page.items.map fun item => flow item request false withEvents)),
      ("next_marker", .ofOption page.nextMarker),
      ("links", .obj links)]

def event (item : Event) : Json := .obj item.toDict

def eventPage (page : EventPage) (runId : String) (request : MeterRequest) : Json :=
  .obj
    [("events", .arr (page.events.map event)),
      ("next_seq", .num page.nextSeq),
      ("oldest_seq", (page.oldestSeq.map fun o => Json.num o).getD .null),
      ("truncated", .bool page.truncated),
      ("links", .obj
        [("self", .str (runUrl request Routes.EVENTS runId)),
          ("next", .str (runUrl request Routes.EVENTS runId
            [("since_seq", some (toString page.nextSeq))]))])]

/-! ### The links of a payload -/

/-- A link stands among the links of its payload. -/
theorem mem_of_link? {payload : Json} {links : List (String × Json)} {name link : String}
    (hlinks : payload.field? "links" = some (.obj links)) (h : payload.link? name = some link) :
    (name, .str link) ∈ links := by
  rw [Json.link?, hlinks, Option.bind_some, Json.field?] at h
  split at h
  · next link' hlookup =>
    obtain rfl := Option.some.inj h
    obtain ⟨l, l', rfl, -⟩ := List.lookup_eq_some_iff.mp hlookup
    exact List.mem_append_right l List.mem_cons_self
  · cases h

/-- The endpoint of a run that a link names, in a payload of another. -/
def linkEndpoint (endpoint : Endpoint) : String → Endpoint
  | "atoms" => .getAtoms
  | "events" => .getEvents
  | "stream" => .stream
  | _ => endpoint

/-- The links of a flow. -/
theorem link_flow {snapshot : FlowSnapshot} {request : MeterRequest} {withAtoms withEvents : Bool}
    {name link : String} (h : (flow snapshot request withAtoms withEvents).link? name = some link) :
    link = runUrl request (linkEndpoint .getFlow name).template snapshot.runId
      ∧ ∃ rest, (linkEndpoint .getFlow name).ofRun? = some rest := by
  have hmem := mem_of_link? (by cases withAtoms <;> rfl) h
  simp only [List.mem_append, List.mem_cons, List.not_mem_nil, or_false, Prod.mk.injEq,
    Json.str.injEq] at hmem
  rcases hmem with (⟨rfl, rfl⟩ | ⟨rfl, rfl⟩) | hevents
  · exact ⟨rfl, "", rfl⟩
  · exact ⟨rfl, "/atoms", rfl⟩
  · cases withEvents with
    | false => cases hevents
    | true =>
      simp only [if_true, List.mem_cons, List.not_mem_nil, or_false, Prod.mk.injEq,
        Json.str.injEq] at hevents
      rcases hevents with ⟨rfl, rfl⟩ | ⟨rfl, rfl⟩
      · exact ⟨rfl, "/events", rfl⟩
      · exact ⟨rfl, "/stream", rfl⟩

/-- The first two links of a flow. -/
theorem link_flow_self_atoms (snapshot : FlowSnapshot) (request : MeterRequest)
    (withAtoms withEvents : Bool) :
    (flow snapshot request withAtoms withEvents).link? "self"
        = some (runUrl request Routes.FLOW snapshot.runId)
      ∧ (flow snapshot request withAtoms withEvents).link? "atoms"
        = some (runUrl request Routes.ATOMS snapshot.runId) := by
  cases withAtoms <;> exact ⟨rfl, rfl⟩

/-- The links of a page of events. -/
theorem link_eventPage {page : EventPage} {runId : String} {request : MeterRequest}
    {name link : String} (h : (eventPage page runId request).link? name = some link) :
    linkEndpoint .getEvents name = .getEvents
      ∧ ∃ query, link = runUrl request Routes.EVENTS runId query := by
  have hmem := mem_of_link? rfl h
  simp only [List.mem_cons, List.not_mem_nil, or_false, Prod.mk.injEq, Json.str.injEq] at hmem
  rcases hmem with ⟨rfl, rfl⟩ | ⟨rfl, rfl⟩
  · exact ⟨rfl, _, rfl⟩
  · exact ⟨rfl, _, rfl⟩

/-- The link to the next page of flows. -/
theorem link_flowPage (page : FlowPage) (request : MeterRequest) (withEvents : Bool) :
    (flowPage page request withEvents).link? "next"
      = page.nextMarker.map fun marker => request.url Routes.FLOWS [("marker", some marker)] := by
  cases h : page.nextMarker with
  | none => rw [flowPage, h]; rfl
  | some marker => rw [flowPage, h]; rfl

end Serializers

end TaskflowMeter
