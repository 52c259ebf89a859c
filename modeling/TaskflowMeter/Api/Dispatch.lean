import TaskflowMeter.Api.Service
import TaskflowMeter.Api.Templates
import TaskflowMeter.Lib.Results
import TaskflowMeter.Poller

/-!
# From a request to a response

Every request is answered: by a handler, or with an error of our own rendered as JSON.

## Main definitions

* `StreamResponse`, `Dispatcher.Result` — what a request is answered with.
* `Dispatcher.handle`, `Dispatcher.invoke` — the handler of an endpoint, and what is left of its
  response for a HEAD.
* `Dispatcher.dispatch` — the whole.
* `Passes` — a request passes every check of its endpoint.

## Main results

* `dispatch_head_iff` — **a HEAD is the GET without its body exactly where no check fails.**
-/

namespace TaskflowMeter

open Results

def SSE_HEADERS : List (String × String) :=
  [("content-type", "text/event-stream; charset=utf-8"), ("cache-control", "no-cache"),
    ("x-accel-buffering", "no")]

/-- A response that is driven, rather than just written. -/
structure StreamResponse where
  cursor : EventCursor
  status : ℕ := 200
  headers : List (String × String) := SSE_HEADERS
  deriving DecidableEq

/-- What a request is answered with. -/
inductive Dispatcher.Result where
  | response (response : MeterResponse)
  | stream (stream : StreamResponse)

def Dispatcher.Result.status : Dispatcher.Result → ℕ
  | response r => r.status
  | stream s => s.status

/-- What a meter reports of itself. -/
structure Vitals where
  version : String
  running : Bool := false
  poller : Option PollStats := none

namespace Vitals

def poller? (stats : PollStats) : Json :=
  .obj
    [("polls", .num stats.polls), ("events", .num stats.events), ("errors", .num stats.errors),
      ("flows_seen", .num stats.flowsSeen), ("last_error", .ofOption stats.lastError)]

end Vitals

def MeterService.health (service : MeterService) (vitals : Vitals) : Json :=
  .obj
    [("status", .str "ok"), ("version", .str vitals.version), ("running", .bool vitals.running),
      ("supports_events", .bool service.meter.supportsEvents),
      ("poller", (vitals.poller.map Vitals.poller?).getD .null)]

/-- Turns a request into a response, or an error into one. -/
structure Dispatcher where
  service : MeterService
  vitals : Vitals
  router : Router Endpoint := theRouter
  /-- The run ids that hold a lone surrogate. -/
  unencodable : String → Bool := fun _ => false

namespace Dispatcher

/-- The methods that an endpoint is said to allow. -/
def allow (methods : List String) : String :=
  ", ".intercalate ((methods ++ ["HEAD", "OPTIONS"]).dedup.insertionSort (· ≤ ·))

/-- What a handler returns. -/
def handle (d : Dispatcher) (endpoint : Endpoint) (request : MeterRequest) : Except Raised Result :=
  match endpoint with
  | .health => .ok (.response (.json (d.service.health d.vitals)))
  | .listFlows =>
      (d.service.listFlows request d.unencodable).map fun payload => .response (.json payload)
  | .getFlow => (d.service.getFlow request).map fun payload => .response (.json payload)
  | .getAtoms => (d.service.getAtoms request).map fun payload => .response (.json payload)
  | .getEvents => (d.service.getEvents request).map fun payload => .response (.json payload)
  | .stream => (d.service.stream request).map fun cursor => .stream { cursor := cursor }

/-- A HEAD has no body, but the headers of one. -/
def withoutBody (method : String) : Result → Result
  | .response r => if method = "HEAD" then .response { r with body := [] } else .response r
  | .stream s => .stream s

def invoke (d : Dispatcher) (route : Route Endpoint) (request : MeterRequest) :
    Except Raised Result :=
  (d.handle route.handler request).map (withoutBody request.method)

/-- An answer without a handler: what is allowed here. -/
def options (d : Dispatcher) (request : MeterRequest) : Except Raised Result :=
  let allowed := (d.router.routes.filter fun route =>
    (d.router.matchPath route.method request.path).outcome = .matched).map Route.method
  if allowed = [] then .error (notFound ("no such endpoint: " ++ request.path))
  else .ok (.response { status := 204, headers := [("allow", allow allowed)] })

/-- A HEAD is routed as a GET. -/
def wanted (method : String) : String := if method = "HEAD" then "GET" else method

/-- Route and run. -/
def route (d : Dispatcher) (request : MeterRequest) : Except Raised Result :=
  if request.method = "OPTIONS" then d.options request
  else
    let found := d.router.matchPath (wanted request.method) request.path
    match found.outcome, found.route with
    | .matched, some route => d.invoke route { request with pathParams := found.params }
    | .methodNotAllowed, _ =>
        .error (.api
          { kind := .methodNotAllowed
            detail := request.method ++ " is not allowed here"
            headers := [("allow", allow found.allowed)] })
    | _, _ => .error (notFound ("no such endpoint: " ++ request.path))

/-- Route and run, rendering our own errors as JSON.  What is none of ours is raised. -/
def dispatch (d : Dispatcher) (request : MeterRequest) : Except Raised Result :=
  match d.route request with
  | .error (.api error) => .ok (.response (.fromError error))
  | answered => answered

end Dispatcher

/-! ### Checks -/

/-- A parameter is there, and is no integer. -/
def BadInt (request : MeterRequest) (name : String) : Prop :=
  ∃ raw, request.get name = some raw ∧ raw ≠ "" ∧ PyInt.int? raw request.maxStrDigits = none

/-- The limit is no integer, or is too low. -/
def BadLimit (request : MeterRequest) : Prop :=
  BadInt request "limit"
    ∨ ∃ raw n, request.get "limit" = some raw ∧ raw ≠ ""
      ∧ PyInt.int? raw request.maxStrDigits = some n ∧ n < 1

/-- What says where to resume a stream is no integer: a parameter, or the header that is looked at
where there is none. -/
def BadResume (request : MeterRequest) : Prop :=
  BadInt request "since_seq"
    ∨ request.get "since_seq" = none
      ∧ ∃ header, request.headers.get? "last-event-id" = some header
        ∧ PyInt.int? header request.maxStrDigits = none

theorem getInt_of_bad {request : MeterRequest} {name : String} (h : BadInt request name)
    (default : ℤ) :
    ∃ detail, request.getInt name default = .error (badRequest detail) := by
  obtain ⟨raw, hget, hne, hint⟩ := h
  rw [MeterRequest.getInt, hget]
  dsimp only
  rw [if_neg hne, hint]
  exact ⟨_, rfl⟩

theorem getInt_of_not_bad {request : MeterRequest} {name : String} (h : ¬ BadInt request name)
    (default : ℤ) :
    request.getInt name default = .ok default
      ∨ ∃ raw n, request.get name = some raw ∧ raw ≠ ""
        ∧ PyInt.int? raw request.maxStrDigits = some n ∧ request.getInt name default = .ok n := by
  rw [MeterRequest.getInt]
  cases hget : request.get name with
  | none => exact .inl rfl
  | some raw =>
    dsimp only
    by_cases hne : raw = ""
    · exact .inl (if_pos hne)
    · rw [if_neg hne]
      cases hint : PyInt.int? raw request.maxStrDigits with
      | none => exact absurd ⟨raw, hget, hne, hint⟩ h
      | some n => exact .inr ⟨raw, n, rfl, hne, hint, rfl⟩

namespace MeterService

theorem limit_of_bad {request : MeterRequest} (h : BadLimit request) (service : MeterService)
    (default : ℤ) : ∃ detail, service.limit request default = .error (badRequest detail) := by
  rw [MeterService.limit]
  by_cases hbad : BadInt request "limit"
  · obtain ⟨detail, hdetail⟩ := getInt_of_bad hbad default
    rw [hdetail]
    exact ⟨detail, rfl⟩
  · obtain ⟨raw, n, hget, hne, hint, hlow⟩ := h.resolve_left hbad
    have hok : request.getInt "limit" default = .ok n := by
      rw [MeterRequest.getInt, hget]
      dsimp only
      rw [if_neg hne, hint]
    rw [hok]
    exact ⟨_, if_pos hlow⟩

theorem limit_of_not_bad {request : MeterRequest} (h : ¬ BadLimit request) (service : MeterService)
    {default : ℤ} (hdefault : 1 ≤ default) : ∃ limit,
      service.limit request default = .ok limit := by
  rw [MeterService.limit]
  obtain ⟨hint, hlow⟩ := not_or.mp h
  rcases getInt_of_not_bad hint default with hok | ⟨raw, n, hget, hne, hn, hok⟩
  · rw [hok]
    exact ⟨_, if_neg (not_lt.mpr hdefault)⟩
  · rw [hok]
    exact ⟨_, if_neg fun hlt => hlow ⟨raw, n, hget, hne, hn, hlt⟩⟩

theorem resumePoint_of_bad {request : MeterRequest} (h : BadResume request) :
    ∃ detail, resumePoint request = .error (badRequest detail) := by
  rw [resumePoint]
  rcases h with hbad | ⟨hget, header, hheader, hint⟩
  · obtain ⟨raw, hget, -⟩ := id hbad
    rw [hget]
    exact getInt_of_bad hbad 0
  · rw [hget]
    dsimp only
    rw [hheader]
    dsimp only
    rw [hint]
    exact ⟨_, rfl⟩

theorem resumePoint_of_not_bad {request : MeterRequest} (h : ¬ BadResume request) :
    ∃ since, resumePoint request = .ok since := by
  rw [resumePoint]
  obtain ⟨hbad, hheader⟩ := not_or.mp h
  cases hget : request.get "since_seq" with
  | some raw =>
    rcases getInt_of_not_bad hbad 0 with hok | ⟨_, n, _, _, _, hok⟩
    · exact ⟨_, hok⟩
    · exact ⟨_, hok⟩
  | none =>
    cases hlast : request.headers.get? "last-event-id" with
    | none => exact ⟨0, rfl⟩
    | some header =>
      dsimp only
      cases hint : PyInt.int? header request.maxStrDigits with
      | none => exact absurd ⟨hget, header, hlast, hint⟩ hheader
      | some n => exact ⟨n, rfl⟩

end MeterService

/-- An endpoint needs a history that the datasource does not keep. -/
def NoHistory (service : MeterService) : Endpoint → Prop
  | .health | .listFlows | .getFlow | .getAtoms => False
  | .getEvents | .stream => service.meter.supportsEvents = false

/-- An endpoint of a run is asked for one that is not there. -/
def Missing (service : MeterService) (runId : String) : Endpoint → Prop
  | .health | .listFlows => False
  | .getAtoms => service.meter.getAtoms runId = none
  | .getFlow | .getEvents | .stream => service.meter.getFlow runId = none

/-- The listing does not know the marker. -/
def UnknownMarker (service : MeterService) (request : MeterRequest) : Prop :=
  ∃ limit message, service.limit request DEFAULT_FLOW_LIMIT = .ok limit
    ∧ service.meter.listFlows
        { state := request.get "state", bookId := request.get "book_id" } limit
        (request.get "marker") = .error (.unknownMarker message)

/-- What an endpoint looks at in a request is malformed. -/
def Malformed (service : MeterService) (request : MeterRequest) : Endpoint → Prop
  | .health | .getFlow | .getAtoms => False
  | .listFlows => BadLimit request ∨ UnknownMarker service request
  | .getEvents => BadInt request "since_seq" ∨ BadLimit request
  | .stream => BadResume request ∨ BadLimit request

/-- The listing has a next page, whose marker holds a lone surrogate. -/
def UnencodableNext (d : Dispatcher) (request : MeterRequest) : Endpoint → Prop
  | .health | .getFlow | .getAtoms | .getEvents | .stream => False
  | .listFlows => ∃ limit page marker,
      d.service.limit request DEFAULT_FLOW_LIMIT = .ok limit
        ∧ d.service.meter.listFlows
            { state := request.get "state", bookId := request.get "book_id" } limit
            (request.get "marker") = .ok page
        ∧ page.nextMarker = some marker ∧ d.unencodable marker = true

namespace Dispatcher

variable {d : Dispatcher} {endpoint : Endpoint} {request : MeterRequest} {runId : String}

/-- The run that the path names is given to the endpoints of a run. -/
def Named (endpoint : Endpoint) (request : MeterRequest) (runId : String) : Prop :=
  endpoint.ofRun?.isSome → request.pathParams.get? "run_id" = some runId

theorem Named.param (h : Named endpoint request runId) (hrun : endpoint.ofRun?.isSome) :
    request.param "run_id" = .ok runId := by
  rw [MeterRequest.param, h hrun]

theorem requireEvents_of_not_noHistory {service : MeterService}
    (h : ¬ service.meter.supportsEvents = false) :
    service.requireEvents = .ok () := by
  rw [MeterService.requireEvents, if_pos (by simpa using h)]

theorem requireEvents_of_noHistory {service : MeterService}
    (h : service.meter.supportsEvents = false) :
    ∃ detail, service.requireEvents = .error (unsupported detail) := by
  rw [MeterService.requireEvents, if_neg (by rw [h]; decide)]
  exact ⟨_, rfl⟩

theorem flowOr404_of_none {service : MeterService} (h : service.meter.getFlow runId = none) :
    ∃ detail, service.flowOr404 runId = .error (notFound detail) := by
  rw [MeterService.flowOr404, h]
  exact ⟨_, rfl⟩

theorem flowOr404_of_ne_none {service : MeterService} (h : service.meter.getFlow runId ≠ none) :
    ∃ snapshot, service.flowOr404 runId = .ok snapshot := by
  obtain ⟨snapshot, hsnapshot⟩ := Option.ne_none_iff_exists'.mp h
  rw [MeterService.flowOr404, hsnapshot]
  exact ⟨_, rfl⟩

theorem handle_of_noHistory (hnamed : Named endpoint request runId)
    (h : NoHistory d.service endpoint) :
    ∃ detail, d.handle endpoint request = .error (unsupported detail) := by
  cases endpoint with
  | health | listFlows | getFlow | getAtoms => cases h
  | getEvents | stream =>
    obtain ⟨detail, hdetail⟩ := requireEvents_of_noHistory h
    exact ⟨detail, map_of_error (bind_of_ok (hnamed.param rfl) (bind_of_error hdetail))⟩

theorem handle_of_missing (hnamed : Named endpoint request runId)
    (hhistory : ¬ NoHistory d.service endpoint)
    (h : Missing d.service runId endpoint) :
    ∃ detail, d.handle endpoint request = .error (notFound detail) := by
  cases endpoint with
  | health | listFlows => cases h
  | getFlow =>
    obtain ⟨detail, hdetail⟩ := flowOr404_of_none h
    exact ⟨detail, map_of_error (bind_of_ok (hnamed.param rfl) (bind_of_error hdetail))⟩
  | getAtoms =>
    have hatoms : d.service.meter.getAtoms runId = none := h
    refine ⟨"no flow with run id " ++ (Json.str runId).repr,
      map_of_error (bind_of_ok (hnamed.param rfl) ?_)⟩
    rw [hatoms]
    rfl
  | getEvents | stream =>
    obtain ⟨detail, hdetail⟩ := flowOr404_of_none h
    exact ⟨detail, map_of_error (bind_of_ok (hnamed.param rfl)
      (bind_of_ok (requireEvents_of_not_noHistory hhistory) (bind_of_error hdetail)))⟩

theorem handle_of_malformed (hnamed : Named endpoint request runId)
    (hhistory : ¬ NoHistory d.service endpoint) (hthere : ¬ Missing d.service runId endpoint)
    (h : Malformed d.service request endpoint) :
    ∃ detail, d.handle endpoint request = .error (badRequest detail) := by
  cases endpoint with
  | health | getFlow | getAtoms => cases h
  | listFlows =>
    by_cases hbad : BadLimit request
    · obtain ⟨detail, hdetail⟩ := MeterService.limit_of_bad hbad d.service DEFAULT_FLOW_LIMIT
      exact ⟨detail, map_of_error (bind_of_error hdetail)⟩
    · obtain ⟨limit, message, hlimit, hlist⟩ := h.resolve_left hbad
      refine ⟨message, map_of_error (bind_of_ok hlimit ?_)⟩
      rw [hlist]
      rfl
  | getEvents =>
    obtain ⟨snapshot, hsnapshot⟩ := flowOr404_of_ne_none hthere
    by_cases hsince : BadInt request "since_seq"
    · obtain ⟨detail, hdetail⟩ := getInt_of_bad hsince 0
      exact ⟨detail, map_of_error (bind_of_ok (hnamed.param rfl)
        (bind_of_ok (requireEvents_of_not_noHistory hhistory)
          (bind_of_ok hsnapshot (bind_of_error hdetail))))⟩
    · obtain ⟨detail, hdetail⟩ :=
        MeterService.limit_of_bad (h.resolve_left hsince) d.service DEFAULT_EVENT_LIMIT
      obtain ⟨since, hsince⟩ : ∃ since, request.getInt "since_seq" 0 = .ok since := by
        rcases getInt_of_not_bad hsince 0 with hok | ⟨_, n, _, _, _, hok⟩ <;> exact ⟨_, hok⟩
      exact ⟨detail, map_of_error (bind_of_ok (hnamed.param rfl)
        (bind_of_ok (requireEvents_of_not_noHistory hhistory)
          (bind_of_ok hsnapshot (bind_of_ok hsince (bind_of_error hdetail)))))⟩
  | stream =>
    obtain ⟨snapshot, hsnapshot⟩ := flowOr404_of_ne_none hthere
    by_cases hresume : BadResume request
    · obtain ⟨detail, hdetail⟩ := MeterService.resumePoint_of_bad hresume
      exact ⟨detail, map_of_error (bind_of_ok (hnamed.param rfl)
        (bind_of_ok (requireEvents_of_not_noHistory hhistory)
          (bind_of_ok hsnapshot (bind_of_error hdetail))))⟩
    · obtain ⟨detail, hdetail⟩ :=
        MeterService.limit_of_bad (h.resolve_left hresume) d.service DEFAULT_EVENT_LIMIT
      obtain ⟨since, hsince⟩ := MeterService.resumePoint_of_not_bad hresume
      exact ⟨detail, map_of_error (bind_of_ok (hnamed.param rfl)
        (bind_of_ok (requireEvents_of_not_noHistory hhistory)
          (bind_of_ok hsnapshot (bind_of_ok hsince (bind_of_error hdetail)))))⟩

/-- The datasource refuses to answer with a limit that the service lets through. -/
def Refuses (service : MeterService) (message : String) : Prop :=
  ∃ request default limit, service.limit request default = .ok limit
    ∧ ((∃ filter marker, service.meter.listFlows filter limit marker = .error (.valueError message))
      ∨ ∃ runId since, service.meter.eventsSince runId since limit = .error message)

/-- **The link to a page after a lone surrogate is not made.** -/
theorem handle_of_unencodableNext (h : UnencodableNext d request endpoint) :
    ∃ marker, d.handle endpoint request = .error (.unicodeEncodeError marker) := by
  cases endpoint with
  | health | getFlow | getAtoms | getEvents | stream => cases h
  | listFlows =>
    obtain ⟨limit, page, marker, hlimit, hlist, hmarker, hlone⟩ := h
    refine ⟨marker, map_of_error (bind_of_ok hlimit ?_)⟩
    have hnext : page.nextMarker.filter d.unencodable = some marker := by
      rw [hmarker]
      exact if_pos hlone
    rw [hlist]
    dsimp only
    rw [hnext]
    rfl

/-- The listing, where nothing in the request is malformed. -/
theorem handle_listFlows_of_checked (h : ¬ Malformed d.service request .listFlows)
    (hnext : ¬ UnencodableNext d request .listFlows) :
    (∃ payload, d.handle .listFlows request = .ok (.response (.json payload)))
      ∨ ∃ message, d.handle .listFlows request = .error (.valueError message)
        ∧ Refuses d.service message := by
  obtain ⟨hlow, hmarker⟩ := not_or.mp h
  obtain ⟨limit, hlimit⟩ := MeterService.limit_of_not_bad hlow d.service
      (by decide : 1 ≤ DEFAULT_FLOW_LIMIT)
  cases hlist : d.service.meter.listFlows
      { state := request.get "state", bookId := request.get "book_id" } limit
      (request.get "marker") with
  | ok page =>
    refine .inl ⟨Serializers.flowPage page request d.service.meter.supportsEvents,
      map_of_ok (bind_of_ok hlimit ?_)⟩
    have hmarker : page.nextMarker.filter d.unencodable = none := by
      rw [Option.filter_eq_none_iff]
      exact fun marker hmarker hlone => hnext ⟨limit, page, marker, hlimit, hlist, hmarker, hlone⟩
    rw [hlist]
    dsimp only
    rw [hmarker]
    rfl
  | error e =>
    cases e with
    | unknownMarker message => exact absurd ⟨limit, message, hlimit, hlist⟩ hmarker
    | valueError message =>
      refine .inr ⟨message, map_of_error (bind_of_ok hlimit ?_),
        _, _, limit, hlimit, .inl ⟨_, _, hlist⟩⟩
      rw [hlist]
      rfl

/-- The events of a run that is there, where nothing in the request is malformed. -/
theorem handle_getEvents_of_checked (hnamed : Named .getEvents request runId)
    (hhistory : ¬ NoHistory d.service .getEvents) (hthere : ¬ Missing d.service runId .getEvents)
    (h : ¬ Malformed d.service request .getEvents) :
    (∃ payload, d.handle .getEvents request = .ok (.response (.json payload)))
      ∨ ∃ message, d.handle .getEvents request = .error (.valueError message)
        ∧ Refuses d.service message := by
  obtain ⟨hint, hlow⟩ := not_or.mp h
  obtain ⟨snapshot, hsnapshot⟩ := flowOr404_of_ne_none hthere
  obtain ⟨since, hsince⟩ : ∃ since, request.getInt "since_seq" 0 = .ok since := by
    rcases getInt_of_not_bad hint 0 with hok | ⟨_, n, _, _, _, hok⟩ <;> exact ⟨_, hok⟩
  obtain ⟨limit, hlimit⟩ :=
    MeterService.limit_of_not_bad hlow d.service (by decide : 1 ≤ DEFAULT_EVENT_LIMIT)
  cases hevents : d.service.meter.eventsSince runId since limit with
  | ok page =>
    refine .inl ⟨Serializers.eventPage page runId request, map_of_ok (bind_of_ok (hnamed.param rfl)
      (bind_of_ok (requireEvents_of_not_noHistory hhistory)
        (bind_of_ok hsnapshot (bind_of_ok hsince (bind_of_ok hlimit ?_)))))⟩
    rw [hevents]
    rfl
  | error message =>
    refine .inr ⟨message, map_of_error (bind_of_ok (hnamed.param rfl)
      (bind_of_ok (requireEvents_of_not_noHistory hhistory)
        (bind_of_ok hsnapshot (bind_of_ok hsince (bind_of_ok hlimit ?_))))),
      _, _, limit, hlimit, .inr ⟨_, _, hevents⟩⟩
    rw [hevents]
    rfl

/-- What a handler returns where no check fails, unless the datasource refuses to answer. -/
theorem handle_of_checked (hnamed : Named endpoint request runId)
    (hhistory : ¬ NoHistory d.service endpoint) (hthere : ¬ Missing d.service runId endpoint)
    (h : ¬ Malformed d.service request endpoint) (hnext : ¬ UnencodableNext d request endpoint) :
    (∃ payload, d.handle endpoint request = .ok (.response (.json payload)))
      ∨ (∃ cursor, d.handle endpoint request = .ok (.stream { cursor := cursor }))
      ∨ ∃ message, d.handle endpoint request = .error (.valueError message)
        ∧ Refuses d.service message := by
  cases endpoint with
  | health => exact .inl ⟨_, rfl⟩
  | listFlows => exact (handle_listFlows_of_checked h hnext).imp_right Or.inr
  | getEvents =>
    exact (handle_getEvents_of_checked hnamed hhistory hthere h).imp_right Or.inr
  | getFlow =>
    obtain ⟨snapshot, hsnapshot⟩ := flowOr404_of_ne_none hthere
    exact .inl ⟨_, map_of_ok (bind_of_ok (hnamed.param rfl) (bind_of_ok hsnapshot rfl))⟩
  | getAtoms =>
    have hatoms : ¬ d.service.meter.getAtoms runId = none := hthere
    obtain ⟨atoms, hatoms⟩ := Option.ne_none_iff_exists'.mp hatoms
    refine .inl ⟨.obj [("atoms", .arr (atoms.map Serializers.atom)),
      ("links", .obj [("self", .str (request.url request.path))])],
      map_of_ok (bind_of_ok (hnamed.param rfl) ?_)⟩
    rw [hatoms]
    rfl
  | stream =>
    obtain ⟨hresume, hlow⟩ := not_or.mp h
    obtain ⟨snapshot, hsnapshot⟩ := flowOr404_of_ne_none hthere
    obtain ⟨since, hsince⟩ := MeterService.resumePoint_of_not_bad hresume
    obtain ⟨limit, hlimit⟩ :=
      MeterService.limit_of_not_bad hlow d.service (by decide : 1 ≤ DEFAULT_EVENT_LIMIT)
    exact .inr (.inl ⟨_, map_of_ok (bind_of_ok (hnamed.param rfl)
      (bind_of_ok (requireEvents_of_not_noHistory hhistory)
        (bind_of_ok hsnapshot (bind_of_ok hsince (bind_of_ok hlimit rfl)))))⟩)

/-- **A handler raises an error of our own exactly where a check fails.** -/
theorem handle_api_iff (hnamed : Named endpoint request runId) :
    (∃ error, d.handle endpoint request = .error (.api error))
      ↔ NoHistory d.service endpoint ∨ Missing d.service runId endpoint
        ∨ Malformed d.service request endpoint := by
  by_cases hhistory : NoHistory d.service endpoint
  · obtain ⟨detail, h⟩ := handle_of_noHistory hnamed hhistory
    exact iff_of_true ⟨_, h⟩ (.inl hhistory)
  by_cases hmissing : Missing d.service runId endpoint
  · obtain ⟨detail, h⟩ := handle_of_missing hnamed hhistory hmissing
    exact iff_of_true ⟨_, h⟩ (.inr (.inl hmissing))
  by_cases hbad : Malformed d.service request endpoint
  · obtain ⟨detail, h⟩ := handle_of_malformed hnamed hhistory hmissing hbad
    exact iff_of_true ⟨_, h⟩ (.inr (.inr hbad))
  refine iff_of_false ?_ (by simp [hhistory, hmissing, hbad])
  rintro ⟨error, herror⟩
  by_cases hnext : UnencodableNext d request endpoint
  · obtain ⟨marker, h⟩ := handle_of_unencodableNext hnext
    rw [h] at herror
    cases herror
  rcases handle_of_checked hnamed hhistory hmissing hbad hnext with ⟨_, h⟩ | ⟨_, h⟩ | ⟨_, h, -⟩ <;>
    rw [h] at herror <;> cases herror

/-- No handler looks at the method. -/
theorem handle_method (d : Dispatcher) (endpoint : Endpoint) (request : MeterRequest)
    (method : String) :
    d.handle endpoint { request with method := method } = d.handle endpoint request := by
  cases endpoint <;> rfl

/-- The dispatcher of a service, with the table. -/
def ofService (service : MeterService) (vitals : Vitals)
    (unencodable : String → Bool := fun _ => false) : Dispatcher where
  service := service
  vitals := vitals
  unencodable := unencodable

end Dispatcher

/-- What the table makes of a path: a route, with the run if it is one of a run, or nothing. -/
theorem matchPath_get (path : String) :
    (∃ route params, theRouter.matchPath "GET" path
          = { outcome := .matched, route := some route, params := params }
        ∧ params = if route.handler.ofRun?.isSome
          then (∅ : Dict String String).set "run_id" (params.getD "run_id" "") else ∅)
      ∨ theRouter.matchPath "GET" path = { outcome := .notFound }
        ∧ ∀ p ∈ theRouter.compiled, matchPieces p.2 path.toList = none := by
  rw [matchPath_of_get]
  cases hfound : theRouter.compiled.findSome? fun p =>
      (matchPieces p.2 path.toList).map fun values => (p.1, values) with
  | none =>
    refine .inr ⟨rfl, fun p hp => ?_⟩
    have hnone := List.findSome?_eq_none_iff.mp hfound p hp
    exact Option.map_eq_none_iff.mp hnone
  | some found =>
    obtain ⟨p, hp, hsome⟩ := List.exists_of_findSome?_eq_some hfound
    obtain ⟨values, hvalues, rfl⟩ := Option.map_eq_some_iff.mp hsome
    refine .inl ⟨p.1, Router.groupdict values, rfl, ?_⟩
    -- the template of an endpoint of a run names one parameter, the others none
    have hnames : p.2.filterMap Piece.name?
        = if p.1.handler.ofRun?.isSome then ["run_id"] else [] := by
      have hall : ∀ p ∈ theRouter.compiled, p.2.filterMap Piece.name?
          = if p.1.handler.ofRun?.isSome then ["run_id"] else [] := by decide
      exact hall p hp
    obtain ⟨_, -, hfills⟩ := exists_fills_of_matchPieces hvalues
    rw [← hfills.map_fst] at hnames
    split at hnames
    · next hrun =>
      rw [if_pos hrun]
      obtain ⟨⟨name, value⟩, rfl⟩ :=
        List.length_eq_one_iff.mp (by simpa using congrArg List.length hnames)
      obtain rfl : name = "run_id" := (List.cons.inj hnames).1
      rfl
    · next hrun =>
      rw [if_neg hrun, List.map_eq_nil_iff.mp hnames]
      rfl

/-- An endpoint of a run is given the run. -/
theorem named_of_params {route : Route Endpoint} {params : Dict String String}
    (h : params = if route.handler.ofRun?.isSome
      then (∅ : Dict String String).set "run_id" (params.getD "run_id" "") else ∅)
    (request : MeterRequest) :
    Dispatcher.Named route.handler { request with pathParams := params }
      (params.getD "run_id" "") := by
  intro hrun
  rw [if_pos hrun] at h
  show params.get? "run_id" = _
  generalize params.getD "run_id" "" = runId at h
  rw [h, Dict.get?_set_self]

/-- A request passes every check: its path names an endpoint, which has the history it needs, holds
the run asked for, and can read what it looks at. -/
def Passes (service : MeterService) (request : MeterRequest) : Prop :=
  let found := theRouter.matchPath "GET" request.path
  ∃ route, found.route = some route ∧ ¬ NoHistory service route.handler
    ∧ ¬ Missing service (found.params.getD "run_id" "") route.handler
    ∧ ¬ Malformed service request route.handler

namespace Dispatcher

variable {service : MeterService} {vitals : Vitals} {unencodable : String → Bool}
  {request : MeterRequest}

theorem wanted_of_get {method : String} (h : method = "GET" ∨ method = "HEAD") :
    method ≠ "OPTIONS" ∧ wanted method = "GET" := by
  rcases h with rfl | rfl <;> decide

/-- A GET and a HEAD are routed alike. -/
theorem route_of_matched {method : String} (hmethod : method = "GET" ∨ method = "HEAD")
    {route : Route Endpoint} {params : Dict String String}
    (h : theRouter.matchPath "GET" request.path
      = { outcome := .matched, route := some route, params := params }) :
    (ofService service vitals unencodable).route { request with method := method }
      = ((ofService service vitals unencodable).handle route.handler
          { request with pathParams := params }).map (withoutBody method) := by
  obtain ⟨hoptions, hwanted⟩ := wanted_of_get hmethod
  rw [Dispatcher.route, if_neg hoptions]
  dsimp only [ofService]
  rw [hwanted, h]
  exact congrArg (Except.map (withoutBody method))
    (handle_method (ofService service vitals unencodable) route.handler
      { request with pathParams := params } method)

theorem route_of_notFound {method : String} (hmethod : method = "GET" ∨ method = "HEAD")
    (h : theRouter.matchPath "GET" request.path = { outcome := .notFound }) :
    (ofService service vitals unencodable).route { request with method := method }
      = .error (notFound ("no such endpoint: " ++ request.path)) := by
  obtain ⟨hoptions, hwanted⟩ := wanted_of_get hmethod
  rw [Dispatcher.route, if_neg hoptions]
  dsimp only [ofService]
  rw [hwanted, h]

end Dispatcher

open Dispatcher

/-- A HEAD is answered as its GET is, without the body. -/
def HeadOf (d : Dispatcher) (request : MeterRequest) (got : MeterResponse) : Prop :=
  ∃ head, d.dispatch { request with method := "HEAD" } = .ok (.response head)
    ∧ head.status = got.status ∧ head.headers = got.headers ∧ head.body = []

theorem not_headOf {d : Dispatcher} {request : MeterRequest} {error : ApiError}
    (h : d.route { request with method := "HEAD" } = .error (.api error))
    (got : MeterResponse) : ¬ HeadOf d request got := by
  rintro ⟨head, hhead, -, -, hbody⟩
  rw [dispatch, h] at hhead
  obtain rfl := Result.response.inj (Except.ok.inj hhead)
  exact MeterResponse.body_fromError_ne_nil error hbody

/-- **A HEAD is the GET without its body exactly where no check fails**: an error keeps its body. -/
theorem dispatch_head_iff {service : MeterService} {vitals : Vitals} {unencodable : String → Bool}
    {request : MeterRequest} {got : MeterResponse}
    (hget : (ofService service vitals unencodable).dispatch { request with method := "GET" }
      = .ok (.response got)) :
    HeadOf (ofService service vitals unencodable) request got ↔ Passes service request := by
  rcases matchPath_get request.path with ⟨route, params, hmatch, hparams⟩ | ⟨hmatch, -⟩
  · have hpasses : Passes service request
        ↔ ¬ ∃ error, (ofService service vitals unencodable).handle route.handler
            { request with pathParams := params } = .error (.api error) := by
      rw [handle_api_iff (named_of_params hparams request), not_or, not_or, Passes, hmatch]
      constructor
      · rintro ⟨route', hroute', hchecks⟩
        obtain rfl := Option.some.inj hroute'
        exact hchecks
      · exact fun hchecks => ⟨route, rfl, hchecks⟩
    have hroute_get : (ofService service vitals unencodable).route
        { request with method := "GET" } = _ :=
      route_of_matched (.inl rfl) hmatch
    have hroute_head : (ofService service vitals unencodable).route
        { request with method := "HEAD" } = _ :=
      route_of_matched (.inr rfl) hmatch
    rw [hpasses]
    cases hhandle : (ofService service vitals unencodable).handle route.handler
        { request with pathParams := params } with
    | error raised =>
      rw [hhandle] at hroute_get hroute_head
      cases raised with
      | api error => exact iff_of_false (not_headOf hroute_head got) (not_not.mpr ⟨error, rfl⟩)
      | lookupError _ | valueError _ | unicodeEncodeError _ =>
        rw [dispatch, hroute_get] at hget
        cases hget
    | ok result =>
      rw [hhandle] at hroute_get hroute_head
      cases result with
      | stream s =>
        rw [dispatch, hroute_get] at hget
        cases hget
      | response r =>
        rw [dispatch, hroute_get] at hget
        obtain rfl := Result.response.inj (Except.ok.inj hget)
        refine iff_of_true ⟨{ r with body := [] }, ?_, rfl, rfl, rfl⟩ (by simp)
        rw [dispatch, hroute_head]
        rfl
  · refine iff_of_false (not_headOf (route_of_notFound (.inr rfl) hmatch) got) ?_
    rintro ⟨route, hroute, -⟩
    rw [hmatch] at hroute
    cases hroute

/-- A service that has seen nothing. -/
def idleService : MeterService where
  meter := { source := (WritableDataSource.memory noRuns).toDataSource }

/-- A service over two events of a run. -/
def busyService : MeterService where
  meter :=
    { source := ((WritableDataSource.memory noRuns).applyMany
        [flowEvent 1 States.RUNNING, heartbeat 2]).toDataSource }

/-- A request for the second of them. -/
def secondEvent : MeterRequest :=
  .fromQueryString "since_seq=1&limit=1" { path := "/api/v1/flows/run-1/events" }

/-- A HEAD of it. -/
theorem headOf_secondEvent :
    ∃ got, (ofService busyService { version := "1" }).dispatch secondEvent = .ok (.response got)
      ∧ got.status = 200
      ∧ HeadOf (ofService busyService { version := "1" }) secondEvent got := by
  have hsince : secondEvent.getInt "since_seq" 0 = .ok 1 := rfl
  have hlimit : busyService.limit secondEvent DEFAULT_EVENT_LIMIT = .ok 1 := rfl
  refine ⟨_, rfl, rfl, (dispatch_head_iff rfl).mpr ?_⟩
  refine ⟨⟨"GET", Routes.EVENTS, .getEvents, "events"⟩, rfl, Bool.noConfusion,
    Option.some_ne_none _, ?_⟩
  rintro (hbad | hbad)
  · obtain ⟨detail, hdetail⟩ := getInt_of_bad hbad 0
    cases hsince.symm.trans hdetail
  · obtain ⟨detail, hdetail⟩ := MeterService.limit_of_bad hbad busyService DEFAULT_EVENT_LIMIT
    cases hlimit.symm.trans hdetail

/-- **A HEAD of a run that is not there has the body of its error.** -/
theorem head_has_body :
    ∃ got, (ofService idleService { version := "1" }).dispatch { path := "/api/v1/flows/r-1" }
        = .ok (.response got)
      ∧ ¬ HeadOf (ofService idleService { version := "1" }) { path := "/api/v1/flows/r-1" } got :=
  ⟨_, rfl, not_headOf rfl _⟩

end TaskflowMeter
