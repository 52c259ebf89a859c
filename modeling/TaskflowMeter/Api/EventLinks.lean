import TaskflowMeter.Api.Following
import TaskflowMeter.Client

/-!
# Following the pages of a run's events

A client asks for the events of a run, and then requests the link to the next page that each payload
gives it, while the run goes on.  A link says where to go on from, and nothing else: the limit of the
first request is gone.

## Main definitions

* `ServesEvents` — a service over a reader that has the run.
* `EventPages`, `paged` — what a client has been given, and the link it goes on with.
* `Client.paging` — the same as calls of the reader.

## Main results

* `fetch_nextEventsLink` — a link is a call with the number that it says.
* `event_links_page` — **following links is paging through the reader**, whatever is written in
  between.
-/

namespace TaskflowMeter

open Url

/-- A service over a reader that keeps a history, and has the run. -/
structure ServesEvents (service : MeterService) (runId : String) : Prop where
  supportsEvents : service.meter.supportsEvents = true
  known : (service.meter.getFlow runId).isSome = true
  one_le_maxLimit : 1 ≤ service.maxLimit
  answers : ∀ since limit, 1 ≤ limit →
    ∃ page, service.meter.eventsSince runId since limit = .ok page

/-- A store that has the run is such a reader. -/
theorem WritableDataSource.servesEvents {store : WritableDataSource} {runId : String}
    {service : MeterService} (hreader : service.meter.reader = store.toDataSource)
    (hknown : (store.getFlow runId).isSome = true) (hmax : 1 ≤ service.maxLimit) :
    ServesEvents service runId where
  supportsEvents := by rw [Meter.supportsEvents, hreader]; rfl
  known := by rwa [Meter.getFlow, hreader]
  one_le_maxLimit := hmax
  answers since limit hlimit := by
    rw [Meter.eventsSince, hreader]
    exact ⟨_, store.eventsSince_eq runId since hlimit⟩

/-! ### A client -/

/-- The events of a payload. -/
def Json.eventsOf (payload : Json) : List Json :=
  match payload.field? "events" with
  | some (.arr items) => items
  | _ => []

/-- What a client has been given, and the link that it goes on with. -/
structure EventPages where
  next : Option String := none
  payloads : List Json := []

namespace EventPages

def read (s : EventPages) (payload : Json) : EventPages where
  next := payload.link? "next"
  payloads := s.payloads ++ [payload]

/-- The events of all the payloads. -/
def events (s : EventPages) : List Json := s.payloads.flatMap Json.eventsOf

/-- The payload that a link gives, if it leads to the events of a run. -/
def fetch (service : MeterService) (urlPrefix link : String) : Option Json := do
  let request ← MeterRequest.ofLink urlPrefix link
  let found := theRouter.matchPath "GET" request.path
  if found.route.map Route.handler = some .getEvents then
    (service.getEvents { request with pathParams := found.params }).toOption
  else none

/-- Request the link. -/
def follow (urlPrefix : String) (s : EventPages) (service : MeterService) : EventPages :=
  match s.next.bind (fetch service urlPrefix) with
  | some payload => s.read payload
  | none => { s with next := none }

end EventPages

/-- What a client has been given by a first request and by links, each of them answered by the
service as it stands then. -/
def paged (request : MeterRequest) (first : MeterService) (rest : List MeterService) : EventPages :=
  rest.foldl (EventPages.follow request.urlPrefix)
    (match first.getEvents request with
      | .ok payload => EventPages.read {} payload
      | .error _ => {})

/-- The calls of a client that asks with a limit at first. -/
def Client.paging (runId : String) (since limit : ℤ) (first : MeterService)
    (rest : List MeterService) : Client :=
  rest.foldl
    (fun c service => c.call (service.meter.eventsSince runId)
      (min DEFAULT_EVENT_LIMIT service.maxLimit))
    (({ sinceSeq := since } : Client).call (first.meter.eventsSince runId) limit)

/-- The link to the events after a number. -/
def nextEventsLink (urlPrefix runId : String) (since : ℤ) : String :=
  Serializers.runUrl { urlPrefix := urlPrefix } Routes.EVENTS runId
    [("since_seq", some (toString since))]

/-- A client of the reader, as one that follows links sees it. -/
def EventPages.ofClient (request : MeterRequest) (runId : String) (c : Client) : EventPages where
  next := some (nextEventsLink request.urlPrefix runId c.sinceSeq)
  payloads := c.pages.map fun p => Serializers.eventPage p.2 runId request

/-! ### One request -/

section

variable {service : MeterService} {request : MeterRequest} {runId : String} {since limit : ℤ}

/-- What a request for events is given. -/
theorem getEvents_eq (hserves : ServesEvents service runId)
    (hparam : request.param "run_id" = .ok runId)
    (hsince : request.getInt "since_seq" 0 = .ok since)
    (hlimit : service.limit request DEFAULT_EVENT_LIMIT = .ok limit) {page : EventPage}
    (hpage : service.meter.eventsSince runId since limit = .ok page) :
    service.getEvents request = .ok (Serializers.eventPage page runId request) := by
  obtain ⟨snapshot, hsnapshot⟩ := Option.isSome_iff_exists.mp hserves.known
  have hhistory : service.requireEvents = .ok () := if_pos hserves.supportsEvents
  have hflow : service.flowOr404 runId = .ok snapshot := by rw [MeterService.flowOr404, hsnapshot]
  rw [MeterService.getEvents, hparam]
  simp only [bind, Except.bind, hhistory, hflow, hsince, hlimit, hpage]
  rfl

/-- A link that says where to go on from. -/
theorem ofLink_nextEventsLink {urlPrefix : String} (hpre : Plain urlPrefix.toList)
    (hrun : Plain runId.toList) (since : ℤ) :
    MeterRequest.ofLink urlPrefix (nextEventsLink urlPrefix runId since)
      = some
        { path := String.ofList (beforeRunId ++ (runId.toList ++ "/events".toList))
          urlPrefix := urlPrefix
          query := (∅ : Dict String (List String)).set "since_seq" [toString since] } := by
  have hplain : Plain (runPath urlPrefix runId "/events".toList) :=
    plain_runPath hpre hrun (Or.inr ⟨"events".toList, rfl, by decide⟩)
  have hlink : (nextEventsLink urlPrefix runId since).toList
      = runPath urlPrefix runId "/events".toList
        ++ '?' :: (urlencode [("since_seq", toString since)]).toList := by
    have hurl : nextEventsLink urlPrefix runId since
        = urlPrefix ++ formatTemplate Endpoint.getEvents.template (fun _ => runId) ++ "?"
          ++ urlencode [("since_seq", toString since)] := rfl
    rw [hurl, String.toList_append, String.toList_append, String.toList_append,
      @toList_formatTemplate .getEvents "/events" rfl, List.append_assoc]
    rfl
  rw [ofLink_eq_some_iff]
  refine ⟨beforeRunId ++ (runId.toList ++ "/events".toList), ?_, ?_⟩
  · rw [hlink, hplain.unquote_pathOf (Or.inr rfl)]
    rfl
  · rw [hlink, queryOf_append hplain (hash_notMem_urlencode _ _), String.ofList_toList,
      MeterRequest.fromQueryString, parseQs_urlencode_singleton, if_neg]
    rintro ⟨hnil, -⟩
    cases hnil

/-- The path of the events of a run is theirs. -/
theorem isFor_events (hne : runId ≠ "") (hslash : '/' ∉ runId.toList) :
    (theRouter.matchPath "GET"
      (String.ofList (beforeRunId ++ (runId.toList ++ "/events".toList)))).IsFor .getEvents runId := by
  have hendpoint : Endpoint.getEvents.ofRun? = some "/events" := rfl
  obtain ⟨htake, hdrop⟩ := takeWhile_append_dropWhile_of hslash (Or.inr (rfl :
    "/events".toList.head? = some '/'))
  rw [isFor_matchPath_iff hendpoint]
  exact ⟨_, String.toList_ofList, hne, htake, Or.inl hdrop⟩

/-- **A link is a call with the number that it says**, and with no limit. -/
theorem fetch_nextEventsLink (hserves : ServesEvents service runId) {urlPrefix : String}
    (hpre : Plain urlPrefix.toList) (hrun : Plain runId.toList) (hne : runId ≠ "")
    (hslash : '/' ∉ runId.toList) (since : ℤ) :
    ∃ page, service.meter.eventsSince runId since (min DEFAULT_EVENT_LIMIT service.maxLimit)
        = .ok page
      ∧ EventPages.fetch service urlPrefix (nextEventsLink urlPrefix runId since)
        = some (Serializers.eventPage page runId { urlPrefix := urlPrefix }) := by
  obtain ⟨page, hpage⟩ := hserves.answers since (min DEFAULT_EVENT_LIMIT service.maxLimit)
    (le_min (by decide) hserves.one_le_maxLimit)
  obtain ⟨-, hroute, hparam⟩ := isFor_events hne hslash
  refine ⟨page, hpage, ?_⟩
  rw [EventPages.fetch, ofLink_nextEventsLink hpre hrun]
  show (if _ then _ else _) = _
  rw [if_pos hroute]
  have hasked : ∀ request : MeterRequest, request.pathParams.get? "run_id" = some runId →
      request.query = (∅ : Dict String (List String)).set "since_seq" [toString since] →
      request.urlPrefix = urlPrefix → request.maxStrDigits = none →
      (service.getEvents request).toOption
        = some (Serializers.eventPage page runId { urlPrefix := urlPrefix }) := by
    intro request hpath hquery hprefix hdigits
    have hget : request.get "since_seq" = some (toString since) := by
      rw [MeterRequest.get, hquery, Dict.get?_set_self]
      rfl
    have hnone : request.get "limit" = none := by
      rw [MeterRequest.get, hquery, Dict.get?_set, if_neg (by decide)]
      rfl
    have hsince : request.getInt "since_seq" 0 = .ok since := by
      have hnonempty : toString since ≠ "" := by
        intro hempty
        have hint := PyInt.int?_toString since
        rw [hempty] at hint
        cases hint
      rw [MeterRequest.getInt, hget, hdigits]
      simp only [hnonempty, if_false, PyInt.int?_toString]
    have hlimit : service.limit request DEFAULT_EVENT_LIMIT
        = .ok (min DEFAULT_EVENT_LIMIT service.maxLimit) := by
      rw [MeterService.limit, MeterRequest.getInt_of_none hnone]
      rfl
    rw [getEvents_eq hserves (by rw [MeterRequest.param, hpath]) hsince hlimit hpage]
    simp only [Except.toOption, Serializers.eventPage, Serializers.runUrl, MeterRequest.url, hprefix]
  exact hasked _ hparam rfl rfl rfl

end

/-! ### A walk of links -/

section

variable {service : MeterService} {request : MeterRequest} {runId : String}

/-- The links of a payload depend on the prefix only. -/
theorem eventPage_congr {request' : MeterRequest} (h : request'.urlPrefix = request.urlPrefix)
    (page : EventPage) :
    Serializers.eventPage page runId request' = Serializers.eventPage page runId request := by
  simp only [Serializers.eventPage, Serializers.runUrl, MeterRequest.url, h]

/-- A payload is a page that the client takes. -/
theorem read_ofClient (c : Client) (page : EventPage) :
    (EventPages.ofClient request runId c).read (Serializers.eventPage page runId request)
      = .ofClient request runId (c.take page) := by
  rw [EventPages.read, EventPages.ofClient, EventPages.ofClient, Client.pages_take, List.map_append]
  rfl

/-- **One link is one call.** -/
theorem follow_ofClient (hserves : ServesEvents service runId)
    (hpre : Plain request.urlPrefix.toList) (hrun : Plain runId.toList) (hne : runId ≠ "")
    (hslash : '/' ∉ runId.toList) (c : Client) :
    (EventPages.ofClient request runId c).follow request.urlPrefix service
      = .ofClient request runId (c.call (service.meter.eventsSince runId)
        (min DEFAULT_EVENT_LIMIT service.maxLimit)) := by
  obtain ⟨page, hpage, hfetch⟩ := fetch_nextEventsLink hserves hpre hrun hne hslash c.sinceSeq
  have hnext : (EventPages.ofClient request runId c).next.bind
      (EventPages.fetch service request.urlPrefix)
        = some (Serializers.eventPage page runId request) := by
    rw [← @eventPage_congr request runId { urlPrefix := request.urlPrefix } rfl page]
    exact hfetch
  rw [EventPages.follow, hnext, Client.call, hpage]
  exact read_ofClient c page

/-- The events of the payloads are those of the pages. -/
theorem events_ofClient (request : MeterRequest) (runId : String) (c : Client) :
    (EventPages.ofClient request runId c).events = c.received.map Serializers.event := by
  rw [EventPages.events, EventPages.ofClient, Client.received, List.map_flatMap, List.flatMap_map]
  rfl

/-- **Following links is paging through the reader.**  The run may be written to between any two
requests.  The payloads are the pages that a client of the reader is given, with the limit of the
request at first and the default after it; the last link says where that goes on from; and the
events of the payloads are those that it receives. -/
theorem event_links_page {since limit : ℤ} (hpre : Plain request.urlPrefix.toList)
    (hrun : Plain runId.toList) (hne : runId ≠ "") (hslash : '/' ∉ runId.toList)
    (hparam : request.param "run_id" = .ok runId)
    (hsince : request.getInt "since_seq" 0 = .ok since) {first : MeterService}
    {rest : List MeterService} (hlimit : first.limit request DEFAULT_EVENT_LIMIT = .ok limit)
    (hserves : ∀ service ∈ first :: rest, ServesEvents service runId) :
    let client := Client.paging runId since limit first rest
    (paged request first rest).payloads
        = client.pages.map (fun p => Serializers.eventPage p.2 runId request)
      ∧ (paged request first rest).next
        = some (nextEventsLink request.urlPrefix runId client.sinceSeq)
      ∧ (paged request first rest).events = client.received.map Serializers.event := by
  intro client
  rw [List.forall_mem_cons] at hserves
  obtain ⟨asked, -, hasked, hmin⟩ := MeterService.limit_eq_ok hlimit
  obtain ⟨page, hpage⟩ := hserves.1.answers since limit
    (hmin ▸ le_min hasked hserves.1.one_le_maxLimit)
  have hfirst : first.getEvents request = .ok (Serializers.eventPage page runId request) :=
    getEvents_eq hserves.1 hparam hsince hlimit hpage
  have hpaged : ∀ (rest : List MeterService) (c : Client),
      (∀ service ∈ rest, ServesEvents service runId) →
      rest.foldl (EventPages.follow request.urlPrefix) (.ofClient request runId c)
        = .ofClient request runId (rest.foldl (fun c service =>
          c.call (service.meter.eventsSince runId) (min DEFAULT_EVENT_LIMIT service.maxLimit))
          c) := by
    intro rest
    induction rest with
    | nil => exact fun c _ => rfl
    | cons service rest ih =>
      intro c hall
      rw [List.forall_mem_cons] at hall
      rw [List.foldl_cons, List.foldl_cons, follow_ofClient hall.1 hpre hrun hne hslash]
      exact ih _ hall.2
  have heq : paged request first rest
      = .ofClient request runId (Client.paging runId since limit first rest) := by
    have hcall : ({ sinceSeq := since } : Client).call (first.meter.eventsSince runId) limit
        = ({ sinceSeq := since } : Client).take page := by rw [Client.call, hpage]
    rw [Client.paging, hcall, paged, hfirst, ← hpaged rest _ hserves.2]
    rfl
  rw [heq]
  exact ⟨rfl, rfl, events_ofClient request runId client⟩

end

/-! ### A run that goes on -/

/-- A run of so many heartbeats. -/
def beating (n : ℕ) : WritableDataSource :=
  (WritableDataSource.memory noRuns).applyMany ((List.range n).map fun i => heartbeat (i + 1))

/-- A service over it. -/
def beatingService (n : ℕ) : MeterService where
  meter := { source := (beating n).toDataSource }

/-- The first request, under a prefix. -/
def eventsOfRun : MeterRequest where
  path := "/api/v1/flows/run-1/events"
  urlPrefix := "/meter"
  pathParams := (∅ : Dict String String).set "run_id" "run-1"

/-- A heartbeat is written before the link is requested. -/
theorem event_links_page_beating :
    (paged eventsOfRun (beatingService 1) [beatingService 2]).events
      = [heartbeat 1, heartbeat 2].map Serializers.event := by
  have hserves : ∀ service ∈ [beatingService 1, beatingService 2],
      ServesEvents service "run-1" := by
    rw [List.forall_mem_cons, List.forall_mem_singleton]
    exact ⟨WritableDataSource.servesEvents rfl (by decide) (by decide),
      WritableDataSource.servesEvents rfl (by decide) (by decide)⟩
  have hlinks := @event_links_page eventsOfRun "run-1" 0 200 (by decide) (by decide) (by decide)
    (by decide) rfl rfl (beatingService 1) [beatingService 2] rfl hserves
  rw [hlinks.2.2]
  have hreceived : (Client.paging "run-1" 0 200 (beatingService 1) [beatingService 2]).received
      = [heartbeat 1, heartbeat 2] := by decide
  rw [hreceived]

end TaskflowMeter
