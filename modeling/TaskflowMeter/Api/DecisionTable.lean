import TaskflowMeter.Api.Dispatch

/-!
# Which status a request is answered with

The dispatcher of a service over an in-process store answers all requests but one kind, and the
path, the method, the store and what is looked at in the request tell the status.  The exception is
a listing with a next page whose marker cannot be percent-encoded.

## Main definitions

* `Templated`, `UnknownRun`, `Unreadable` — what the status depends on.
* `CutAtSurrogate` — a page ends at a run id that holds a lone surrogate.
* `expectedStatus` — the table.
* `PagesBounded` — no page is larger than asked for, nor than the service allows.

## Main results

* `answeredWith_expectedStatus` — every other request is answered, with the status of the table.
* `dispatch_table_iff` — **a request is answered as the whole table has it exactly where no page is
  cut so**; otherwise an exception escapes.
-/

namespace TaskflowMeter

open Dispatcher Results

/-- A service over an in-process store. -/
def memoryService (store : MemoryDataSource) (maxLimit : ℤ) : MeterService where
  meter := { source := (WritableDataSource.memory store).toDataSource }
  maxLimit := maxLimit

/-- The dispatcher of that service, where some run ids hold lone surrogates. -/
abbrev memoryDispatcher (store : MemoryDataSource) (maxLimit : ℤ) (vitals : Vitals)
    (unencodable : String → Bool) : Dispatcher :=
  ofService (memoryService store maxLimit) vitals unencodable

/-! ### What the status depends on -/

/-- Some template matches the path. -/
def Templated (path : String) : Prop := ∃ route ∈ buildRoutes, route.Matches path

/-- An endpoint of a run is asked for one that the store does not hold. -/
def UnknownRun (store : MemoryDataSource) (path : String) : Prop :=
  let found := theRouter.matchPath "GET" path
  ∃ route, found.route = some route ∧ route.handler.ofRun?.isSome
    ∧ store.getFlow (found.params.getD "run_id" "") = none

/-- What an endpoint looks at in a request: a number that is none, a limit that is too low, or a
marker that names no flow of the filtered listing. -/
def UnreadableAt (store : MemoryDataSource) (request : MeterRequest) : Endpoint → Prop
  | .health | .getFlow | .getAtoms => False
  | .listFlows => BadLimit request ∨ ∃ marker, request.get "marker" = some marker
      ∧ ∀ flow ∈ store.matching { state := request.get "state", bookId := request.get "book_id" },
        flow.runId ≠ marker
  | .getEvents => BadInt request "since_seq" ∨ BadLimit request
  | .stream => BadResume request ∨ BadLimit request

def Unreadable (store : MemoryDataSource) (request : MeterRequest) : Prop :=
  ∃ route, (theRouter.matchPath "GET" request.path).route = some route
    ∧ UnreadableAt store request route.handler

/-- What is left to list after the marker of a request, of the flows that match its filters. -/
def leftToList (store : MemoryDataSource) (request : MeterRequest) : List FlowSnapshot :=
  let flows :=
    sortFlows (store.matching { state := request.get "state", bookId := request.get "book_id" })
  match request.get "marker" with
  | none => flows
  | some marker => (flows.dropWhile fun flow => flow.runId ≠ marker).tail

/-- More is left to list than goes on the page, and the last flow of the page has a run id that
holds a lone surrogate. -/
def EndsAtSurrogate (unencodable : String → Bool) (store : MemoryDataSource) (maxLimit : ℤ)
    (request : MeterRequest) : Prop :=
  ∃ asked last, request.getInt "limit" DEFAULT_FLOW_LIMIT = .ok asked
    ∧ (min asked maxLimit).toNat < (leftToList store request).length
    ∧ (leftToList store request)[(min asked maxLimit).toNat - 1]? = some last
    ∧ unencodable last.runId = true

/-- Flows are listed, with nothing wrong in the request, and a page ends so. -/
structure CutAtSurrogate (unencodable : String → Bool) (store : MemoryDataSource) (maxLimit : ℤ)
    (request : MeterRequest) : Prop where
  method : request.method = "GET" ∨ request.method = "HEAD"
  listing : (theRouter.matchPath "GET" request.path).route.map Route.handler = some .listFlows
  readable : ¬ Unreadable store request
  ends : EndsAtSurrogate unencodable store maxLimit request

open Classical in
/-- The table. -/
noncomputable def expectedStatus (store : MemoryDataSource) (request : MeterRequest) : ℕ :=
  if ¬ Templated request.path then 404
  else if request.method = "OPTIONS" then 204
  else if ¬ (request.method = "GET" ∨ request.method = "HEAD") then 405
  else if UnknownRun store request.path then 404
  else if Unreadable store request then 400
  else 200

/-! ### The path -/

theorem compiled_eq_map : theRouter.compiled
    = buildRoutes.map fun route => (route, pieces route.template) := rfl

theorem matches_iff_of_mem {route : Route Endpoint} (h : route ∈ buildRoutes) {path : String} :
    route.Matches path ↔ (matchPieces (pieces route.template) path.toList).isSome := by
  have hdistinct := (Router.of_init init_buildRoutes).2 route h
  constructor
  · rintro ⟨pattern, hpattern, hsome⟩
    rwa [(compile_eq_some_iff.mp hpattern).2] at hsome
  · exact fun hsome => ⟨_, compile_eq_some_iff.mpr ⟨hdistinct, rfl⟩, hsome⟩

theorem not_templated_iff {path : String} :
    ¬ Templated path ↔ ∀ p ∈ theRouter.compiled, matchPieces p.2 path.toList = none := by
  rw [compiled_eq_map, List.forall_mem_map, Templated, not_exists]
  refine forall_congr' fun route => ?_
  rw [not_and]
  refine forall_congr' fun hroute => ?_
  rw [matches_iff_of_mem hroute, Option.not_isSome_iff_eq_none]

/-- What the table makes of a path that has a template, and of one that has none. -/
theorem matchPath_get_of_templated {path : String} (h : Templated path) :
    ∃ route params, theRouter.matchPath "GET" path
          = { outcome := .matched, route := some route, params := params }
        ∧ params = if route.handler.ofRun?.isSome
          then (∅ : Dict String String).set "run_id" (params.getD "run_id" "") else ∅ := by
  rcases matchPath_get path with hmatch | ⟨-, hnone⟩
  · exact hmatch
  · exact absurd h (not_templated_iff.mpr hnone)

theorem matchPath_get_of_not_templated {path : String} (h : ¬ Templated path) :
    theRouter.matchPath "GET" path = { outcome := .notFound } := by
  rw [matchPath_of_get, List.findSome?_eq_none_iff.mpr]
  · rfl
  · intro p hp
    rw [not_templated_iff.mp h p hp]
    rfl

/-- Where no route has the method, none is taken. -/
theorem matchLoop_of_ne {method : String} {path : List Char}
    {compiled : List (Route Endpoint × List Piece)}
    (h : ∀ p ∈ compiled, p.1.method ≠ method) (allowed : List String) :
    ((∀ p ∈ compiled, matchPieces p.2 path = none) → allowed = [] →
        (Router.matchLoop method path compiled allowed).outcome = .notFound)
      ∧ ((¬ ∀ p ∈ compiled, matchPieces p.2 path = none) ∨ allowed ≠ [] →
        (Router.matchLoop method path compiled allowed).outcome = .methodNotAllowed) := by
  induction compiled generalizing allowed with
  | nil => cases allowed <;> simp [Router.matchLoop]
  | cons p compiled ih =>
    obtain ⟨route, pattern⟩ := p
    obtain ⟨hne, hrest⟩ := List.forall_mem_cons.mp h
    rw [Router.matchLoop, List.forall_mem_cons]
    cases hvalues : matchPieces pattern path with
    | none => simpa only [hvalues, true_and] using ih hrest allowed
    | some values =>
      dsimp only
      rw [if_neg hne]
      exact ⟨fun hnone => absurd hnone.1 (by simp), fun _ => (ih hrest _).2 (.inr (by simp))⟩

/-- No other method is that of a route. -/
theorem outcome_of_ne {method path : String} (h : method ≠ "GET") :
    (Templated path → (theRouter.matchPath method path).outcome = .methodNotAllowed)
      ∧ (¬ Templated path → (theRouter.matchPath method path).outcome = .notFound) := by
  have hmethod : ∀ p ∈ theRouter.compiled, p.1.method ≠ method := by
    exact fun p hp heq => h (heq.symm.trans (method_compiled p hp))
  obtain ⟨hnone, hsome⟩ := @matchLoop_of_ne method path.toList theRouter.compiled hmethod []
  refine ⟨fun htemplated => hsome (.inl fun hall => ?_),
    fun hnot => hnone (not_templated_iff.mp hnot) rfl⟩
  exact not_templated_iff.mpr hall htemplated

/-! ### The endpoints -/

section Endpoints

variable {store : MemoryDataSource} {maxLimit : ℤ} {vitals : Vitals}
  {unencodable : String → Bool} {request : MeterRequest}

theorem not_noHistory_memoryService (endpoint : Endpoint) :
    ¬ NoHistory (memoryService store maxLimit) endpoint := by
  cases endpoint <;> simp [NoHistory, memoryService, Meter.supportsEvents, Meter.reader,
    WritableDataSource.toDataSource]

theorem missing_memoryService_iff {endpoint : Endpoint} {runId : String} :
    Missing (memoryService store maxLimit) runId endpoint
      ↔ endpoint.ofRun?.isSome ∧ store.getFlow runId = none := by
  cases endpoint with
  | health | listFlows => simp [Missing, Endpoint.ofRun?]
  | getFlow | getEvents | stream => exact ⟨fun h => ⟨rfl, h⟩, And.right⟩
  | getAtoms =>
    have hatoms : (memoryService store maxLimit).meter.getAtoms runId = none
        ↔ store.getFlow runId = none :=
      Option.map_eq_none_iff
    simpa [Missing, Endpoint.ofRun?] using hatoms

theorem one_le_limit (hmax : 1 ≤ maxLimit) {default limit : ℤ}
    (hlimit : (memoryService store maxLimit).limit request default = .ok limit) : 1 ≤ limit := by
  obtain ⟨asked, -, hasked, rfl⟩ := MeterService.limit_eq_ok hlimit
  exact le_min hasked hmax

theorem unknownMarker_memoryService_iff (hmax : 1 ≤ maxLimit) (hbad : ¬ BadLimit request) :
    UnknownMarker (memoryService store maxLimit) request
      ↔ ∃ marker, request.get "marker" = some marker
        ∧ ∀ flow ∈ store.matching { state := request.get "state", bookId := request.get "book_id" },
          flow.runId ≠ marker := by
  obtain ⟨limit, hlimit⟩ :=
    MeterService.limit_of_not_bad hbad (memoryService store maxLimit)
      (by decide : 1 ≤ DEFAULT_FLOW_LIMIT)
  have hlow := one_le_limit hmax hlimit
  generalize hfilter :
    ({ state := request.get "state", bookId := request.get "book_id" } : FlowFilter) = filter
  have hunknown : UnknownMarker (memoryService store maxLimit) request
      ↔ ∃ message, store.listFlows filter limit (request.get "marker")
        = .error (.unknownMarker message) := by
    rw [UnknownMarker, hfilter]
    constructor
    · rintro ⟨limit', message, hlimit', hlist⟩
      obtain rfl := Except.ok.inj (hlimit.symm.trans hlimit')
      exact ⟨message, hlist⟩
    · exact fun ⟨message, hlist⟩ => ⟨limit, message, hlimit, hlist⟩
  rw [hunknown]
  cases hmarker : request.get "marker" with
  | none =>
    rw [MemoryDataSource.listFlows_none store filter hlow]
    simp
  | some marker =>
    by_cases hknown : ∃ flow ∈ store.matching filter, flow.runId = marker
    · obtain ⟨flow, hflow, rfl⟩ := hknown
      obtain ⟨hget, hadmits⟩ := MemoryDataSource.mem_matching.mp hflow
      rw [MemoryDataSource.listFlows_some hlow hget hadmits]
      refine iff_of_false (by simp) ?_
      rintro ⟨marker, heq, hnone⟩
      exact hnone flow hflow (Option.some.inj heq)
    · have hnone : ∀ flow ∈ store.matching filter, flow.runId ≠ marker :=
        fun flow hflow heq => hknown ⟨flow, hflow, heq⟩
      have hlist : store.listFlows filter limit (some marker) = .error (unknownMarker marker) := by
        refine MemoryDataSource.listFlows_unknown hlow fun flow hget => ?_
        by_contra hadmits
        obtain ⟨run, hrun, rfl⟩ := Option.map_eq_some_iff.mp hget
        have hid := (store.kept marker run hrun).runId_flow
        refine hnone run.flow (MemoryDataSource.mem_matching.mpr ⟨?_, by simpa using hadmits⟩) hid
        rw [hid]
        exact hget
      rw [hlist]
      exact iff_of_true ⟨_, rfl⟩ ⟨marker, rfl, hnone⟩

theorem malformed_memoryService_iff (hmax : 1 ≤ maxLimit) {endpoint : Endpoint} :
    Malformed (memoryService store maxLimit) request endpoint
      ↔ UnreadableAt store request endpoint := by
  cases endpoint with
  | health | getFlow | getAtoms | getEvents | stream => rfl
  | listFlows =>
    by_cases hbad : BadLimit request
    · exact iff_of_true (.inl hbad) (.inl hbad)
    · exact or_congr_right (unknownMarker_memoryService_iff hmax hbad)

/-- The page of a listing that can be read. -/
theorem listFlows_eq_pageOf (h : ¬ UnreadableAt store request .listFlows) {limit : ℤ}
    (hlimit : 1 ≤ limit) :
    store.listFlows { state := request.get "state", bookId := request.get "book_id" } limit
        (request.get "marker")
      = .ok (pageOf limit.toNat (leftToList store request)) := by
  rw [leftToList]
  cases hmarker : request.get "marker" with
  | none => exact MemoryDataSource.listFlows_none store _ hlimit
  | some marker =>
    refine MemoryDataSource.listFlows_of_mem hlimit ?_
    by_contra hnone
    exact h (.inr ⟨marker, hmarker, fun flow hflow heq => hnone ⟨flow, hflow, heq⟩⟩)

theorem unencodableNext_memoryService_iff (hmax : 1 ≤ maxLimit)
    (h : ¬ UnreadableAt store request .listFlows) :
    UnencodableNext (memoryDispatcher store maxLimit vitals unencodable) request .listFlows
      ↔ EndsAtSurrogate unencodable store maxLimit request := by
  constructor
  · rintro ⟨limit, page, marker, hlimit, hlist, hmarker, hlone⟩
    have hlow := one_le_limit hmax hlimit
    obtain ⟨asked, hasked, -, rfl⟩ := MeterService.limit_eq_ok hlimit
    obtain rfl := Except.ok.inj ((listFlows_eq_pageOf h hlow).symm.trans hlist)
    obtain ⟨hmore, last, hlast, rfl⟩ := (nextMarker_pageOf (by omega)).mp hmarker
    exact ⟨asked, last, hasked, hmore, hlast, hlone⟩
  · rintro ⟨asked, last, hasked, hmore, hlast, hlone⟩
    obtain ⟨limit, hlimit⟩ := MeterService.limit_of_not_bad (fun hbad => h (.inl hbad))
      (memoryService store maxLimit) (by decide : 1 ≤ DEFAULT_FLOW_LIMIT)
    have hlow := one_le_limit hmax hlimit
    obtain ⟨asked', hasked', -, hmin⟩ := MeterService.limit_eq_ok hlimit
    obtain rfl := Except.ok.inj (hasked'.symm.trans hasked)
    have hpage := listFlows_eq_pageOf h hlow
    subst hmin
    exact ⟨_, _, last.runId, hlimit, hpage,
      (nextMarker_pageOf (by omega)).mpr ⟨hmore, last, hlast, rfl⟩, hlone⟩

/-- Only a listing has a next page. -/
theorem handler_of_unencodableNext {d : Dispatcher} {endpoint : Endpoint}
    (h : UnencodableNext d request endpoint) : endpoint = .listFlows := by
  cases endpoint with
  | listFlows => rfl
  | health | getFlow | getAtoms | getEvents | stream => cases h

/-- An in-process store refuses no limit that the service lets through. -/
theorem not_refuses_memoryService (hmax : 1 ≤ maxLimit) (message : String) :
    ¬ Refuses (memoryService store maxLimit) message := by
  rintro ⟨request, default, limit, hlimit, ⟨filter, marker, hlist⟩ | ⟨runId, since, hevents⟩⟩
  · have hlow := one_le_limit hmax hlimit
    have hlist' : store.listFlows filter limit marker = .error (.valueError message) := hlist
    rw [MemoryDataSource.listFlows, if_neg (not_lt.mpr hlow)] at hlist'
    cases marker with
    | none => cases hlist'
    | some marker =>
      rw [listPage] at hlist'
      split at hlist' <;> cases hlist'
  · have hlow := one_le_limit hmax hlimit
    have hevents' : store.eventsSince runId since limit = .error message := hevents
    rw [store.eventsSince_eq runId since hlow] at hevents'
    cases hevents'

end Endpoints

/-! ### The table -/

section Table

variable {store : MemoryDataSource} {maxLimit : ℤ} {vitals : Vitals}
  {unencodable : String → Bool} {d : Dispatcher} {request : MeterRequest}

/-- A request is answered with a status. -/
def AnsweredWith (d : Dispatcher) (request : MeterRequest) (status : ℕ) : Prop :=
  ∃ result, d.dispatch request = .ok result ∧ result.status = status

theorem answeredWith_of_error {error : ApiError} (h : d.route request = .error (.api error)) :
    AnsweredWith d request error.kind.status := by
  refine ⟨.response (.fromError error), ?_, rfl⟩
  rw [dispatch, h]

theorem answeredWith_of_ok {result : Result} (h : d.route request = .ok result) :
    AnsweredWith d request result.status := by
  refine ⟨result, ?_, rfl⟩
  rw [dispatch, h]

theorem answeredWith_options (service : MeterService) (h : request.method = "OPTIONS") :
    (Templated request.path → AnsweredWith (ofService service vitals unencodable) request 204)
      ∧ (¬ Templated request.path →
        AnsweredWith (ofService service vitals unencodable) request 404) := by
  have hmethod : ∀ route ∈ theRouter.routes, route.method = "GET" := by decide
  constructor
  · intro htemplated
    obtain ⟨_, _, hmatch, -⟩ := matchPath_get_of_templated htemplated
    have hallowed : ((theRouter.routes.filter fun route =>
        (theRouter.matchPath route.method request.path).outcome
          = .matched).map Route.method) ≠ [] := by
      rw [List.filter_eq_self.mpr]
      · decide
      · intro route hroute
        rw [hmethod route hroute, hmatch]
        rfl
    obtain ⟨headers, hroute⟩ : ∃ headers, (ofService service vitals unencodable).route request
        = .ok (.response { status := 204, headers := headers }) := by
      rw [Dispatcher.route, if_pos h]
      exact ⟨_, if_neg hallowed⟩
    exact answeredWith_of_ok hroute
  · intro hnot
    have hallowed : ((theRouter.routes.filter fun route =>
        (theRouter.matchPath route.method request.path).outcome
          = .matched).map Route.method) = [] := by
      rw [List.map_eq_nil_iff, List.filter_eq_nil_iff]
      intro route hroute
      rw [hmethod route hroute, matchPath_get_of_not_templated hnot]
      decide
    have hroute : (ofService service vitals unencodable).route request
        = .error (notFound ("no such endpoint: " ++ request.path)) := by
      rw [Dispatcher.route, if_pos h]
      exact if_pos hallowed
    exact answeredWith_of_error hroute

theorem answeredWith_other (service : MeterService) (hoptions : request.method ≠ "OPTIONS")
    (hget : ¬ (request.method = "GET" ∨ request.method = "HEAD")) :
    (Templated request.path → AnsweredWith (ofService service vitals unencodable) request 405)
      ∧ (¬ Templated request.path →
        AnsweredWith (ofService service vitals unencodable) request 404) := by
  have hwanted : wanted request.method = request.method := if_neg fun h => hget (.inr h)
  obtain ⟨hsome, hnone⟩ := @outcome_of_ne request.method request.path fun h => hget (.inl h)
  constructor
  · intro htemplated
    have hroute : (ofService service vitals unencodable).route request
        = .error (.api
          { kind := .methodNotAllowed, detail := request.method ++ " is not allowed here"
            headers :=
              [("allow", allow (theRouter.matchPath request.method request.path).allowed)] }) := by
      rw [Dispatcher.route, if_neg hoptions]
      dsimp only [ofService]
      rw [hwanted, hsome htemplated]
    exact answeredWith_of_error hroute
  · intro hnot
    have hroute : (ofService service vitals unencodable).route request
        = .error (notFound ("no such endpoint: " ++ request.path)) := by
      rw [Dispatcher.route, if_neg hoptions]
      dsimp only [ofService]
      rw [hwanted, hnone hnot]
    exact answeredWith_of_error hroute

/-- What a GET or a HEAD of a path that has a template is answered with. -/
theorem answeredWith_get (hmax : 1 ≤ maxLimit)
    (hget : request.method = "GET" ∨ request.method = "HEAD")
    (htemplated : Templated request.path) :
    (UnknownRun store request.path →
        AnsweredWith (memoryDispatcher store maxLimit vitals unencodable) request 404)
      ∧ (¬ UnknownRun store request.path → Unreadable store request →
        AnsweredWith (memoryDispatcher store maxLimit vitals unencodable) request 400)
      ∧ (¬ UnknownRun store request.path → ¬ Unreadable store request →
        ¬ CutAtSurrogate unencodable store maxLimit request →
          AnsweredWith (memoryDispatcher store maxLimit vitals unencodable) request 200) := by
  obtain ⟨route, params, hmatch, hparams⟩ := matchPath_get_of_templated htemplated
  have hnamed := named_of_params hparams request
  have hunknown : UnknownRun store request.path
      ↔ Missing (memoryService store maxLimit) (params.getD "run_id" "") route.handler := by
    rw [missing_memoryService_iff, UnknownRun, hmatch]
    simp
  have hunreadable : Unreadable store request
      ↔ UnreadableAt store { request with pathParams := params } route.handler := by
    rw [Unreadable, hmatch]
    simp only [Option.some.injEq, exists_eq_left']
    rfl
  have hmalformed := @malformed_memoryService_iff store maxLimit
    { request with pathParams := params } hmax route.handler
  have hroute : ∀ {answer : Except Raised Result},
      (memoryDispatcher store maxLimit vitals unencodable).handle route.handler
          { request with pathParams := params } = answer →
        (ofService (memoryService store maxLimit) vitals unencodable).route request
          = answer.map (withoutBody request.method) := by
    rintro answer rfl
    exact route_of_matched hget hmatch
  rw [hunknown, hunreadable]
  refine ⟨fun hmissing => ?_, fun hthere hbad => ?_, fun hthere hgood hcut => ?_⟩
  · obtain ⟨detail, hhandle⟩ := handle_of_missing
      (d := memoryDispatcher store maxLimit vitals unencodable) hnamed
       (not_noHistory_memoryService _) hmissing
    exact answeredWith_of_error (hroute hhandle)
  · obtain ⟨detail, hhandle⟩ := handle_of_malformed
      (d := memoryDispatcher store maxLimit vitals unencodable) hnamed
       (not_noHistory_memoryService _) hthere (hmalformed.mpr hbad)
    exact answeredWith_of_error (hroute hhandle)
  · have hnext : ¬ UnencodableNext (memoryDispatcher store maxLimit vitals unencodable)
        { request with pathParams := params } route.handler := by
      intro hnext
      have hlisting := handler_of_unencodableNext hnext
      rw [hlisting] at hnext hgood
      refine hcut ⟨hget, by rw [hmatch, Option.map_some, hlisting], ?_,
        (unencodableNext_memoryService_iff hmax hgood).mp hnext⟩
      rw [hunreadable, hlisting]
      exact hgood
    rcases handle_of_checked (d := memoryDispatcher store maxLimit vitals unencodable) hnamed
       (not_noHistory_memoryService _) hthere (fun hbad => hgood (hmalformed.mp hbad)) hnext with
      ⟨payload, hhandle⟩ | ⟨cursor, hhandle⟩ | ⟨message, -, hrefuses⟩
    · have hanswered := answeredWith_of_ok (hroute hhandle)
      by_cases hhead : request.method = "HEAD"
      · rwa [withoutBody, if_pos hhead] at hanswered
      · rwa [withoutBody, if_neg hhead] at hanswered
    · exact answeredWith_of_ok (hroute hhandle)
    · exact absurd hrefuses (not_refuses_memoryService hmax message)

/-- **Every request but one for such a page is answered, with the status of the table.** -/
theorem answeredWith_expectedStatus (hmax : 1 ≤ maxLimit) (vitals : Vitals)
    (h : ¬ CutAtSurrogate unencodable store maxLimit request) :
    AnsweredWith (memoryDispatcher store maxLimit vitals unencodable) request
      (expectedStatus store request) := by
  unfold expectedStatus
  by_cases htemplated : Templated request.path
  · rw [if_neg (not_not.mpr htemplated)]
    by_cases hoptions : request.method = "OPTIONS"
    · rw [if_pos hoptions]
      exact (answeredWith_options _ hoptions).1 htemplated
    · rw [if_neg hoptions]
      by_cases hget : request.method = "GET" ∨ request.method = "HEAD"
      · rw [if_neg (not_not.mpr hget)]
        obtain ⟨h404, h400, h200⟩ :=
          @answeredWith_get store maxLimit vitals unencodable request hmax hget htemplated
        split_ifs with hunknown hunreadable
        · exact h404 hunknown
        · exact h400 hunknown hunreadable
        · exact h200 hunknown hunreadable h
      · rw [if_pos hget]
        exact (answeredWith_other _ hoptions hget).1 htemplated
  · rw [if_pos htemplated]
    by_cases hoptions : request.method = "OPTIONS"
    · exact (answeredWith_options _ hoptions).2 htemplated
    · by_cases hget : request.method = "GET" ∨ request.method = "HEAD"
      · have hroute : (ofService (memoryService store maxLimit) vitals unencodable).route request
            = .error (notFound ("no such endpoint: " ++ request.path)) :=
          route_of_notFound hget (matchPath_get_of_not_templated htemplated)
        exact answeredWith_of_error hroute
      · exact (answeredWith_other _ hoptions hget).2 htemplated

/-- **What cannot be percent-encoded is raised**, and nothing catches it. -/
theorem dispatch_of_cutAtSurrogate (hmax : 1 ≤ maxLimit) (vitals : Vitals)
    (h : CutAtSurrogate unencodable store maxLimit request) :
    ∃ marker, (memoryDispatcher store maxLimit vitals unencodable).dispatch request
      = .error (.unicodeEncodeError marker) := by
  obtain ⟨route, hfound, hlisting⟩ := Option.map_eq_some_iff.mp h.listing
  rcases matchPath_get request.path with ⟨route', params, hmatch, -⟩ | ⟨hmatch, -⟩
  · rw [hmatch] at hfound
    obtain rfl := Option.some.inj hfound
    have hgood : ¬ UnreadableAt store { request with pathParams := params } .listFlows :=
      fun hbad => h.readable ⟨route', by rw [hmatch], by rw [hlisting]; exact hbad⟩
    obtain ⟨marker, hhandle⟩ := handle_of_unencodableNext
      ((@unencodableNext_memoryService_iff store maxLimit vitals unencodable
        { request with pathParams := params } hmax hgood).mpr h.ends)
    have hroute : (ofService (memoryService store maxLimit) vitals unencodable).route request
        = _ := route_of_matched h.method hmatch
    rw [hlisting, hhandle] at hroute
    refine ⟨marker, ?_⟩
    rw [dispatch, hroute]
    rfl
  · rw [hmatch] at hfound
    cases hfound

/-! ### The pages -/

/-- A page of this size is no larger than asked for, nor than the service allows. -/
def WithinLimit (service : MeterService) (request : MeterRequest) (default : ℤ) (size : ℕ) : Prop :=
  ∃ asked, request.getInt "limit" default = .ok asked ∧ (size : ℤ) ≤ min asked service.maxLimit

/-- The frames of the polls of a cursor, each made while the store is in some state. -/
def batches : EventCursor → List MemoryDataSource → List (List Frame)
  | _, [] => []
  | cursor, store :: stores =>
      match cursor.poll store.eventsSince store.getFlow with
      | .ok (frames, cursor) => frames :: batches cursor stores
      | .error _ => []

/-- No page of flows or of events, and no batch of a stream, is larger than asked for. -/
structure PagesBounded (service : MeterService) (unencodable : String → Bool)
    (request : MeterRequest) : Prop where
  flows : ∀ payload, service.listFlows request unencodable = .ok payload →
    ∃ items, payload.field? "flows" = some (.arr items)
      ∧ WithinLimit service request DEFAULT_FLOW_LIMIT items.length
  events : ∀ payload, service.getEvents request = .ok payload →
    ∃ items, payload.field? "events" = some (.arr items)
      ∧ WithinLimit service request DEFAULT_EVENT_LIMIT items.length
  batches : ∀ cursor, service.stream request = .ok cursor
    → ∀ stores, ∀ frames ∈ batches cursor stores,
    WithinLimit service request DEFAULT_EVENT_LIMIT (frames.filter (·.eventId.isSome)).length

theorem withinLimit_of_limit {service : MeterService} {default limit : ℤ} {size : ℕ}
    (hlimit : service.limit request default = .ok limit) (hsize : (size : ℤ) ≤ limit) :
    WithinLimit service request default size := by
  obtain ⟨asked, hasked, -, rfl⟩ := MeterService.limit_eq_ok hlimit
  exact ⟨asked, hasked, hsize⟩

theorem length_items_listFlows {filter : FlowFilter} {limit : ℤ} {marker : Option String}
    {page : FlowPage}
    (h : store.listFlows filter limit marker = .ok page) : (page.items.length : ℤ) ≤ limit := by
  have hpage : ∀ flows start, ((pageFrom flows limit.toNat start).items.length : ℤ)
      ≤ max limit 0 := by
    intro flows start
    have hle := List.length_take_le limit.toNat (flows.drop start)
    show (((flows.drop start).take limit.toNat).length : ℤ) ≤ _
    omega
  rw [MemoryDataSource.listFlows] at h
  split at h
  · cases h
  · next hlow =>
    rw [← max_eq_left (by omega : 0 ≤ limit)]
    cases marker with
    | none =>
      obtain rfl := Except.ok.inj h
      exact hpage _ _
    | some marker =>
      rw [listPage] at h
      split at h
      · cases h
      · obtain rfl := Except.ok.inj h
        exact hpage _ _

theorem length_events_eventsSince {runId : String} {since limit : ℤ} {page : EventPage}
    (h : store.eventsSince runId since limit = .ok page) : (page.events.length : ℤ) ≤ limit := by
  by_cases hlow : 1 ≤ limit
  · rw [store.eventsSince_eq runId since hlow] at h
    obtain rfl := Except.ok.inj h
    exact (eventPage_events (seqSorted_sortedBySeq _) since hlow).length_le
  · rw [MemoryDataSource.eventsSince, if_pos (not_le.mp hlow)] at h
    cases h

/-- Of the frames of a page those of its events carry numbers. -/
theorem filter_drain (cursor : EventCursor) (page : EventPage) :
    (cursor.drain page).1.filter (·.eventId.isSome) = page.events.map EventCursor.eventFrame := by
  have hgap : (if page.truncated then [EventCursor.gapFrame page] else []).filter (·.eventId.isSome)
      = [] := by
    split <;> rfl
  rw [EventCursor.drain, List.filter_append, hgap, List.nil_append, List.filter_eq_self]
  intro frame hframe
  obtain ⟨item, -, rfl⟩ := List.mem_map.mp hframe
  rfl

theorem filter_close (cursor : EventCursor) (snapshot : Option FlowSnapshot) :
    (cursor.close snapshot).1.filter (·.eventId.isSome) = [] := by
  rw [EventCursor.close]
  split <;> rfl

theorem batchLimit_close (cursor : EventCursor) (snapshot : Option FlowSnapshot) :
    (cursor.close snapshot).2.batchLimit = cursor.batchLimit := by
  rw [EventCursor.close]
  split <;> rfl

/-- A poll frames the events of one page, and goes on with the same limit. -/
theorem batchLimit_poll {cursor cursor' : EventCursor} {frames : List Frame}
    (h : cursor.poll store.eventsSince store.getFlow = .ok (frames, cursor')) :
    cursor'.batchLimit = cursor.batchLimit
      ∧ ((frames.filter (·.eventId.isSome)).length : ℤ) ≤ cursor.batchLimit := by
  rw [EventCursor.poll] at h
  cases hpage : store.eventsSince cursor.runId cursor.sinceSeq cursor.batchLimit with
  | error e =>
    rw [hpage] at h
    cases h
  | ok page =>
    have hlength := length_events_eventsSince hpage
    rw [hpage] at h
    dsimp only at h
    split at h
    · obtain ⟨rfl, rfl⟩ := Prod.mk.inj (Except.ok.inj h)
      rw [List.filter_append, filter_drain, filter_close, List.append_nil, List.length_map]
      exact ⟨batchLimit_close _ _, hlength⟩
    · have hdrain := Except.ok.inj h
      have hframes : (cursor.drain page).1 = frames := congrArg Prod.fst hdrain
      have hcursor : (cursor.drain page).2 = cursor' := congrArg Prod.snd hdrain
      rw [← hframes, ← hcursor, filter_drain, List.length_map]
      exact ⟨rfl, hlength⟩

theorem length_batches {cursor : EventCursor} {stores : List MemoryDataSource} {frames : List Frame}
    (h : frames ∈ batches cursor stores) :
    ((frames.filter (·.eventId.isSome)).length : ℤ) ≤ cursor.batchLimit := by
  induction stores generalizing cursor with
  | nil => simp [batches] at h
  | cons store stores ih =>
    rw [batches] at h
    split at h
    · next frames' cursor' hpoll =>
      obtain ⟨hlimit, hlength⟩ := batchLimit_poll hpoll
      rcases List.mem_cons.mp h with rfl | h
      · exact hlength
      · exact hlimit ▸ ih h
    · simp at h

/-- **No page is larger than asked for**, nor than the service allows. -/
theorem pagesBounded (store : MemoryDataSource) (maxLimit : ℤ) (unencodable : String → Bool)
    (request : MeterRequest) :
    PagesBounded (memoryService store maxLimit) unencodable request where
  flows payload h := by
    obtain ⟨limit, hlimit, h⟩ := bind_eq_ok_iff.mp h
    split at h
    · next page hpage =>
      split at h
      · cases h
      · obtain rfl := Except.ok.inj h
        refine ⟨_, rfl, withinLimit_of_limit hlimit ?_⟩
        rw [List.length_map]
        exact length_items_listFlows hpage
    · cases h
    · cases h
  events payload h := by
    obtain ⟨runId, -, h⟩ := bind_eq_ok_iff.mp h
    obtain ⟨-, -, h⟩ := bind_eq_ok_iff.mp h
    obtain ⟨-, -, h⟩ := bind_eq_ok_iff.mp h
    obtain ⟨since, -, h⟩ := bind_eq_ok_iff.mp h
    obtain ⟨limit, hlimit, h⟩ := bind_eq_ok_iff.mp h
    split at h
    · next page hpage =>
      obtain rfl := Except.ok.inj h
      refine ⟨_, rfl, withinLimit_of_limit hlimit ?_⟩
      rw [List.length_map]
      exact length_events_eventsSince hpage
    · cases h
  batches cursor h stores frames hframes := by
    obtain ⟨runId, -, h⟩ := bind_eq_ok_iff.mp h
    obtain ⟨-, -, h⟩ := bind_eq_ok_iff.mp h
    obtain ⟨-, -, h⟩ := bind_eq_ok_iff.mp h
    obtain ⟨since, -, h⟩ := bind_eq_ok_iff.mp h
    obtain ⟨limit, hlimit, h⟩ := bind_eq_ok_iff.mp h
    obtain rfl := Except.ok.inj h
    exact withinLimit_of_limit hlimit (length_batches hframes)

end Table

/-- The table, status by status: a method that no route has, an endpoint or a run that is not there,
a request that cannot be read, and those that are answered; and no page is too large. -/
structure AsTabled (store : MemoryDataSource) (maxLimit : ℤ) (unencodable : String → Bool)
    (request : MeterRequest) (status : ℕ) : Prop where
  methodNotAllowed : status = 405
    ↔ Templated request.path ∧ request.method ∉ ["GET", "HEAD", "OPTIONS"]
  notFound : status = 404
    ↔ ¬ Templated request.path ∨ request.method ∈ ["GET", "HEAD"] ∧ UnknownRun store request.path
  badRequest : status = 400
    ↔ request.method ∈ ["GET", "HEAD"] ∧ Templated request.path ∧ ¬ UnknownRun store request.path
      ∧ Unreadable store request
  noContent : status = 204 ↔ Templated request.path ∧ request.method = "OPTIONS"
  ok : status = 200
    ↔ request.method ∈ ["GET", "HEAD"] ∧ Templated request.path ∧ ¬ UnknownRun store request.path
      ∧ ¬ Unreadable store request
  pages : ∀ params,
    PagesBounded (memoryService store maxLimit) unencodable { request with pathParams := params }

theorem asTabled_expectedStatus (store : MemoryDataSource) (maxLimit : ℤ)
    (unencodable : String → Bool) (request : MeterRequest) :
    AsTabled store maxLimit unencodable request (expectedStatus store request) := by
  by_cases htemplated : Templated request.path
  · by_cases hoptions : request.method = "OPTIONS"
    · constructor <;> simp [expectedStatus, htemplated, hoptions, pagesBounded]
    · by_cases hget : request.method = "GET" ∨ request.method = "HEAD"
      · by_cases hunknown : UnknownRun store request.path <;>
          by_cases hunreadable : Unreadable store request <;> constructor <;>
            simp [expectedStatus, htemplated, hoptions, hget, hunknown, hunreadable, pagesBounded]
      · have hmethods := not_or.mp hget
        constructor <;> simp [expectedStatus, htemplated, hoptions, hmethods, pagesBounded]
  · constructor <;> simp [expectedStatus, htemplated, pagesBounded]

/-- A request is answered, no exception escapes, and the status is that of the table. -/
def AnsweredAsTabled (unencodable : String → Bool) (store : MemoryDataSource) (maxLimit : ℤ)
    (vitals : Vitals) (request : MeterRequest) : Prop :=
  ∃ result, (memoryDispatcher store maxLimit vitals unencodable).dispatch request = .ok result
    ∧ AsTabled store maxLimit unencodable request result.status

/-- Two runs, the newer of which has a lone surrogate for its id. -/
def surrogateStore : MemoryDataSource :=
  noRuns.applyMany [{ flowEvent 1 States.RUNNING with runId := "\\ud800" },
    { flowEvent 1 States.RUNNING with ts := 0 }]

def isSurrogate (runId : String) : Bool := runId = "\\ud800"

/-- One flow to a page, on an interpreter as it comes. -/
def oneFlow : MeterRequest :=
  .fromQueryString "limit=1" { path := Routes.FLOWS, maxStrDigits := some 4300 }

end TaskflowMeter
