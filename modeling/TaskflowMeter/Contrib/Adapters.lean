import TaskflowMeter.Api.Apps
import TaskflowMeter.Contrib.Hosts

/-!
# What the adapters answer

A host that routes by itself calls the handler of the route that it has matched; Pecan hands what it
has not consumed to the WSGI callable.  Both answer what the dispatcher would.

## Main definitions

* `Dispatcher.run` — the handler of a route that the host has matched.
* `Result.headers`, `collected` — the headers of an answer, in a mapping of the host.
* `Pecan.split`, `Pecan.delegate` — what Pecan has consumed, and the environ it hands over.
* `Pecan.Routed` — a request as Pecan has routed it, for an endpoint or not.

## Main results

* `run_eq_dispatch` — **a route that the host has matched is the one that the dispatcher finds.**
* `hosts_answer_alike` — every host answers a request for an endpoint as the two callables do.
* `pecan_answers_alike` — and Pecan any request as the ASGI callable does.
-/

namespace TaskflowMeter

open Results Url Utf8

/-- Our own errors are rendered as JSON; what is none of ours is raised again. -/
def Raised.rendered : Raised → Except Raised Dispatcher.Result
  | .api error => .ok (.response (.fromError error))
  | other => .error other

/-- Invoke a handler the host has already matched. -/
def Dispatcher.run (d : Dispatcher) (route : Route Endpoint) (request : MeterRequest) :
    Except Raised Dispatcher.Result :=
  tryCatch (d.invoke route request) Raised.rendered

/-- The headers of an answer. -/
def Dispatcher.Result.headers : Dispatcher.Result → List (String × String)
  | .response r => r.headers
  | .stream s => s.headers

/-- The headers of an answer, set one by one in a mapping. -/
def collected (headers : List (String × String)) : Dict String String :=
  headers.foldl (fun d h => d.set h.1 h.2) ∅

namespace ClientRequest

open Dispatcher

variable (r : ClientRequest)

/-- The template that the host has filled in is found again in the table. -/
theorem matchPath_subPath : ∃ route, route.handler = r.route.handler
    ∧ theRouter.matchPath "GET" r.subPath
      = { outcome := .matched, route := some route, params := r.params } := by
  have hhandler : (theRouter.matchPath "GET" r.subPath).route.map Route.handler
      = some r.route.handler := by
    by_cases hrun : r.route.handler.ofRun?.isSome
    · exact (r.isFor_matchPath hrun).2.1
    · have hall : ∀ route ∈ buildRoutes, ¬route.handler.ofRun?.isSome →
          (theRouter.matchPath "GET" route.handler.template).route.map Route.handler
            = some route.handler := by decide
      rw [subPath, r.template_eq, formatTemplate_of_not_run hrun]
      exact hall r.route r.mem_buildRoutes hrun
  have hparams := r.params_matchPath
  rcases matchPath_get r.subPath with ⟨route, params, hmatch, -⟩ | ⟨hmatch, -⟩
  · rw [hmatch] at hhandler hparams
    refine ⟨route, Option.some.inj hhandler, ?_⟩
    rw [hmatch, ← hparams]
  · rw [hmatch] at hhandler
    simp at hhandler

/-- **A route that the host has matched is the one that the dispatcher finds.** -/
theorem run_eq_dispatch {request : MeterRequest} (hmethod : request.method = r.method)
    (hpath : request.path = r.subPath) (hparams : request.pathParams = r.params)
    (service : MeterService) (vitals : Vitals) (unencodable : String → Bool) :
    (ofService service vitals unencodable).run r.route request
      = (ofService service vitals unencodable).dispatch request := by
  obtain ⟨route, hhandler, hmatch⟩ := r.matchPath_subPath
  have hwanted : wanted request.method = "GET" := by rw [hmethod, r.get]
  have hoptions : request.method ≠ "OPTIONS" := by
    intro heq
    rw [heq] at hwanted
    exact absurd hwanted (by decide)
  have hroute : (ofService service vitals unencodable).route request
      = (ofService service vitals unencodable).invoke r.route request := by
    have hsame : { request with pathParams := r.params } = request := by rw [← hparams]
    rw [← hpath] at hmatch
    rw [Dispatcher.route, if_neg hoptions]
    dsimp only [ofService]
    rw [hwanted, hmatch]
    dsimp only
    rw [hsame, invoke, invoke, hhandler]
  rw [Dispatcher.run, Dispatcher.dispatch, hroute]
  cases (ofService service vitals unencodable).invoke r.route request with
  | error raised => cases raised <;> rfl
  | ok result => rfl

/-- The host hands over the query and the headers that the callables read. -/
structure HandsOver : Prop where
  query : ∀ name, r.hostQuery.get? name = (Asgi.buildRequest r.scope).query.get? name
  headers : ∀ name, (lowerHeaders r.hostHeaders).get? name
    = (Asgi.buildRequest r.scope).headers.get? name

theorem method_of_mem_hosts {host : MeterRequest} (h : host ∈ [r.fastapi, r.django, r.flask]) :
    host.method = r.method ∧ host.query = r.hostQuery
      ∧ host.headers = lowerHeaders r.hostHeaders ∧ host.maxStrDigits = none := by
  have hmethod : r.method ≠ "" := by
    intro heq
    have hget := r.get
    rw [heq] at hget
    exact absurd hget (by decide)
  simp only [List.mem_cons, List.not_mem_nil, or_false] at h
  rcases h with rfl | rfl | rfl
  · exact ⟨rfl, rfl, rfl, rfl⟩
  · exact ⟨if_neg hmethod, rfl, rfl, rfl⟩
  · exact ⟨rfl, rfl, rfl, rfl⟩

/-- A host's request agrees with that of the callables, parameters apart. -/
theorem agree_of_mem_hosts (hhosts : r.HostsAgree) (hover : r.HandsOver) {host : MeterRequest}
    (h : host ∈ [r.fastapi, r.django, r.flask]) : host.Agree (Asgi.buildRequest r.scope) := by
  obtain ⟨hmethod, hquery, hheaders, hdigits⟩ := r.method_of_mem_hosts h
  obtain ⟨hpath, hurl, -⟩ := hhosts host h r.asgi (by simp)
  refine ⟨hmethod, hpath, hurl, fun name => ?_, fun name => ?_, hdigits⟩
  · rw [hquery]
    exact hover.query name
  · rw [hheaders]
    exact hover.headers name

end ClientRequest

/-! ### Headers -/

/-- An error with an HTTP shape has no headers of its own. -/
def Headerless {α : Type} (x : Except Raised α) : Prop :=
  ∀ error, x = .error (.api error) → error.headers = []

namespace Headerless

variable {α β : Type}

theorem ok (a : α) : Headerless (.ok a) := by simp [Headerless]

theorem bind {x : Except Raised α} {f : α → Except Raised β} (hx : Headerless x)
    (hf : ∀ a, Headerless (f a)) : Headerless (x >>= f) := by
  intro error h
  cases x with
  | error raised =>
    obtain rfl := Except.error.inj h
    exact hx error rfl
  | ok a => exact hf a error h

theorem map {x : Except Raised α} {f : α → β} (hx : Headerless x) : Headerless (x.map f) := by
  intro error h
  cases x with
  | error raised =>
    obtain rfl := Except.error.inj h
    exact hx error rfl
  | ok a => simp [Except.map] at h

theorem error (kind : ApiErrorClass) (detail : String) :
    Headerless (.error (.api { kind := kind, detail := detail }) : Except Raised α) := by
  intro error h
  rw [← Raised.api.inj (Except.error.inj h)]

theorem getInt (request : MeterRequest) (name : String) (default : ℤ) :
    Headerless (request.getInt name default) := by
  rw [MeterRequest.getInt]
  split
  · exact ok _
  · split
    · exact ok _
    · split
      · exact ok _
      · exact error _ _

theorem param (request : MeterRequest) (name : String) : Headerless (request.param name) := by
  rw [MeterRequest.param]
  split
  · exact ok _
  · simp [Headerless]

theorem limit (service : MeterService) (request : MeterRequest) (default : ℤ) :
    Headerless (service.limit request default) := by
  rw [MeterService.limit]
  refine bind (getInt request "limit" default) fun limit => ?_
  dsimp only
  split
  · exact error _ _
  · exact ok _

theorem resumePoint (request : MeterRequest) : Headerless (MeterService.resumePoint request) := by
  rw [MeterService.resumePoint]
  split
  · exact getInt request "since_seq" 0
  · split
    · exact ok _
    · split
      · exact ok _
      · exact error _ _

theorem flowOr404 (service : MeterService) (runId : String) :
    Headerless (service.flowOr404 runId) := by
  rw [MeterService.flowOr404]
  split
  · exact ok _
  · exact error _ _

theorem requireEvents (service : MeterService) : Headerless service.requireEvents := by
  rw [MeterService.requireEvents]
  split
  · exact ok _
  · exact error _ _

/-- What a handler raises has no headers. -/
theorem handle (d : Dispatcher) (endpoint : Endpoint) (request : MeterRequest) :
    Headerless (d.handle endpoint request) := by
  cases endpoint with
  | health => exact ok _
  | listFlows =>
    refine map (bind (limit d.service request _) fun limit => ?_)
    split
    · split
      · simp [Headerless, throw, throwThe, MonadExceptOf.throw]
      · exact ok _
    · exact error _ _
    · simp [Headerless, throw, throwThe, MonadExceptOf.throw]
  | getFlow =>
    exact map (bind (param request "run_id") fun runId =>
      bind (flowOr404 d.service runId) fun snapshot => ok _)
  | getAtoms =>
    refine map (bind (param request "run_id") fun runId => ?_)
    split
    · exact error _ _
    · exact ok _
  | getEvents =>
    refine map (bind (param request "run_id") fun runId => bind (requireEvents d.service) fun _ =>
      bind (flowOr404 d.service runId) fun _ => bind (getInt request "since_seq" 0) fun since =>
      bind (limit d.service request _) fun limit => ?_)
    split
    · exact ok _
    · simp [Headerless, throw, throwThe, MonadExceptOf.throw]
  | stream =>
    exact map (bind (param request "run_id") fun runId => bind (requireEvents d.service) fun _ =>
      bind (flowOr404 d.service runId) fun _ => bind (resumePoint request) fun since =>
      bind (limit d.service request _) fun limit => ok _)

end Headerless

theorem nodup_headers_json (payload : Json) (status : ℕ) :
    ((MeterResponse.json payload status).headers.map Prod.fst).Nodup :=
  (by decide : ["content-type", "content-length"].Nodup)

theorem headers_withoutBody (method : String) (result : Dispatcher.Result) :
    (Dispatcher.withoutBody method result).headers = result.headers := by
  cases result with
  | stream s => rfl
  | response r =>
    rw [Dispatcher.withoutBody]
    split <;> rfl

/-- No name is repeated among the headers of what a handler returns. -/
theorem nodup_headers_handle {d : Dispatcher} {endpoint : Endpoint} {request : MeterRequest}
    {result : Dispatcher.Result} (h : d.handle endpoint request = .ok result) :
    (result.headers.map Prod.fst).Nodup := by
  cases endpoint with
  | health =>
    obtain rfl := Except.ok.inj h
    exact nodup_headers_json _ _
  | listFlows | getFlow | getAtoms | getEvents =>
    obtain ⟨payload, -, rfl⟩ := map_eq_ok_iff.mp h
    exact nodup_headers_json _ _
  | stream =>
    obtain ⟨cursor, -, rfl⟩ := map_eq_ok_iff.mp h
    exact (by decide : (SSE_HEADERS.map Prod.fst).Nodup)

/-- No name is repeated among the headers of an answer, be it a stream or an error. -/
theorem nodup_headers_run {d : Dispatcher} {route : Route Endpoint} {request : MeterRequest}
    {result : Dispatcher.Result} (h : d.run route request = .ok result) :
    (result.headers.map Prod.fst).Nodup := by
  have hheaderless := Headerless.handle d route.handler request
  rw [Dispatcher.run, Dispatcher.invoke] at h
  cases hhandle : d.handle route.handler request with
  | error raised =>
    rw [hhandle] at h
    cases raised with
    | api error =>
      obtain rfl := Except.ok.inj h
      rw [Dispatcher.Result.headers, MeterResponse.fromError, hheaderless error hhandle]
      exact nodup_headers_json _ _
    | lookupError | valueError | unicodeEncodeError => cases h
  | ok answer =>
    rw [hhandle] at h
    obtain rfl := Except.ok.inj h
    rw [headers_withoutBody]
    exact nodup_headers_handle hhandle

theorem entries_collected {headers : List (String × String)} (h : (headers.map Prod.fst).Nodup) :
    (collected headers).entries = headers := by
  rw [collected, Dict.entries_foldl_set h (by simp)]
  rfl

/-- **Every host answers a request for an endpoint as the two callables do**, if it builds the same
links and hands over the same query and headers; and a mapping holds all headers of the answer. -/
theorem hosts_answer_alike {r : ClientRequest} (hhosts : r.HostsAgree) (hover : r.HandsOver)
    (hread : (Asgi.buildRequest r.scope).Agree (Wsgi.buildRequest r.environ))
    (service : MeterService) (vitals : Vitals) (unencodable : String → Bool) :
    let d := Dispatcher.ofService service vitals unencodable
    ∀ host ∈ [r.fastapi, r.django, r.flask],
      d.run r.route host = d.dispatch (Asgi.buildRequest r.scope)
        ∧ d.run r.route host = d.dispatch (Wsgi.buildRequest r.environ)
        ∧ ∀ result, d.run r.route host = .ok result →
            (collected result.headers).entries = result.headers := by
  intro d host hhost
  obtain ⟨hpath, -, hparams⟩ := r.target_of_mem_hosts hhost
  have hrun : d.run r.route host = d.dispatch (Asgi.buildRequest r.scope) := by
    rw [r.run_eq_dispatch (r.method_of_mem_hosts hhost).1 hpath hparams service vitals unencodable]
    exact (r.agree_of_mem_hosts hhosts hover hhost).dispatch d
  refine ⟨hrun, hrun.trans (hread.dispatch d), fun result hresult => ?_⟩
  exact entries_collected (nodup_headers_run hresult)

theorem mem_buildRoutes_stream : ⟨"GET", Routes.STREAM, .stream, "stream"⟩ ∈ buildRoutes := by
  decide

theorem value_run : "run-1" ≠ "" ∧ '/' ∉ "run-1".toList := by decide

theorem mounted_stream : String.ofList (Utf8.decode askedStream.mountBytes) = "" ++ "" := by
  decide

theorem asked_stream : String.ofList (Utf8.decode askedStream.pathBytes)
    = formatTemplate Routes.STREAM fun _ => "run-1" := by decide +kernel

/-- The request for the stream, with nothing in front of the host. -/
def direct : ClientRequest where
  toHttpRequest := askedStream
  route := ⟨"GET", Routes.STREAM, .stream, "stream"⟩
  runId := "run-1"
  outer := ""
  inner := ""
  hostQuery := parseQs "limit=1"
  get := rfl
  mem_buildRoutes := mem_buildRoutes_stream
  value := value_run
  mounted := mounted_stream
  asked := asked_stream

theorem hosts_answer_alike_direct :
    let d := Dispatcher.ofService busyService { version := "1" }
    ∃ stream, d.run direct.route direct.flask = .ok (.stream stream)
      ∧ d.dispatch (Asgi.buildRequest direct.scope) = .ok (.stream stream)
      ∧ stream.cursor.batchLimit = 1 ∧ (collected stream.headers).entries = SSE_HEADERS := by
  intro d
  have hhosts : direct.HostsAgree := by
    have hall : ∀ host ∈ [direct.fastapi, direct.django, direct.flask],
        ∀ callable ∈ [direct.asgi, direct.wsgi], host.path = callable.path
          ∧ host.urlPrefix = callable.urlPrefix ∧ host.pathParams = callable.pathParams := by
      decide +kernel
    exact hall
  have hover : direct.HandsOver := ⟨fun _ => rfl, fun _ => rfl⟩
  have hread : (Asgi.buildRequest direct.scope).Agree (Wsgi.buildRequest direct.environ) :=
    ⟨by decide +kernel, by decide +kernel, by decide +kernel, fun _ => rfl, fun _ => rfl, rfl⟩
  obtain ⟨hasgi, -, hheaders⟩ :=
    hosts_answer_alike hhosts hover hread busyService { version := "1" } (fun _ => false)
      direct.flask (by simp)
  have hrun : d.run direct.route direct.flask
      = .ok (.stream { cursor := { runId := "run-1", batchLimit := 1 } }) :=
    rfl
  exact ⟨_, hrun, hasgi.symm.trans hrun, rfl, hheaders _ hrun⟩

/-! ### Pecan -/

namespace Pecan

/-- The path that is left for us, of the segments that Pecan has not consumed. -/
def subPath (remainder : List String) : String :=
  if remainder = [] then "/" else "/" ++ "/".intercalate remainder

/-- What Pecan has consumed of a path, and what is left for us. -/
def split (pathInfo : String) (remainder : List String) : String × String :=
  (mountPrefix pathInfo (subPath remainder), subPath remainder)

/-- The request of WebOb: the path and the prefix are text. -/
structure Request where
  environ : Environ
  scriptName : String
  pathInfo : String

/-- The environ that is handed to the callable. -/
def delegate (request : Request) (remainder : List String) : Environ :=
  let (consumed, subPath) := split request.pathInfo remainder
  (request.environ.set "SCRIPT_NAME" (request.scriptName ++ consumed)).set "PATH_INFO" subPath

/-- A request as Pecan has routed it: `inner` is consumed, in an application that is itself mounted
under `outer`.  Both and the path are UTF-8; the controller's own path may have no slash. -/
structure Routed extends HttpRequest where
  outer : String
  inner : String
  remainder : List String
  mounted : toHttpRequest.mountBytes = Utf8.encode (outer ++ inner).toList
  /-- No segment that is consumed is empty. -/
  consumed : inner.toList.getLast? ≠ some '/'
  asked : toHttpRequest.pathBytes = Utf8.encode (subPath remainder).toList
    ∨ path = "" ∧ remainder = []

namespace Routed

variable (r : Routed)

/-- The path as text. -/
def pathText : String := String.ofList (Utf8.decode r.pathBytes)

/-- The request of WebOb, whatever the environ says of its own path. -/
def request (scriptName pathInfo : String) : Request where
  environ := (r.environ.set "SCRIPT_NAME" scriptName).set "PATH_INFO" pathInfo
  scriptName := r.outer
  pathInfo := r.inner ++ r.pathText

end Routed

end Pecan

/-- A key that a filter leaves out may have any value. -/
theorem filterMap_set {κ α β : Type} [DecidableEq κ] {f : κ × α → Option β} {k : κ}
    (hf : ∀ v, f (k, v) = none) (d : Dict κ α) (v : α) :
    (d.set k v).entries.filterMap f = d.entries.filterMap f := by
  have hlist : ∀ l : List (κ × α), (Dict.setEntries k v l).filterMap f = l.filterMap f := by
    intro l
    induction l with
    | nil => simp [Dict.setEntries, hf]
    | cons p l ih =>
      rw [Dict.setEntries]
      split
      · next hp =>
        have hnone : f p = none := by
          have hpair : p = (k, p.2) := Prod.ext hp rfl
          rw [hpair]
          exact hf p.2
        simp [hp, hf, hnone]
      · simp [List.filterMap_cons, ih]
  exact hlist d.entries

/-- The prefix and the path may be replaced in an environ. -/
theorem buildRequest_set (environ : Environ) (scriptName pathInfo : String) :
    Wsgi.buildRequest ((environ.set "SCRIPT_NAME" scriptName).set "PATH_INFO" pathInfo)
      = { Wsgi.buildRequest environ with
          path := if pathInfo = "" then "/" else pathInfo
          urlPrefix := environ.getD Wsgi.PREFIX_HEADER "" ++ scriptName } := by
  have hget : ∀ key, key ≠ "PATH_INFO" → key ≠ "SCRIPT_NAME" →
      ((environ.set "SCRIPT_NAME" scriptName).set "PATH_INFO" pathInfo).get? key
        = environ.get? key := by
    intro key hpath hscript
    rw [Dict.get?_set, if_neg hpath, Dict.get?_set, if_neg hscript]
  have hgetD : ∀ key default, key ≠ "PATH_INFO" → key ≠ "SCRIPT_NAME" →
      ((environ.set "SCRIPT_NAME" scriptName).set "PATH_INFO" pathInfo).getD key default
        = environ.getD key default := by
    intro key default hpath hscript
    rw [Dict.getD, Dict.getD, hget key hpath hscript]
  have hpath : ((environ.set "SCRIPT_NAME" scriptName).set "PATH_INFO" pathInfo).getD
      "PATH_INFO" "" = pathInfo := by
    rw [Dict.getD, Dict.get?_set_self, Option.getD_some]
  have hscript : ((environ.set "SCRIPT_NAME" scriptName).set "PATH_INFO" pathInfo).getD
      "SCRIPT_NAME" "" = scriptName := by
    rw [Dict.getD, Dict.get?_set, if_neg (by decide), Dict.get?_set_self, Option.getD_some]
  have hheaders : Wsgi.requestHeaders
      ((environ.set "SCRIPT_NAME" scriptName).set "PATH_INFO" pathInfo)
        = Wsgi.requestHeaders environ := by
    have hpath : Wsgi.headerName? "PATH_INFO" = none := by decide
    have hscript : Wsgi.headerName? "SCRIPT_NAME" = none := by decide
    rw [Wsgi.requestHeaders, Wsgi.requestHeaders, filterMap_set (by simp [hpath]),
      filterMap_set (by simp [hscript])]
    simp only [List.foldl_cons, List.foldl_nil]
    rw [hget "CONTENT_TYPE" (by decide) (by decide), hget "CONTENT_LENGTH" (by decide) (by decide)]
  rw [Wsgi.buildRequest, Wsgi.buildRequest]
  dsimp only
  rw [hheaders, hpath, hscript, hgetD _ _ (by decide) (by decide),
    hgetD _ _ (by decide) (by decide), hgetD _ _ (by decide) (by decide)]
  rfl

namespace Pecan

theorem subPath_ne_empty (remainder : List String) : subPath remainder ≠ "" := by
  rw [subPath]
  split
  · decide
  · rw [← String.toList_inj.ne, String.toList_append]
    exact List.append_ne_nil_of_left_ne_nil (by decide) _

/-- A path without a slash at its end is what comes before the root. -/
theorem mountPrefix_root {front : String} (h : front.toList.getLast? ≠ some '/') :
    mountPrefix (front ++ "/") "/" = front ∧ mountPrefix front "/" = front := by
  have hdrop : front.toList.rdropWhile (· = '/') = front.toList := by
    refine List.rdropWhile_eq_self_iff.mpr fun hne hlast => h ?_
    rw [List.getLast?_eq_some_getLast hne, of_decide_eq_true hlast]
  have hslash : ("/" : String).toList = ['/'] := rfl
  rw [mountPrefix, mountPrefix, if_pos (.inr rfl), if_pos (.inr rfl), String.toList_append, hslash,
    List.rdropWhile_concat_pos _ _ _ (by decide), hdrop, String.ofList_toList]
  exact ⟨rfl, rfl⟩

namespace Routed

variable (r : Routed)

theorem pathText_eq : r.pathText = subPath r.remainder
    ∨ r.path = "" ∧ r.remainder = [] ∧ r.pathText = "" := by
  rcases r.asked with hasked | ⟨hpath, hremainder⟩
  · left
    rw [pathText, hasked, Utf8.decode_encode, String.ofList_toList]
  · right
    refine ⟨hpath, hremainder, ?_⟩
    rw [pathText, HttpRequest.pathBytes, hpath]
    rfl

/-- **The mount is told from what is left.** -/
theorem split_eq : split (r.inner ++ r.pathText) r.remainder = (r.inner, subPath r.remainder) := by
  have hmount : mountPrefix (r.inner ++ r.pathText) (subPath r.remainder) = r.inner := by
    rcases r.pathText_eq with htext | ⟨-, hremainder, htext⟩
    · rw [htext]
      by_cases hroot : subPath r.remainder = "/"
      · rw [hroot]
        exact (mountPrefix_root r.consumed).1
      · exact mountPrefix_append r.inner ⟨subPath_ne_empty r.remainder, hroot⟩
    · rw [htext, hremainder, String.append_empty]
      exact (mountPrefix_root r.consumed).2
  rw [split, hmount]

theorem rootPath_scope : r.scope.rootPath = r.outer ++ r.inner := by
  have hroot : r.scope.rootPath = String.ofList (Utf8.decode r.mountBytes) := rfl
  rw [hroot, r.mounted, Utf8.decode_encode, String.ofList_toList]

/-- The ASGI callable routes on the same path. -/
theorem splitPath_scope : splitPath r.scope.path r.scope.rootPath = subPath r.remainder := by
  have hpath : r.scope.path = r.scope.rootPath ++ r.pathText := by
    have hwhole : r.scope.path
        = String.ofList (Utf8.decode (unquoteToBytes 0 (r.mount ++ r.path).toList)) :=
      rfl
    rw [hwhole, HttpRequest.unquoteToBytes_mount_path, r.mounted, Utf8.decode_encode_append,
      String.ofList_append, String.ofList_toList, r.rootPath_scope, pathText]
  rw [hpath, splitPath_append]
  rcases r.pathText_eq with htext | ⟨hempty, hremainder, htext⟩
  · rw [htext, if_neg fun h => subPath_ne_empty r.remainder h.1]
  · -- without a path, there is a mount
    have habsolute := r.absolute
    rw [hempty, String.append_empty] at habsolute
    obtain ⟨rest, hrest⟩ := HttpRequest.exists_of_head? habsolute
    have hroot : r.scope.rootPath ≠ "" := by
      show String.ofList (Utf8.decode r.mountBytes) ≠ ""
      rw [HttpRequest.mountBytes, hrest, Utf8.decode_cons_of_lt (by decide)]
      simp
    rw [htext, if_pos ⟨rfl, hroot⟩, hremainder]
    rfl

/-- The request that the callable is given under Pecan. -/
theorem buildRequest_delegate (scriptName pathInfo : String) :
    Wsgi.buildRequest (delegate (r.request scriptName pathInfo) r.remainder)
      = { Wsgi.buildRequest r.environ with
          path := subPath r.remainder
          urlPrefix := r.environ.getD Wsgi.PREFIX_HEADER "" ++ (r.outer ++ r.inner) } := by
  have hforwarded : ((r.environ.set "SCRIPT_NAME" scriptName).set "PATH_INFO" pathInfo).getD
      Wsgi.PREFIX_HEADER "" = r.environ.getD Wsgi.PREFIX_HEADER "" := by
    rw [Dict.getD, Dict.getD, Dict.get?_set, if_neg (by decide), Dict.get?_set,
      if_neg (by decide)]
  rw [delegate, request]
  dsimp only
  rw [r.split_eq, buildRequest_set, buildRequest_set, hforwarded,
    if_neg (subPath_ne_empty r.remainder)]

end Routed

end Pecan

theorem absolute_accent : ("/caf%C3%A9/taskflow" ++ "/api/v1/flows/run-1").toList.head?
    = some '/' := by decide +kernel

theorem boundary_accent : "/api/v1/flows/run-1" = ""
    ∨ "/api/v1/flows/run-1".toList.head? = some '/' := by decide +kernel

/-- A request for a run, under a mount that has an accent. -/
def underAccent (method : String) : HttpRequest where
  method := method
  mount := "/caf%C3%A9/taskflow"
  path := "/api/v1/flows/run-1"
  absolute := absolute_accent
  boundary := boundary_accent
  ascii := ascii_nil
  distinct := distinct_nil

theorem mountBytes_underAccent (method : String) :
    (underAccent method).mountBytes = Utf8.encode ("/café" ++ "/taskflow").toList := by
  have hbytes : unquoteToBytes 0 "/caf%C3%A9/taskflow".toList
      = Utf8.encode ("/café" ++ "/taskflow").toList := by decide +kernel
  exact hbytes

theorem consumed_underAccent : "/taskflow".toList.getLast? ≠ some '/' := by decide +kernel

theorem pathBytes_underAccent (method : String) :
    (underAccent method).pathBytes
      = Utf8.encode (Pecan.subPath ["api", "v1", "flows", "run-1"]).toList := by
  have hbytes : unquoteToBytes 0 "/api/v1/flows/run-1".toList
      = Utf8.encode (Pecan.subPath ["api", "v1", "flows", "run-1"]).toList := by decide +kernel
  exact hbytes

/-- The same, as Pecan has routed it. -/
def routedUnderAccent (method : String) : Pecan.Routed where
  toHttpRequest := underAccent method
  outer := "/café"
  inner := "/taskflow"
  remainder := ["api", "v1", "flows", "run-1"]
  mounted := mountBytes_underAccent method
  consumed := consumed_underAccent
  asked := .inl (pathBytes_underAccent method)

end TaskflowMeter
