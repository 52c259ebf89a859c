import TaskflowMeter.Api.Dispatch
import TaskflowMeter.Api.Servers

/-!
# Hosts that route by themselves

The adapters register the routes in the router of a host, which does the matching and hands over
the parameters.  Each recovers the prefix it is mounted under from what the host reports.

## Main definitions

* `HostRequest` — what a host hands over.
* `Fastapi.buildRequest`, `Django.buildRequest`, `Flask.buildRequest` — the builders.
* `ClientRequest` — a request for an endpoint, as the hosts and the two servers see it.
* `ClientRequest.HostsAgree` — all emit the same links for it.

## Main results

* `hostsAgree_iff` — **all agree exactly where no proxy reports a prefix** and all is ASCII.
-/

namespace TaskflowMeter

open Utf8 Url Dispatcher

/-! ### The adapters -/

/-- What a host hands over: its root is `root_path`, `SCRIPT_NAME` or `script_root`. -/
structure HostRequest where
  method : String := "GET"
  root : String := ""
  path : String
  query : Dict String (List String) := ∅
  headers : List (String × String) := []

def lowerHeaders (headers : List (String × String)) : Dict String String :=
  headers.foldl (fun d p => d.set (String.ofList (lower p.1.toList)) p.2) ∅

/-- A request whose prefix is what is left where the template is taken off the end of a path. -/
def requestUnder (request : HostRequest) (route : Route Endpoint) (params : Dict String String)
    (path : String) : MeterRequest :=
  let subPath := formatTemplate route.template (params.getD · "")
  { method := request.method
    path := subPath
    urlPrefix := request.root ++ mountPrefix path subPath
    query := request.query
    headers := lowerHeaders request.headers
    pathParams := params }

/-- The path still has the root in it. -/
def Fastapi.buildRequest (request : HostRequest) (route : Route Endpoint)
    (params : Dict String String) :
    MeterRequest :=
  requestUnder request route params (splitPath request.path request.root)

def Django.buildRequest (request : HostRequest) (route : Route Endpoint)
    (params : Dict String String) :
    MeterRequest :=
  { requestUnder request route params request.path with
    method := if request.method = "" then "GET" else request.method }

def Flask.buildRequest (request : HostRequest) (route : Route Endpoint)
    (params : Dict String String) :
    MeterRequest :=
  requestUnder request route params request.path

/-! ### One request, seen by all -/

/-- A request for an endpoint.  The routes are included under `inner` in a host that is itself
mounted under `outer`. -/
structure ClientRequest extends HttpRequest where
  route : Route Endpoint
  runId : String
  outer : String
  inner : String
  hostQuery : Dict String (List String) := ∅
  hostHeaders : List (String × String) := []
  get : wanted method = "GET"
  mem_buildRoutes : route ∈ buildRoutes
  value : runId ≠ "" ∧ '/' ∉ runId.toList
  mounted : String.ofList (decode toHttpRequest.mountBytes) = outer ++ inner
  asked : String.ofList (decode toHttpRequest.pathBytes)
    = formatTemplate route.template fun _ => runId

namespace ClientRequest

/-- The parameters of the path. -/
def params (r : ClientRequest) : Dict String String :=
  if r.route.handler.ofRun?.isSome then (∅ : Dict String String).set "run_id" r.runId else ∅

/-- The path under the prefix. -/
def subPath (r : ClientRequest) : String := formatTemplate r.route.template fun _ => r.runId

def fastapi (r : ClientRequest) : MeterRequest :=
  Fastapi.buildRequest
    { method := r.method, root := r.outer, path := r.outer ++ (r.inner ++ r.subPath)
      query := r.hostQuery, headers := r.hostHeaders } r.route r.params

def django (r : ClientRequest) : MeterRequest :=
  Django.buildRequest
    { method := r.method, root := r.outer, path := r.inner ++ r.subPath
      query := r.hostQuery, headers := r.hostHeaders } r.route r.params

def flask (r : ClientRequest) : MeterRequest :=
  Flask.buildRequest
    { method := r.method, root := r.outer, path := r.inner ++ r.subPath
      query := r.hostQuery, headers := r.hostHeaders } r.route r.params

/-- A request as a handler is given it by the dispatcher. -/
def routed (request : MeterRequest) : MeterRequest :=
  { request with pathParams := (theRouter.matchPath (wanted request.method) request.path).params }

def asgi (r : ClientRequest) : MeterRequest := routed (Asgi.buildRequest r.scope)

def wsgi (r : ClientRequest) : MeterRequest := routed (Wsgi.buildRequest r.environ)

/-- Links are built from the path, the prefix and the parameters. -/
def SameTarget (a b : MeterRequest) : Prop :=
  a.path = b.path ∧ a.urlPrefix = b.urlPrefix ∧ a.pathParams = b.pathParams

/-- All hosts build the same request as the two callables. -/
def HostsAgree (r : ClientRequest) : Prop :=
  ∀ host ∈ [r.fastapi, r.django, r.flask], ∀ callable ∈ [r.asgi, r.wsgi], SameTarget host callable

/-- No proxy reports a prefix that it has taken off. -/
def Unforwarded (r : ClientRequest) : Prop :=
  (Asgi.decodeHeaders r.headers).getD Asgi.PREFIX_HEADER "" = ""
    ∧ r.environ.getD Wsgi.PREFIX_HEADER "" = ""

/-! ### What the adapters build -/

variable (r : ClientRequest)

theorem template_eq : r.route.template = r.route.handler.template := by
  have hall : ∀ route ∈ buildRoutes, route.template = route.handler.template := by decide
  exact hall r.route r.mem_buildRoutes

/-- The template of an endpoint that is not of a run is its path. -/
theorem formatTemplate_of_not_run {endpoint : Endpoint} (h : ¬ endpoint.ofRun?.isSome)
    (values : String → String) : formatTemplate endpoint.template values = endpoint.template := by
  have hliteral : ∀ {template : String}, pieces template = [.literal template.toList] →
      formatTemplate template values = template := by
    intro template hpieces
    rw [formatTemplate_eq, hpieces, List.flatMap_cons, List.flatMap_nil, List.append_nil,
      Piece.fill,
      String.ofList_toList]
  cases endpoint with
  | health | listFlows => exact hliteral (by decide)
  | getFlow | getAtoms | getEvents | stream => exact absurd rfl h

/-- The template is filled in with what the host has matched. -/
theorem formatTemplate_params :
    formatTemplate r.route.template (r.params.getD · "") = r.subPath := by
  rw [subPath, params, r.template_eq]
  by_cases hrun : r.route.handler.ofRun?.isSome
  · obtain ⟨rest, hrest⟩ := Option.isSome_iff_exists.mp hrun
    rw [if_pos hrun, ← String.toList_inj, toList_formatTemplate hrest, toList_formatTemplate hrest]
    rfl
  · rw [formatTemplate_of_not_run hrun, formatTemplate_of_not_run hrun]

theorem subPath_ne : r.subPath ≠ "" ∧ r.subPath ≠ "/" := by
  have hlength : 2 ≤ r.subPath.toList.length := by
    rw [subPath, r.template_eq]
    by_cases hrun : r.route.handler.ofRun?.isSome
    · obtain ⟨rest, hrest⟩ := Option.isSome_iff_exists.mp hrun
      have hbefore : 2 ≤ beforeRunId.length := by decide
      rw [toList_formatTemplate hrest, List.length_append]
      omega
    · have hall : ∀ route ∈ buildRoutes,
        2 ≤ route.handler.template.toList.length := by decide
      rw [formatTemplate_of_not_run hrun]
      exact hall r.route r.mem_buildRoutes
  constructor <;> intro heq <;> rw [heq] at hlength <;> revert hlength <;> decide

/-- The table finds the endpoint of a run in its path, and the run. -/
theorem isFor_matchPath (hrun : r.route.handler.ofRun?.isSome) :
    (theRouter.matchPath "GET" r.subPath).IsFor r.route.handler r.runId := by
  obtain ⟨rest, hrest⟩ := Option.isSome_iff_exists.mp hrun
  have hslash : rest.toList = [] ∨ rest.toList.head? = some '/' := by
    revert hrest
    cases r.route.handler <;> rintro ⟨⟩ <;> decide
  have hsplit := takeWhile_append_dropWhile_of r.value.2 hslash
  refine (isFor_matchPath_iff hrest).mpr
    ⟨r.runId.toList ++ rest.toList, ?_, r.value.1, hsplit.1, .inl hsplit.2⟩
  rw [subPath, r.template_eq]
  exact toList_formatTemplate hrest _

/-- The parameters that the table finds in the path are those the host has matched. -/
theorem params_matchPath : (theRouter.matchPath "GET" r.subPath).params = r.params := by
  by_cases hrun : r.route.handler.ofRun?.isSome
  · have hfor := r.isFor_matchPath hrun
    rcases matchPath_get r.subPath with ⟨route, found, hmatch, hfound⟩ | ⟨hmatch, -⟩
    · obtain ⟨-, hroute, hget⟩ := hfor
      rw [hmatch] at hroute hget ⊢
      have hhandler : route.handler = r.route.handler := Option.some.inj hroute
      have hvalue : found.getD "run_id" "" = r.runId := by
        rw [Dict.getD, hget, Option.getD_some]
      rw [hhandler, if_pos hrun, hvalue] at hfound
      rw [params, if_pos hrun]
      exact hfound
    · rw [hmatch] at hfor
      cases hfor.1
  · have hall : ∀ route ∈ buildRoutes, ¬ route.handler.ofRun?.isSome →
        (theRouter.matchPath "GET" route.handler.template).params = ∅ := by decide
    rw [subPath, r.template_eq, formatTemplate_of_not_run hrun, params, if_neg hrun]
    exact hall r.route r.mem_buildRoutes hrun

theorem mountPrefix_subPath (front : String) : mountPrefix (front ++ r.subPath) r.subPath = front :=
  mountPrefix_append front r.subPath_ne

/-- Every adapter recovers the whole prefix, and no more. -/
theorem target_of_mem_hosts {host : MeterRequest} (h : host ∈ [r.fastapi, r.django, r.flask]) :
    host.path = r.subPath ∧ host.urlPrefix = r.outer ++ r.inner ∧ host.pathParams = r.params := by
  have hsplit : splitPath (r.outer ++ (r.inner ++ r.subPath)) r.outer = r.inner ++ r.subPath := by
    rw [splitPath_append, if_neg]
    rintro ⟨hempty, -⟩
    exact r.subPath_ne.1 (String.append_eq_empty_iff.mp hempty).2
  have hunder : ∀ request : HostRequest, request.root = r.outer →
      (requestUnder request r.route r.params (r.inner ++ r.subPath)).path = r.subPath
        ∧ (requestUnder request r.route r.params (r.inner ++ r.subPath)).urlPrefix
          = r.outer ++ r.inner := by
    rintro request hroot
    unfold requestUnder
    dsimp only
    rw [r.formatTemplate_params, mountPrefix_subPath, hroot]
    exact ⟨rfl, rfl⟩
  have hinner := hunder
    { method := r.method, root := r.outer, path := r.inner ++ r.subPath
      query := r.hostQuery, headers := r.hostHeaders } rfl
  simp only [List.mem_cons, List.not_mem_nil, or_false] at h
  rcases h with rfl | rfl | rfl
  · have hwhole := hunder
      { method := r.method, root := r.outer, path := r.outer ++ (r.inner ++ r.subPath)
        query := r.hostQuery, headers := r.hostHeaders } rfl
    rw [fastapi, Fastapi.buildRequest]
    dsimp only
    rw [hsplit]
    exact ⟨hwhole.1, hwhole.2, rfl⟩
  · exact ⟨hinner.1, hinner.2, rfl⟩
  · exact ⟨hinner.1, hinner.2, rfl⟩

/-! ### What the callables build -/

theorem path_ne : r.path ≠ "" := by
  intro hempty
  have hasked := r.asked
  rw [HttpRequest.pathBytes, hempty] at hasked
  exact r.subPath_ne.1 hasked.symm

@[simp] theorem urlPrefix_routed (request : MeterRequest) :
    (routed request).urlPrefix = request.urlPrefix := rfl

@[simp] theorem path_routed (request : MeterRequest) : (routed request).path = request.path := rfl

theorem pathParams_routed (request : MeterRequest) :
    (routed request).pathParams
      = (theRouter.matchPath (wanted request.method) request.path).params := rfl

theorem Asgi.method_buildRequest (scope : Scope) :
    (Asgi.buildRequest scope).method = scope.method := rfl

theorem Wsgi.method_buildRequest (environ : Environ) :
    (Wsgi.buildRequest environ).method = environ.getD "REQUEST_METHOD" "GET" := rfl

theorem Asgi.urlPrefix_buildRequest (scope : Scope) :
    (Asgi.buildRequest scope).urlPrefix
      = (Asgi.decodeHeaders scope.headers).getD Asgi.PREFIX_HEADER "" ++ scope.rootPath := rfl

theorem Wsgi.urlPrefix_buildRequest (environ : Environ) :
    (Wsgi.buildRequest environ).urlPrefix
      = environ.getD Wsgi.PREFIX_HEADER "" ++ environ.getD "SCRIPT_NAME" "" := rfl

theorem Wsgi.path_buildRequest (environ : Environ) :
    (Wsgi.buildRequest environ).path
      = if environ.getD "PATH_INFO" "" = "" then "/" else environ.getD "PATH_INFO" "" := rfl

theorem path_wsgi : r.wsgi.path = String.ofList (latin1 r.pathBytes) := by
  rw [wsgi, path_routed, Wsgi.path_buildRequest, HttpRequest.pathInfo_environ,
    HttpRequest.path_environ, if_neg r.path_ne]

theorem urlPrefix_wsgi :
    r.wsgi.urlPrefix = r.environ.getD Wsgi.PREFIX_HEADER ""
      ++ String.ofList (latin1 r.mountBytes) := by
  rw [wsgi, urlPrefix_routed, Wsgi.urlPrefix_buildRequest, HttpRequest.scriptName_environ]

theorem urlPrefix_asgi :
    r.asgi.urlPrefix
      = (Asgi.decodeHeaders r.headers).getD Asgi.PREFIX_HEADER ""
          ++ String.ofList (decode r.mountBytes) := by
  have hroot : r.scope.rootPath = String.ofList (decode r.mountBytes) := rfl
  have hheaders : r.scope.headers = r.headers := rfl
  rw [asgi, urlPrefix_routed, Asgi.urlPrefix_buildRequest, hroot, hheaders]

theorem pathParams_asgi (h : r.asgi.path = r.subPath) : r.asgi.pathParams = r.params := by
  have hmethod : r.scope.method = r.method := rfl
  rw [asgi, path_routed] at h
  rw [asgi, pathParams_routed, Asgi.method_buildRequest, hmethod, r.get, h, params_matchPath]

theorem pathParams_wsgi (h : r.wsgi.path = r.subPath) : r.wsgi.pathParams = r.params := by
  have hmethod : r.environ.getD "REQUEST_METHOD" "GET" = r.method :=
    HttpRequest.getD_environ (by simp [HttpRequest.base]) "GET"
  rw [wsgi, path_routed] at h
  rw [wsgi, pathParams_routed, Wsgi.method_buildRequest, hmethod, r.get, h, params_matchPath]

theorem hostsAgree_iff_callables :
    r.HostsAgree ↔ ∀ callable ∈ [r.asgi, r.wsgi],
      callable.path = r.subPath ∧ callable.urlPrefix = r.outer ++ r.inner
        ∧ callable.pathParams = r.params := by
  constructor
  · intro h callable hcallable
    obtain ⟨hpath, hurl, hparams⟩ := h r.flask (by simp) callable hcallable
    obtain ⟨hpath', hurl', hparams'⟩ := @target_of_mem_hosts r r.flask (by simp)
    exact ⟨hpath.symm.trans hpath', hurl.symm.trans hurl', hparams.symm.trans hparams'⟩
  · intro h host hhost callable hcallable
    obtain ⟨hpath, hurl, hparams⟩ := h callable hcallable
    obtain ⟨hpath', hurl', hparams'⟩ := r.target_of_mem_hosts hhost
    exact ⟨hpath'.trans hpath.symm, hurl'.trans hurl.symm, hparams'.trans hparams.symm⟩

end ClientRequest

open ClientRequest

/-- **All hosts emit the same links exactly where no proxy reports a prefix**, and prefix and path
are ASCII. -/
theorem hostsAgree_iff (r : ClientRequest) :
    r.HostsAgree
      ↔ r.Unforwarded ∧ (∀ b ∈ r.mountBytes, b < 0x80) ∧ ∀ b ∈ r.pathBytes, b < 0x80 := by
  rw [r.hostsAgree_iff_callables, List.forall_mem_cons, List.forall_mem_singleton]
  have hmounted := r.mounted
  have hasked : String.ofList (decode r.pathBytes) = r.subPath := r.asked
  constructor
  · rintro ⟨⟨-, hasgi, -⟩, hpath, hwsgi, -⟩
    rw [r.urlPrefix_asgi, hmounted] at hasgi
    rw [r.urlPrefix_wsgi, ← hmounted] at hwsgi
    rw [r.path_wsgi, ← hasked] at hpath
    have hasgi_empty : (Asgi.decodeHeaders r.headers).getD Asgi.PREFIX_HEADER "" = "" := by
      have hlist := congrArg (fun text : String => text.toList.length) hasgi
      simp only [String.toList_append, List.length_append] at hlist
      exact String.toList_eq_nil_iff.mp (List.length_eq_zero_iff.mp (by omega))
    have hwsgi_empty : r.environ.getD Wsgi.PREFIX_HEADER "" = "" := by
      -- the prefix as UTF-8 is not longer than the prefix as latin-1
      have hlist := congrArg (fun text : String => text.toList.length) hwsgi
      simp only [String.toList_append, List.length_append, String.toList_ofList] at hlist
      have hle := length_decode_le r.mountBytes
      have hlatin1 : (latin1 r.mountBytes).length = r.mountBytes.length := List.length_map _
      exact String.toList_eq_nil_iff.mp (List.length_eq_zero_iff.mp (by omega))
    rw [hwsgi_empty, String.empty_append] at hwsgi
    exact ⟨⟨hasgi_empty, hwsgi_empty⟩,
      (decode_eq_latin1_iff _).mp (String.ofList_injective hwsgi).symm,
      (decode_eq_latin1_iff _).mp (String.ofList_injective hpath).symm⟩
  · rintro ⟨⟨hasgi, hwsgi⟩, hmount, hpath⟩
    have hdecode_mount := (decode_eq_latin1_iff r.mountBytes).mpr hmount
    have hdecode_path := (decode_eq_latin1_iff r.pathBytes).mpr hpath
    have hpath_asgi : r.asgi.path = r.subPath := by
      have hsplit : r.asgi.path = splitPath r.scope.path r.scope.rootPath := rfl
      rw [hsplit, HttpRequest.splitPath_scope hmount, if_neg r.path_ne, hasked]
    have hpath_wsgi : r.wsgi.path = r.subPath := by
      rw [r.path_wsgi, ← hdecode_path, hasked]
    refine ⟨⟨hpath_asgi, ?_, r.pathParams_asgi hpath_asgi⟩, hpath_wsgi, ?_,
      r.pathParams_wsgi hpath_wsgi⟩
    · rw [r.urlPrefix_asgi, hasgi, String.empty_append, hmounted]
    · rw [r.urlPrefix_wsgi, hwsgi, String.empty_append, ← hdecode_mount, hmounted]

/-- A proxy has taken a prefix off, and says so. -/
def proxied : ClientRequest where
  path := "/healthz"
  headers := [("x-forwarded-prefix".toList.map fun c => c.toNat.toUInt8,
    "/proxy".toList.map fun c => c.toNat.toUInt8)]
  absolute := by decide +kernel
  boundary := by decide +kernel
  ascii := by decide +kernel
  distinct := by decide +kernel
  route := ⟨"GET", Routes.HEALTH, .health, "health"⟩
  runId := "r-1"
  outer := ""
  inner := ""
  get := rfl
  mem_buildRoutes := by decide +kernel
  value := by decide +kernel
  mounted := by decide +kernel
  asked := by decide +kernel

/-- **The adapters leave out what the proxy says.** -/
theorem proxy_left_out :
    proxied.flask.urlPrefix = "" ∧ proxied.asgi.urlPrefix = "/proxy" ∧ ¬ proxied.HostsAgree := by
  have hflask : proxied.flask.urlPrefix = "" := by decide +kernel
  have hasgi : proxied.asgi.urlPrefix = "/proxy" := by decide +kernel
  refine ⟨hflask, hasgi, fun h => ?_⟩
  have hurl := (h proxied.flask (by simp) proxied.asgi (by simp)).2.1
  rw [hflask, hasgi] at hurl
  exact absurd hurl (by decide +kernel)

end TaskflowMeter
