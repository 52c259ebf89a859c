import TaskflowMeter.Api.Http

/-!
# Path templates and the table of routes

A template is compiled to pieces: literal text, and parameters.  A path is matched against
them as a regular expression engine would match it, the longest value of a parameter first;
one line break after the end of the template is let through.

## Main definitions

* `Piece`, `pieces` — what a template is made of.
* `matchPieces` — a path against the pieces of a template.
* `Route`, `Router`, `Router.matchPath` — the first route whose template and method match.
* `formatTemplate` — a template with values for its parameters.
* `Endpoint`, `buildRoutes`, `theRouter` — the table.

## Main results

* `matchPieces_param` — **what a template of one parameter matches.**
* `matchLoop_of_method` — the first route that matches is taken.
* `isFor_matchPath_iff` — **what the table makes of the path of a run.**
* `handler_matchPath_eq_listFlows_iff` — the path of the listing.
* `toList_formatTemplate` — the path of a run, made from a template.
-/

namespace TaskflowMeter

/-! ### Templates -/

/-- A part of a template. -/
inductive Piece where
  | literal (text : List Char)
  | param (name : String)
  deriving DecidableEq, Repr

def isNameStart (c : Char) : Bool := c.isAlpha || c = '_'

def isNameChar (c : Char) : Bool := c.isAlphanum || c = '_'

/-- The name of the placeholder that text begins with. -/
def placeholder? : List Char → Option (List Char)
  | '\x7b' :: text =>
      match text.takeWhile isNameChar, text.dropWhile isNameChar with
      | c :: name, '\x7d' :: _ => if isNameStart c then some (c :: name) else none
      | _, _ => none
  | _ => none

/-- The pieces of a template, after a number of characters of a placeholder that have been read,
and with the literal text read since the last placeholder. -/
def piecesFrom : ℕ → List Char → List Char → List Piece
  | _, text, [] => [.literal text]
  | k + 1, text, _ :: template => piecesFrom k text template
  | 0, text, c :: template =>
      match placeholder? (c :: template) with
      | some name =>
        .literal text :: .param (String.ofList name) :: piecesFrom (name.length + 1) [] template
      | none => piecesFrom 0 (text ++ [c]) template

def pieces (template : String) : List Piece := piecesFrom 0 [] template.toList

def Piece.name? : Piece → Option String
  | literal _ => none
  | param name => some name

/-- A template with values for its parameters. -/
def formatTemplate (template : String) (values : String → String) : String :=
  String.ofList ((pieces template).flatMap fun
    | .literal text => text
    | .param name => (values name).toList)

/-- The values that a path gives the parameters, if it is of this form. -/
def matchPieces : List Piece → List Char → Option (List (String × List Char))
  | [], path => if path = [] ∨ path = ['\n'] then some [] else none
  | .literal text :: rest, path =>
      match path.dropPrefix? text with
      | some path' => matchPieces rest path'
      | none => none
  | .param name :: rest, path =>
      -- the longest value first
      (List.range (path.takeWhile (· != '/')).length).reverse.findSome? fun n =>
        (matchPieces rest (path.drop (n + 1))).map fun values => (name, path.take (n + 1)) :: values

/-! ### Routes -/

/-- One method and path template, bound to a handler. -/
structure Route (η : Type*) where
  method : String
  template : String
  handler : η
  name : String
  deriving DecidableEq, Repr

/-- The matcher of a route; there is none for a template that names a parameter twice. -/
def Route.compile {η : Type*} (route : Route η) : Option (List Piece) :=
  if ((pieces route.template).filterMap Piece.name?).Nodup then some (pieces route.template)
    else none

/-- Why a match did or did not happen. -/
inductive Outcome where
  | matched
  | notFound
  | methodNotAllowed
  deriving DecidableEq, Repr

structure Match (η : Type*) where
  outcome : Outcome
  route : Option (Route η) := none
  params : Dict String String := ∅
  allowed : List String := []
  deriving DecidableEq, Repr

/-- A fixed table of routes, compiled. -/
structure Router (η : Type*) where
  compiled : List (Route η × List Piece)
  deriving DecidableEq

namespace Router

variable {η : Type*}

def init (routes : List (Route η)) : Option (Router η) :=
  (routes.mapM fun route : Route η => route.compile.map fun pattern =>
    (route, pattern)).map Router.mk

def routes (router : Router η) : List (Route η) := router.compiled.map Prod.fst

/-- `found.groupdict()`. -/
def groupdict (values : List (String × List Char)) : Dict String String :=
  values.foldl (fun params p => params.set p.1 (String.ofList p.2)) ∅

def matchLoop (method : String) (path : List Char) :
    List (Route η × List Piece) → List String → Match η
  | [], [] => { outcome := .notFound }
  | [], allowed =>
      { outcome := .methodNotAllowed, allowed := allowed.dedup.insertionSort (· ≤ ·) }
  | (route, pattern) :: rest, allowed =>
      match matchPieces pattern path with
      | none => matchLoop method path rest allowed
      | some values =>
          if route.method = method then
            { outcome := .matched, route := some route, params := groupdict values }
          else matchLoop method path rest (allowed ++ [route.method])

/-- Match a method and a path against the table. -/
def matchPath (router : Router η) (method path : String) : Match η :=
  matchLoop method path.toList router.compiled []

end Router

/-! ### The table -/

namespace Routes

def HEALTH : String := "/healthz"
def FLOWS : String := "/api/v1/flows"
def FLOW : String := "/api/v1/flows/\x7brun_id\x7d"
def ATOMS : String := "/api/v1/flows/\x7brun_id\x7d/atoms"
def EVENTS : String := "/api/v1/flows/\x7brun_id\x7d/events"
def STREAM : String := "/api/v1/flows/\x7brun_id\x7d/stream"

end Routes

/-- The handlers of the service. -/
inductive Endpoint where
  | health
  | listFlows
  | getFlow
  | getAtoms
  | getEvents
  | stream
  deriving DecidableEq, Repr

def buildRoutes : List (Route Endpoint) :=
  [⟨"GET", Routes.HEALTH, .health, "health"⟩, ⟨"GET", Routes.FLOWS, .listFlows, "flows"⟩,
    ⟨"GET", Routes.FLOW, .getFlow, "flow"⟩, ⟨"GET", Routes.ATOMS, .getAtoms, "atoms"⟩,
    ⟨"GET", Routes.EVENTS, .getEvents, "events"⟩, ⟨"GET", Routes.STREAM, .stream, "stream"⟩]

/-- The table, compiled. -/
def theRouter : Router Endpoint where
  compiled := buildRoutes.map fun route => (route, pieces route.template)

theorem init_buildRoutes : Router.init buildRoutes = some theRouter := by
  decide

/-! ### A template of one parameter -/

theorem matchPieces_literal {text path : List Char} {values : List (String × List Char)} :
    matchPieces [.literal text] path = some values
      ↔ (path = text ∨ path = text ++ ['\n']) ∧ values = [] := by
  unfold matchPieces
  cases hdrop : path.dropPrefix? text with
  | none =>
    have hnot : ∀ rest, path ≠ text ++ rest := by
      intro rest heq
      rw [dropPrefix?_eq_some.mpr heq] at hdrop
      cases hdrop
    constructor
    · nofun
    · rintro ⟨rfl | rfl, -⟩
      · exact absurd (List.append_nil _).symm (hnot [])
      · exact absurd rfl (hnot _)
  | some rest =>
    obtain rfl := dropPrefix?_eq_some.mp hdrop
    dsimp only
    rw [matchPieces]
    simp only [List.append_cancel_left_eq, List.append_right_eq_self]
    split
    · next h => simp [h, eq_comm]
    · next h => simp [h]

/-- A value of a parameter, and what comes after it. -/
theorem exists_of_matchPieces_param {name : String} {rest : List Piece} {path : List Char}
    {values : List (String × List Char)}
      (h : matchPieces (.param name :: rest) path = some values) :
    ∃ value path' values', path = value ++ path' ∧ value ≠ [] ∧ '/' ∉ value
      ∧ matchPieces rest path' = some values' ∧ values = (name, value) :: values' := by
  rw [matchPieces] at h
  obtain ⟨n, hn, hsome⟩ := List.exists_of_findSome?_eq_some h
  obtain ⟨values', hvalues', rfl⟩ := Option.map_eq_some_iff.mp hsome
  rw [List.mem_reverse, List.mem_range] at hn
  have hle := (List.takeWhile_prefix (l := path) fun c => c != '/').length_le
  refine ⟨path.take (n + 1), path.drop (n + 1), values', (List.take_append_drop _ _).symm, ?_, ?_,
    hvalues', rfl⟩
  · rw [← List.length_pos_iff, List.length_take]
    omega
  · intro hmem
    have hpre : path.take (n + 1) <+: path.takeWhile (· != '/') := by
      refine List.prefix_of_prefix_length_le (List.take_prefix _ _) (List.takeWhile_prefix _) ?_
      rw [List.length_take]
      omega
    have hall := List.mem_takeWhile_imp (hpre.subset hmem)
    exact absurd hall (by decide)

/-- The longest value is tried first. -/
theorem matchPieces_param_of_longest {name : String} {rest : List Piece}
    {path value path' : List Char}
    {values : List (String × List Char)} (hvalue : path.takeWhile (· != '/') = value)
    (hpath : path = value ++ path') (hne : value ≠ []) (h : matchPieces rest path' = some values) :
    matchPieces (.param name :: rest) path = some ((name, value) :: values) := by
  obtain ⟨n, hn⟩ := Nat.exists_eq_succ_of_ne_zero (mt List.length_eq_zero_iff.mp hne)
  rw [matchPieces, hvalue, hn, List.range_succ, List.reverse_append, List.reverse_singleton,
    List.singleton_append, List.findSome?_cons]
  have htake : path.take (n + 1) = value := by rw [hpath]; exact List.take_left' hn
  have hdrop : path.drop (n + 1) = path' := by rw [hpath]; exact List.drop_left' hn
  rw [htake, hdrop, h]
  rfl

/-- What comes after a value is either nothing or begins with a slash. -/
theorem takeWhile_append_dropWhile_of {value path' : List Char} (hvalue : '/' ∉ value)
    (hpath : path' = [] ∨ path'.head? = some '/') :
    (value ++ path').takeWhile (· != '/') = value
      ∧ (value ++ path').dropWhile (· != '/') = path' := by
  have hall : ∀ c ∈ value, (c != '/') = true := by
    intro c hc
    rw [bne_iff_ne]
    rintro rfl
    exact hvalue hc
  rw [List.takeWhile_append_of_pos hall, List.dropWhile_append_of_pos hall]
  rcases hpath with rfl | hhead
  · exact ⟨List.append_nil value, rfl⟩
  · cases path' with
    | nil => cases hhead
    | cons c path' =>
      obtain rfl := Option.some.inj hhead
      rw [List.takeWhile_cons_of_neg (by decide), List.dropWhile_cons_of_neg (by decide)]
      exact ⟨List.append_nil value, rfl⟩

theorem dropWhile_eq_nil_or (path : List Char) :
    path.dropWhile (· != '/') = [] ∨ (path.dropWhile (· != '/')).head? = some '/' := by
  cases h : path.dropWhile (· != '/') with
  | nil => exact .inl rfl
  | cons c rest =>
    have hhead := List.head?_dropWhile_not (· != '/') path
    rw [h] at hhead
    right
    simpa using hhead

/-- **What a template of one parameter matches**: the value is what stands before the next slash,
and the rest of the template, perhaps with a line break, is all that follows. -/
theorem matchPieces_param {text rest : List Char} (name : String)
    (hrest : rest = [] ∨ rest.head? = some '/') (path : List Char) :
    matchPieces [.literal text, .param name, .literal rest] (text ++ path)
      = if path.takeWhile (· != '/') ≠ [] ∧ (path.dropWhile (· != '/') = rest
            ∨ path.dropWhile (· != '/') = rest ++ ['\n'])
        then some [(name, path.takeWhile (· != '/'))] else none := by
  rw [matchPieces, dropPrefix?_append]
  dsimp only
  split
  · next h =>
    refine matchPieces_param_of_longest rfl List.takeWhile_append_dropWhile.symm h.1 ?_
    exact matchPieces_literal.mpr ⟨h.2, rfl⟩
  · next hnot =>
    rw [Option.eq_none_iff_forall_ne_some]
    intro values h
    obtain ⟨value, path', values', rfl, hne, hvalue, hpath', -⟩ := exists_of_matchPieces_param h
    obtain ⟨hend, -⟩ := matchPieces_literal.mp hpath'
    refine hnot ?_
    rcases hrest with rfl | hslash
    · -- a line break that follows a last parameter is part of its value
      rw [List.nil_append] at hend
      have hall : '/' ∉ value ++ path' := by
        rcases hend with rfl | rfl <;> simp [hvalue]
      obtain ⟨htake, hdrop⟩ := takeWhile_append_dropWhile_of hall (.inl rfl)
      rw [List.append_nil] at htake hdrop
      rw [htake, hdrop]
      exact ⟨by simp [hne], .inl rfl⟩
    · have hhead : path' = [] ∨ path'.head? = some '/' := by
        right
        rcases hend with rfl | rfl
        · exact hslash
        · rw [List.head?_append, hslash]
          rfl
      obtain ⟨htake, hdrop⟩ := takeWhile_append_dropWhile_of hvalue hhead
      rw [htake, hdrop]
      exact ⟨hne, hend⟩

/-! ### What the table matches -/

/-- The match of the first route found, if one is. -/
def Match.ofFound {η : Type*} : Option (Route η × List (String × List Char)) → Match η
  | some (route, values) =>
      { outcome := .matched, route := some route, params := Router.groupdict values }
  | none => { outcome := .notFound }

/-- Where every route has the method asked for, the first that matches is taken. -/
theorem matchLoop_of_method {η : Type*} {method : String} {path : List Char}
    {compiled : List (Route η × List Piece)} (h : ∀ p ∈ compiled, p.1.method = method) :
    Router.matchLoop method path compiled []
      = Match.ofFound
          (compiled.findSome? fun p => (matchPieces p.2 path).map fun values => (p.1, values)) := by
  induction compiled with
  | nil => rfl
  | cons p compiled ih =>
    obtain ⟨route, pattern⟩ := p
    rw [List.forall_mem_cons] at h
    rw [Router.matchLoop, List.findSome?_cons]
    cases matchPieces pattern path with
    | none => exact ih h.2
    | some values =>
      dsimp only [Option.map_some]
      rw [if_pos h.1]
      rfl

namespace Endpoint

/-- What the template of an endpoint has after the run id, for an endpoint of a run. -/
def ofRun? : Endpoint → Option String
  | health | listFlows => none
  | getFlow => some ""
  | getAtoms => some "/atoms"
  | getEvents => some "/events"
  | stream => some "/stream"

end Endpoint

/-- A match is that of an endpoint of a run, for this run. -/
def Match.IsFor (found : Match Endpoint) (endpoint : Endpoint) (runId : String) : Prop :=
  found.outcome = .matched ∧ found.route.map Route.handler = some endpoint
    ∧ found.params.get? "run_id" = some runId

/-- The text before the run id in the templates of the endpoints of a run. -/
def beforeRunId : List Char := Routes.FLOWS.toList ++ ['/']

theorem compiled_theRouter : theRouter.compiled
    = [(⟨"GET", Routes.HEALTH, .health, "health"⟩, [.literal Routes.HEALTH.toList]),
      (⟨"GET", Routes.FLOWS, .listFlows, "flows"⟩, [.literal Routes.FLOWS.toList]),
      (⟨"GET", Routes.FLOW, .getFlow, "flow"⟩,
        [.literal beforeRunId, .param "run_id", .literal "".toList]),
      (⟨"GET", Routes.ATOMS, .getAtoms, "atoms"⟩,
        [.literal beforeRunId, .param "run_id", .literal "/atoms".toList]),
      (⟨"GET", Routes.EVENTS, .getEvents, "events"⟩,
        [.literal beforeRunId, .param "run_id", .literal "/events".toList]),
      (⟨"GET", Routes.STREAM, .stream, "stream"⟩,
        [.literal beforeRunId, .param "run_id", .literal "/stream".toList])] := by
  decide

theorem method_compiled : ∀ p ∈ theRouter.compiled, p.1.method = "GET" := by decide

/-- The first route that matches is taken. -/
theorem matchPath_of_get (path : String) :
    theRouter.matchPath "GET" path
      = Match.ofFound (theRouter.compiled.findSome? fun p =>
          (matchPieces p.2 path.toList).map fun values => (p.1, values)) :=
  matchLoop_of_method method_compiled

/-- The template of an endpoint. -/
def Endpoint.template : Endpoint → String
  | health => Routes.HEALTH
  | listFlows => Routes.FLOWS
  | getFlow => Routes.FLOW
  | getAtoms => Routes.ATOMS
  | getEvents => Routes.EVENTS
  | stream => Routes.STREAM

theorem pieces_template {endpoint : Endpoint} {rest : String} (h : endpoint.ofRun? = some rest) :
    pieces endpoint.template
      = [.literal beforeRunId, .param "run_id", .literal rest.toList] := by
  cases endpoint <;> cases h <;> decide

/-- The path of a run, made from a template. -/
theorem toList_formatTemplate {endpoint : Endpoint} {rest : String}
    (h : endpoint.ofRun? = some rest)
    (values : String → String) :
    (formatTemplate endpoint.template values).toList
      = beforeRunId ++ ((values "run_id").toList ++ rest.toList) := by
  rw [formatTemplate, pieces_template h, String.toList_ofList]
  simp

/-- Text and a parameter match only where the text is. -/
theorem matchPieces_of_dropPrefix? {text path : List Char} {rest : List Piece}
    (h : path.dropPrefix? text = none) : matchPieces (.literal text :: rest) path = none := by
  rw [matchPieces, h]

/-- The first two routes do not match the path of a run. -/
theorem matchPieces_health_or_flows (text : List Char) :
    matchPieces [.literal Routes.HEALTH.toList] (beforeRunId ++ text) = none
      ∧ matchPieces [.literal Routes.FLOWS.toList] (beforeRunId ++ text) = none := by
  constructor
  · rw [Option.eq_none_iff_forall_ne_some]
    intro values h
    have hsecond : (beforeRunId ++ text)[1]? = some 'a' := rfl
    rcases (matchPieces_literal.mp h).1 with heq | heq <;> rw [heq] at hsecond <;> cases hsecond
  · rw [Option.eq_none_iff_forall_ne_some]
    intro values h
    rw [beforeRunId, List.append_assoc] at h
    rcases (matchPieces_literal.mp h).1 with heq | heq
    · simp at heq
    · simp at heq

/-- The endpoint that the end of a path names. -/
theorem dropWhile_eq_iff {endpoint endpoint' : Endpoint} {rest rest' : String}
    (hrest : endpoint.ofRun? = some rest) (hrest' : endpoint'.ofRun? = some rest')
      {text : List Char}
    (h : text.dropWhile (· != '/') = rest.toList
      ∨ text.dropWhile (· != '/') = rest.toList ++ ['\n']) :
    (text.dropWhile (· != '/') = rest'.toList ∨ text.dropWhile (· != '/') = rest'.toList ++ ['\n'])
      ↔ endpoint' = endpoint := by
  constructor
  · intro h'
    have hslash := dropWhile_eq_nil_or text
    generalize text.dropWhile (· != '/') = last at *
    cases endpoint <;> cases hrest <;> cases endpoint' <;> cases hrest' <;>
      first
      | rfl
      | (exfalso; revert hslash
         rcases h with rfl | rfl <;> rcases h' with h' | h' <;> revert h' <;> decide)
  · rintro rfl
    rw [hrest] at hrest'
    cases hrest'
    exact h

/-- The endpoint found, and the run id. -/
theorem isFor_found_iff {found : Option (Route Endpoint × List (String × List Char))}
    {endpoint : Endpoint} {runId : String} :
    (Match.ofFound found).IsFor endpoint runId
      ↔ ∃ route values, found = some (route, values) ∧ route.handler = endpoint
        ∧ (Router.groupdict values).get? "run_id" = some runId := by
  rcases found with _ | ⟨route, values⟩
  · constructor
    · rintro ⟨houtcome, -⟩
      cases houtcome
    · rintro ⟨route, values, hfound, -⟩
      cases hfound
  · constructor
    · rintro ⟨-, hroute, hparam⟩
      exact ⟨route, values, rfl, Option.some.inj hroute, hparam⟩
    · rintro ⟨route', values', hfound, rfl, hparam⟩
      obtain ⟨rfl, rfl⟩ := Prod.mk.inj (Option.some.inj hfound)
      exact ⟨rfl, rfl, hparam⟩

/-- The route of an endpoint of a run, where it is found, and the value before the slash. -/
theorem found_runId_iff {route : Route Endpoint} {endpoint : Endpoint} {rest rest' : String}
    (hroute : route.handler.ofRun? = some rest') (hendpoint : endpoint.ofRun? = some rest)
    {text : List Char} {runId : String}
    (h : text.dropWhile (· != '/') = rest'.toList
      ∨ text.dropWhile (· != '/') = rest'.toList ++ ['\n']) :
    (∃ route' values, some (route, [("run_id", text.takeWhile (· != '/'))]) = some (route', values)
        ∧ route'.handler = endpoint ∧ (Router.groupdict values).get? "run_id" = some runId)
      ↔ text.takeWhile (· != '/') = runId.toList
        ∧ (text.dropWhile (· != '/') = rest.toList
          ∨ text.dropWhile (· != '/') = rest.toList ++ ['\n']) := by
  rw [dropWhile_eq_iff hroute hendpoint h]
  constructor
  · rintro ⟨route', values, hfound, rfl, hparam⟩
    obtain ⟨rfl, rfl⟩ := Prod.mk.inj (Option.some.inj hfound)
    refine ⟨?_, rfl⟩
    rw [← Option.some.inj hparam, String.toList_ofList]
  · rintro ⟨hvalue, hhandler⟩
    refine ⟨route, _, rfl, hhandler.symm, ?_⟩
    rw [hvalue]
    show some (String.ofList runId.toList) = _
    rw [String.ofList_toList]

/-- **What the table makes of the path of a run**: the run id stands before the next slash, and
what follows names the endpoint. -/
theorem isFor_matchPath_iff {endpoint : Endpoint} {rest : String}
    (hendpoint : endpoint.ofRun? = some rest) {path : String} {runId : String} :
    (theRouter.matchPath "GET" path).IsFor endpoint runId
      ↔ ∃ text, path.toList = beforeRunId ++ text ∧ runId ≠ ""
        ∧ text.takeWhile (· != '/') = runId.toList
        ∧ (text.dropWhile (· != '/') = rest.toList
          ∨ text.dropWhile (· != '/') = rest.toList ++ ['\n']) := by
  rw [matchPath_of_get, isFor_found_iff, compiled_theRouter]
  simp only [List.findSome?_cons, List.findSome?_nil]
  cases hdrop : path.toList.dropPrefix? beforeRunId with
  | none =>
    simp only [matchPieces_of_dropPrefix? hdrop, Option.map_none]
    constructor
    · -- one of the first two routes, or none
      rintro ⟨route, values, hfound, rfl, -⟩
      exfalso
      generalize matchPieces [.literal Routes.HEALTH.toList] path.toList = health at hfound
      generalize matchPieces [.literal Routes.FLOWS.toList] path.toList = flows at hfound
      rcases health with _ | health
      · rcases flows with _ | flows
        · cases hfound
        · obtain ⟨rfl, -⟩ := Prod.mk.inj (Option.some.inj hfound)
          cases hendpoint
      · obtain ⟨rfl, -⟩ := Prod.mk.inj (Option.some.inj hfound)
        cases hendpoint
    · rintro ⟨text, hpath, -⟩
      rw [hpath, dropPrefix?_append] at hdrop
      cases hdrop
  | some text =>
    have hpath := dropPrefix?_eq_some.mp hdrop
    obtain ⟨hhealth, hflows⟩ := matchPieces_health_or_flows text
    have hexists : (∃ text', path.toList = beforeRunId ++ text' ∧ runId ≠ ""
          ∧ text'.takeWhile (· != '/') = runId.toList
          ∧ (text'.dropWhile (· != '/') = rest.toList
            ∨ text'.dropWhile (· != '/') = rest.toList ++ ['\n']))
        ↔ runId ≠ "" ∧ text.takeWhile (· != '/') = runId.toList
          ∧ (text.dropWhile (· != '/') = rest.toList
            ∨ text.dropWhile (· != '/') = rest.toList ++ ['\n']) := by
      rw [hpath]
      simp only [List.append_cancel_left_eq, exists_eq_left']
    rw [hexists, hpath, hhealth, hflows]
    simp only [Option.map_none, matchPieces_param "run_id" (Or.inl (rfl : "".toList = [])),
      matchPieces_param "run_id" (Or.inr (rfl : "/atoms".toList.head? = some '/')),
      matchPieces_param "run_id" (Or.inr (rfl : "/events".toList.head? = some '/')),
      matchPieces_param "run_id" (Or.inr (rfl : "/stream".toList.head? = some '/'))]
    by_cases hvalue : text.takeWhile (· != '/') = []
    · simp only [hvalue, ne_eq, not_true_eq_false, false_and, if_false, Option.map_none]
      constructor
      · rintro ⟨route, values, hfound, -⟩
        cases hfound
      · rintro ⟨hne, heq, -⟩
        exact absurd (String.toList_eq_nil_iff.mp heq.symm) hne
    · have hne : ∀ {P : Prop}, (runId ≠ "" ∧ text.takeWhile (· != '/') = runId.toList ∧ P)
          ↔ text.takeWhile (· != '/') = runId.toList ∧ P := by
        intro P
        refine and_iff_right_of_imp ?_
        rintro ⟨heq, -⟩ rfl
        exact hvalue heq
      rw [hne]
      simp only [hvalue, ne_eq, not_false_eq_true, true_and]
      by_cases hflow : text.dropWhile (· != '/') = "".toList
          ∨ text.dropWhile (· != '/') = "".toList ++ ['\n']
      · rw [if_pos hflow]
        exact found_runId_iff rfl hendpoint hflow
      rw [if_neg hflow]
      by_cases hatoms : text.dropWhile (· != '/') = "/atoms".toList
          ∨ text.dropWhile (· != '/') = "/atoms".toList ++ ['\n']
      · rw [if_pos hatoms]
        exact found_runId_iff rfl hendpoint hatoms
      rw [if_neg hatoms]
      by_cases hevents : text.dropWhile (· != '/') = "/events".toList
          ∨ text.dropWhile (· != '/') = "/events".toList ++ ['\n']
      · rw [if_pos hevents]
        exact found_runId_iff rfl hendpoint hevents
      rw [if_neg hevents]
      by_cases hstream : text.dropWhile (· != '/') = "/stream".toList
          ∨ text.dropWhile (· != '/') = "/stream".toList ++ ['\n']
      · rw [if_pos hstream]
        exact found_runId_iff rfl hendpoint hstream
      rw [if_neg hstream]
      constructor
      · rintro ⟨route, values, hfound, -⟩
        cases hfound
      · rintro ⟨-, h⟩
        exfalso
        cases endpoint <;> cases hendpoint
        · exact hflow h
        · exact hatoms h
        · exact hevents h
        · exact hstream h

/-- The path of the listing. -/
theorem handler_matchPath_eq_listFlows_iff {path : String} :
    (theRouter.matchPath "GET" path).route.map Route.handler = some .listFlows
      ↔ path.toList = Routes.FLOWS.toList ∨ path.toList = Routes.FLOWS.toList ++ ['\n'] := by
  rw [matchPath_of_get]
  constructor
  · intro h
    cases hfound : theRouter.compiled.findSome? fun p =>
        (matchPieces p.2 path.toList).map fun values => (p.1, values) with
    | none =>
      rw [hfound] at h
      cases h
    | some found =>
      obtain ⟨p, hp, hsome⟩ := List.exists_of_findSome?_eq_some hfound
      obtain ⟨values, hvalues, rfl⟩ := Option.map_eq_some_iff.mp hsome
      rw [hfound] at h
      have hhandler : p.1.handler = .listFlows := Option.some.inj h
      -- only the second route has this handler
      have hpattern : p.2 = [.literal Routes.FLOWS.toList] := by
        rw [compiled_theRouter] at hp
        simp only [List.mem_cons, List.not_mem_nil, or_false] at hp
        rcases hp with rfl | rfl | rfl | rfl | rfl | rfl
        · cases hhandler
        · rfl
        all_goals cases hhandler
      rw [hpattern] at hvalues
      exact (matchPieces_literal.mp hvalues).1
  · intro h
    have hflows : matchPieces [.literal Routes.FLOWS.toList] path.toList = some [] :=
      matchPieces_literal.mpr ⟨h, rfl⟩
    have hhealth : matchPieces [.literal Routes.HEALTH.toList] path.toList = none := by
      rcases h with h | h <;> rw [h] <;> decide
    rw [compiled_theRouter, List.findSome?_cons, List.findSome?_cons, hhealth, hflows]
    rfl

end TaskflowMeter
