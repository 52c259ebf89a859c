import TaskflowMeter.Api.Serializers
import TaskflowMeter.Api.Sse
import TaskflowMeter.Meter

/-!
# Every query the API can answer

Each handler makes a payload, or raises.

## Main definitions

* `MeterService` — the meter, and the most that is served in one page.
* `MeterService.limit`, `MeterService.resumePoint` — what a request asks for.
* `MeterService.listFlows`, `MeterService.getFlow`, `MeterService.getAtoms`,
  `MeterService.getEvents`, `MeterService.stream` — the handlers.

## Main results

* `limit_eq_ok` — **a page is never larger than asked for**, nor than the service allows.
* `resumePoint_of_header` — **a stream resumes after the number that the client sends.**
* `stream_eq_ok_iff` — the cursor of a stream that is opened.
-/

namespace TaskflowMeter

def MAX_LIMIT : ℤ := 500
def DEFAULT_FLOW_LIMIT : ℤ := 50
def DEFAULT_EVENT_LIMIT : ℤ := 200

/-- Answers requests from a meter. -/
structure MeterService where
  meter : Meter
  maxLimit : ℤ := MAX_LIMIT

namespace MeterService

/-! ### Shared checks -/

def flowOr404 (service : MeterService) (runId : String) : Except Raised FlowSnapshot :=
  match service.meter.getFlow runId with
  | some snapshot => .ok snapshot
  | none => .error (notFound ("no flow with run id " ++ (Json.str runId).repr))

def requireEvents (service : MeterService) : Except Raised Unit :=
  if service.meter.supportsEvents then .ok ()
  else .error (unsupported ("this datasource keeps current state, not a history; pair it with a "
    ++ "poller feeding a writable datasource to stream events"))

def limit (service : MeterService) (request : MeterRequest) (default : ℤ) : Except Raised ℤ := do
  let limit ← request.getInt "limit" default
  if limit < 1 then throw (badRequest ("limit must be at least 1, got " ++ toString limit))
  return min limit service.maxLimit

/-- Where to resume a stream from: an explicit parameter wins over what a browser sends by
itself. -/
def resumePoint (request : MeterRequest) : Except Raised ℤ :=
  match request.get "since_seq" with
  | some _ => request.getInt "since_seq" 0
  | none =>
      match request.headers.get? "last-event-id" with
      | none => .ok 0
      | some header =>
          match PyInt.int? header request.maxStrDigits with
          | some n => .ok n
          | none =>
              .error (badRequest ("Last-Event-ID must be an integer, got "
                ++ (Json.str header).repr))

/-! ### Endpoints -/

/-- The link to the next page is percent-encoded, which raises for a run id that holds a lone
surrogate.  No text of ours holds one: such a run id stands under a name of its own, which is
`unencodable`. -/
def listFlows (service : MeterService) (request : MeterRequest)
    (unencodable : String → Bool := fun _ => false) : Except Raised Json := do
  let limit ← service.limit request DEFAULT_FLOW_LIMIT
  match service.meter.listFlows { state := request.get "state", bookId := request.get "book_id" }
      limit (request.get "marker") with
  | .ok page =>
      match page.nextMarker.filter unencodable with
      | some marker => throw (.unicodeEncodeError marker)
      | none => return Serializers.flowPage page request service.meter.supportsEvents
  | .error (.unknownMarker message) => throw (badRequest message)
  | .error (.valueError message) => throw (.valueError message)

def getFlow (service : MeterService) (request : MeterRequest) : Except Raised Json := do
  let runId ← request.param "run_id"
  let snapshot ← service.flowOr404 runId
  return Serializers.flow snapshot request true service.meter.supportsEvents

def getAtoms (service : MeterService) (request : MeterRequest) : Except Raised Json := do
  let runId ← request.param "run_id"
  match service.meter.getAtoms runId with
  | none => throw (notFound ("no flow with run id " ++ (Json.str runId).repr))
  | some atoms =>
      return .obj
        [("atoms", .arr (atoms.map Serializers.atom)),
          ("links", .obj [("self", .str (request.url request.path))])]

def getEvents (service : MeterService) (request : MeterRequest) : Except Raised Json := do
  let runId ← request.param "run_id"
  service.requireEvents
  let _ ← service.flowOr404 runId
  let since ← request.getInt "since_seq" 0
  let limit ← service.limit request DEFAULT_EVENT_LIMIT
  match service.meter.eventsSince runId since limit with
  | .ok page => return Serializers.eventPage page runId request
  | .error message => throw (.valueError message)

/-- The cursor of a new stream. -/
def stream (service : MeterService) (request : MeterRequest) : Except Raised EventCursor := do
  let runId ← request.param "run_id"
  service.requireEvents
  let _ ← service.flowOr404 runId
  let since ← resumePoint request
  let limit ← service.limit request DEFAULT_EVENT_LIMIT
  return { runId := runId, sinceSeq := since, batchLimit := limit }

/-! ### What requests are given -/

/-- **A page is never larger than asked for**, nor than the service allows. -/
theorem limit_eq_ok {service : MeterService} {request : MeterRequest} {default limit : ℤ}
    (h : service.limit request default = .ok limit) :
    ∃ asked, request.getInt "limit" default = .ok asked ∧ 1 ≤ asked
      ∧ limit = min asked service.maxLimit := by
  unfold MeterService.limit at h
  cases hasked : request.getInt "limit" default with
  | error e =>
    rw [hasked] at h
    cases h
  | ok asked =>
    rw [hasked] at h
    refine ⟨asked, rfl, ?_⟩
    by_cases hlow : asked < 1
    · simp only [bind, Except.bind, if_pos hlow] at h
      cases h
    · simp only [bind, Except.bind, if_neg hlow] at h
      exact ⟨not_lt.mp hlow, (Except.ok.inj h).symm⟩

/-- Without a parameter and a header a stream starts at the beginning. -/
theorem resumePoint_of_none {request : MeterRequest} (hquery : request.get "since_seq" = none)
    (hheader : request.headers.get? "last-event-id" = none) : resumePoint request = .ok 0 := by
  rw [resumePoint, hquery, hheader]

/-- **A stream resumes after the number that the client sends.** -/
theorem resumePoint_of_header {request : MeterRequest} {n : ℤ}
    (hquery : request.get "since_seq" = none)
    (hheader : request.headers.get? "last-event-id" = some (toString n))
    (hdigits : request.maxStrDigits = none) : resumePoint request = .ok n := by
  rw [resumePoint, hquery, hheader, hdigits]
  dsimp only
  rw [PyInt.int?_toString]

/-- The cursor of a stream that is opened. -/
theorem stream_eq_ok_iff {service : MeterService} {request : MeterRequest} {runId : String}
    (hparam : request.param "run_id" = .ok runId) {cursor : EventCursor} :
    service.stream request = .ok cursor
      ↔ service.meter.supportsEvents = true ∧ (service.meter.getFlow runId).isSome = true
        ∧ ∃ since limit, resumePoint request = .ok since
          ∧ service.limit request DEFAULT_EVENT_LIMIT = .ok limit
          ∧ cursor = { runId := runId, sinceSeq := since, batchLimit := limit } := by
  unfold MeterService.stream
  rw [hparam]
  simp only [bind, Except.bind, requireEvents, flowOr404]
  cases service.meter.supportsEvents with
  | false => simp
  | true =>
    cases service.meter.getFlow runId with
    | none => simp
    | some snapshot =>
      cases hsince : resumePoint request with
      | error e => simp
      | ok since =>
        cases hlimit : service.limit request DEFAULT_EVENT_LIMIT with
        | error e => simp
        | ok limit =>
          simp only [Option.isSome_some, if_true, true_and]
          constructor
          · intro h
            exact ⟨since, limit, rfl, rfl, (Except.ok.inj h).symm⟩
          · rintro ⟨since', limit', hsince', hlimit', rfl⟩
            obtain rfl := Except.ok.inj hsince'
            obtain rfl := Except.ok.inj hlimit'
            rfl

end MeterService

end TaskflowMeter
