import TaskflowMeter.Api.Dispatch
import TaskflowMeter.Api.Driving
import TaskflowMeter.Api.Servers

/-!
# The two applications

The same dispatcher under ASGI and under WSGI.  What a handler looks up in a request is all that it
is told of it, so that requests which agree are answered alike; and both applications put on the
wire what the dispatcher answers.

## Main definitions

* `Streamed` — what becomes of a stream: what its polls return, and what the one after them raises.
* `Escaped` — what leaves an application that is not an answer.
* `Asgi.Message`, `Asgi.Exchange`, `Asgi.http` — the messages that are sent for a request.
* `Wsgi.Exchange`, `Wsgi.call` — what the callable does for one.
* `statusLine` — a status, as WSGI expects it.

## Main results

* `MeterRequest.Agree.dispatch` — **requests that agree are answered alike.**
* `servers_answer_alike` — **a request that is read alike is answered alike** by both applications.
* `stream_messages` — what an ASGI client is sent, whenever it goes away.
-/

namespace TaskflowMeter

open Results

/-! ### What handlers look at -/

namespace MeterRequest

variable {a b : MeterRequest}

theorem Agree.get (h : a.Agree b) (name : String) : a.get name = b.get name := by
  rw [MeterRequest.get, MeterRequest.get, h.2.2.2.1]

theorem Agree.getInt (h : a.Agree b) (name : String) (default : ℤ) :
    a.getInt name default = b.getInt name default := by
  rw [MeterRequest.getInt, MeterRequest.getInt, h.get, h.2.2.2.2.2]

theorem Agree.url (h : a.Agree b) (path : String) (query : List (String × Option String)) :
    a.url path query = b.url path query := by
  rw [MeterRequest.url, MeterRequest.url, h.2.2.1]

theorem Agree.limit (h : a.Agree b) (service : MeterService) (default : ℤ) :
    service.limit a default = service.limit b default := by
  rw [MeterService.limit, MeterService.limit, h.getInt]

theorem Agree.resumePoint (h : a.Agree b) :
    MeterService.resumePoint a = MeterService.resumePoint b := by
  rw [MeterService.resumePoint, MeterService.resumePoint, h.get, h.2.2.2.2.1, h.2.2.2.2.2]
  simp only [h.getInt]

theorem Agree.runUrl (h : a.Agree b) (template runId : String)
    (query : List (String × Option String)) :
    Serializers.runUrl a template runId query = Serializers.runUrl b template runId query := by
  rw [Serializers.runUrl, Serializers.runUrl, h.url]

theorem Agree.flow (h : a.Agree b) (snapshot : FlowSnapshot) (withAtoms withEvents : Bool) :
    Serializers.flow snapshot a withAtoms withEvents
      = Serializers.flow snapshot b withAtoms withEvents := by
  simp only [Serializers.flow, h.runUrl]

theorem Agree.flowPage (h : a.Agree b) (page : FlowPage) (withEvents : Bool) :
    Serializers.flowPage page a withEvents = Serializers.flowPage page b withEvents := by
  simp only [Serializers.flowPage, h.url, h.flow]

theorem Agree.eventPage (h : a.Agree b) (page : EventPage) (runId : String) :
    Serializers.eventPage page runId a = Serializers.eventPage page runId b := by
  simp only [Serializers.eventPage, h.runUrl]

/-- A handler is told the same by requests that agree. -/
theorem Agree.handle (h : a.Agree b) (hparams : a.pathParams = b.pathParams) (d : Dispatcher)
    (endpoint : Endpoint) : d.handle endpoint a = d.handle endpoint b := by
  have hparam : a.param = b.param := by
    funext name
    rw [MeterRequest.param, MeterRequest.param, hparams]
  cases endpoint with
  | health => rfl
  | listFlows =>
    simp only [Dispatcher.handle, MeterService.listFlows, h.limit, h.get, h.flowPage]
  | getFlow => simp only [Dispatcher.handle, MeterService.getFlow, hparam, h.flow]
  | getAtoms => simp only [Dispatcher.handle, MeterService.getAtoms, hparam, h.url, h.2.1]
  | getEvents =>
    simp only [Dispatcher.handle, MeterService.getEvents, hparam, h.getInt, h.limit, h.eventPage]
  | stream => simp only [Dispatcher.handle, MeterService.stream, hparam, h.resumePoint, h.limit]

/-- **Requests that agree are answered alike.** -/
theorem Agree.dispatch (h : a.Agree b) (d : Dispatcher) : d.dispatch a = d.dispatch b := by
  have hinvoke : ∀ route params,
      d.invoke route { a with pathParams := params }
        = d.invoke route { b with pathParams := params } := by
    intro route params
    have hwith : ({ a with pathParams := params } : MeterRequest).Agree
        { b with pathParams := params } := h
    rw [Dispatcher.invoke, Dispatcher.invoke, hwith.handle rfl, h.1]
  have hroute : d.route a = d.route b := by
    rw [Dispatcher.route, Dispatcher.route]
    simp only [hinvoke]
    rw [Dispatcher.options, Dispatcher.options, h.1, h.2.1]
  rw [Dispatcher.dispatch, Dispatcher.dispatch, hroute]

end MeterRequest

/-! ### What is put on the wire -/

open Driving

/-- What becomes of a stream: what its polls return, and the exception of the one after them. -/
structure Streamed where
  polls : List Polled
  fails : Option String := none

/-- How long a stream waits between two polls, and how long it stays quiet. -/
structure StreamSettings where
  interval : ℚ := 1
  heartbeat : ℚ := 15
  /-- The pauses that `time.sleep` makes: it raises for one that is negative, or too long for it. -/
  canSleep : ℚ → Bool := fun pause => 0 ≤ pause

/-- What leaves an application: what its dispatcher raises, or an exception of a stream. -/
inductive Escaped where
  | dispatch (raised : Raised)
  | stream (exception : String)
  deriving DecidableEq

namespace Asgi

/-- A message to the server. -/
inductive Message where
  | responseStart (status : ℕ) (headers : List (List UInt8 × List UInt8))
  | responseBody (body : List UInt8) (moreBody : Bool)
  deriving DecidableEq

/-- What is sent for a request, and what is raised after it. -/
structure Exchange where
  sent : List Message := []
  raised : Option Escaped := none

def encodeHeaders (headers : List (String × String)) : List (List UInt8 × List UInt8) :=
  headers.map fun h => (Utf8.encode h.1.toList, Utf8.encode h.2.toList)

def sendResponse (response : MeterResponse) : List Message :=
  [.responseStart response.status (encodeHeaders response.headers),
    .responseBody response.body false]

def sendChunk (body : List UInt8) : Message := .responseBody body true

/-- How `aiterFrames` ends, if it does: what a poll raises, and how the event is left. -/
def aiterEnd (fails : Option String) : Option ℕ → List Polled → Option (Option String × Option ℕ)
  | stop, [] =>
      if isSet stop then some (none, stop)
      else fails.map fun exception => (some exception, looked stop)
  | stop, poll :: polls =>
      if isSet stop then some (none, stop)
      else
        let sent := sendFrames (looked stop) poll.frames
        if sent.stopped || poll.complete then some (none, sent.stop)
        else aiterEnd fails sent.stop polls

/-- The empty chunk without which a client waits forever, unless that has gone away. -/
def finalChunk : Option (Option String × Option ℕ) → List Message
  | none => []
  | some (_, disconnected) => if isSet disconnected then [] else [.responseBody [] false]

/-- `disconnected` is set by a task of its own, at any moment. -/
def stream (settings : StreamSettings) (response : StreamResponse) (streamed : Streamed)
    (disconnected : Option ℕ) : Exchange :=
  let ended := aiterEnd streamed.fails disconnected streamed.polls
  { sent := .responseStart response.status (encodeHeaders response.headers)
      :: (aiterFrames disconnected settings.interval settings.heartbeat streamed.polls).map
          sendChunk
      ++ finalChunk ended
    raised := (ended.bind Prod.fst).map .stream }

/-- `ASGIApp._http`, once the meter is started: `streamed` tells what becomes of a cursor. -/
def http (d : Dispatcher) (settings : StreamSettings) (streamed : EventCursor → Streamed)
    (disconnected : Option ℕ) (scope : Scope) : Exchange :=
  match d.dispatch (buildRequest scope) with
  | .error raised => { raised := some (.dispatch raised) }
  | .ok (.response response) => { sent := sendResponse response }
  | .ok (.stream response) => stream settings response (streamed response.cursor) disconnected

end Asgi

/-- The phrases of the statuses that requests are answered with. -/
def phrase : ℕ → Option String
  | 200 => some "OK"
  | 204 => some "No Content"
  | 400 => some "Bad Request"
  | 404 => some "Not Found"
  | 405 => some "Method Not Allowed"
  | 501 => some "Not Implemented"
  | _ => none

/-- Render 200 as "200 OK", which is what WSGI expects. -/
def statusLine (status : ℕ) : String := toString status ++ " " ++ (phrase status).getD "Unknown"

namespace Wsgi

/-- What the callable does for a request. -/
structure Exchange where
  /-- The arguments of `start_response`, once it was called. -/
  started : Option (String × List (String × String)) := none
  /-- What has been iterated over. -/
  chunks : List (List UInt8) := []
  /-- There is nothing more. -/
  ended : Bool := true
  raised : Option Escaped := none

/-- How `iterFrames` ends, if it does: what a poll raises. -/
def iterEnd (fails : Option String) : List Polled → Option (Option String)
  | [] => fails.map some
  | poll :: polls => if poll.complete then some none else iterEnd fails polls

/-- The loop of a thread sleeps after each round, and goes no further where that raises. -/
def asleep (settings : StreamSettings) (streamed : Streamed) : Streamed :=
  match streamed.polls with
  | [] => streamed
  | poll :: _ =>
      if poll.complete || settings.canSleep settings.interval then streamed
      else { polls := [poll], fails := some "ValueError" }

/-- `WSGIApp.__call__`, once the meter is started, for a client that stays. -/
def call (d : Dispatcher) (settings : StreamSettings) (streamed : EventCursor → Streamed)
    (environ : Environ) : Exchange :=
  match d.dispatch (buildRequest environ) with
  | .error raised => { raised := some (.dispatch raised) }
  | .ok (.response response) =>
      { started := some (statusLine response.status, response.headers)
        chunks := [response.body] }
  | .ok (.stream response) =>
      let streamed := asleep settings (streamed response.cursor)
      let ended := iterEnd streamed.fails streamed.polls
      { started := some (statusLine response.status, response.headers)
        chunks := iterFrames settings.interval settings.heartbeat streamed.polls
        ended := ended.isSome
        raised := (ended.bind id).map .stream }

theorem asleep_of_canSleep {settings : StreamSettings} (h : settings.canSleep settings.interval)
    (streamed : Streamed) : asleep settings streamed = streamed := by
  unfold asleep
  split
  · rfl
  · rw [h, Bool.or_true, if_pos rfl]

end Wsgi

/-! ### What a client gets -/

namespace Asgi

/-- The status and the headers. -/
def started? : List Message → Option (ℕ × List (List UInt8 × List UInt8))
  | .responseStart status headers :: _ => some (status, headers)
  | _ => none

/-- The body, as far as it was sent. -/
def body (sent : List Message) : List UInt8 :=
  sent.flatMap fun
    | .responseStart .. => []
    | .responseBody body _ => body

/-- The server was told that there is no more. -/
def Finished (sent : List Message) : Prop := ∃ body, .responseBody body false ∈ sent

theorem body_map_sendChunk (chunks : List (List UInt8)) :
    body (chunks.map sendChunk) = chunks.flatten := by
  rw [body, List.flatMap_map]
  exact List.flatMap_id

theorem not_finished_map_sendChunk (chunks : List (List UInt8)) :
    ¬Finished (chunks.map sendChunk) := by
  rintro ⟨body, hbody⟩
  obtain ⟨chunk, -, hchunk⟩ := List.mem_map.mp hbody
  cases hchunk

variable {settings : StreamSettings} {response : StreamResponse} {streamed : Streamed}

theorem body_stream (disconnected : Option ℕ) :
    body (stream settings response streamed disconnected).sent
      = (aiterFrames disconnected settings.interval settings.heartbeat streamed.polls).flatten := by
  have hfinal : ∀ ended, body (finalChunk ended) = [] := by
    intro ended
    cases ended with
    | none => rfl
    | some ended =>
      rw [finalChunk]
      split <;> rfl
  have happend : ∀ a b, body (a ++ b) = body a ++ body b := fun a b => List.flatMap_append
  rw [stream, happend, hfinal, List.append_nil]
  exact body_map_sendChunk _

/-- The client of a stream is told that there is no more exactly when the loop has ended and the
client was not seen to go away. -/
theorem finished_stream_iff (disconnected : Option ℕ) :
    Finished (stream settings response streamed disconnected).sent
      ↔ ∃ raised left, aiterEnd streamed.fails disconnected streamed.polls = some (raised, left)
        ∧ isSet left = false := by
  have hchunks := not_finished_map_sendChunk
    (aiterFrames disconnected settings.interval settings.heartbeat streamed.polls)
  have hsplit : Finished (stream settings response streamed disconnected).sent
      ↔ Finished (finalChunk (aiterEnd streamed.fails disconnected streamed.polls)) := by
    constructor
    · rintro ⟨body, hbody⟩
      rcases List.mem_append.mp hbody with hbody | hbody
      · rcases List.mem_cons.mp hbody with hbody | hbody
        · cases hbody
        · exact (hchunks ⟨body, hbody⟩).elim
      · exact ⟨body, hbody⟩
    · rintro ⟨body, hbody⟩
      exact ⟨body, List.mem_append_right _ hbody⟩
  rw [hsplit]
  cases aiterEnd streamed.fails disconnected streamed.polls with
  | none => simp [finalChunk, Finished]
  | some ended =>
    obtain ⟨raised, left⟩ := ended
    cases hset : isSet left <;> simp [finalChunk, Finished, hset]

end Asgi

/-! ### A client that stays -/

theorem aiterEnd_none (fails : Option String) (polls : List Polled) :
    Asgi.aiterEnd fails none polls = (Wsgi.iterEnd fails polls).map fun raised => (raised, none) := by
  induction polls with
  | nil => cases fails <;> rfl
  | cons poll polls ih =>
    rw [Asgi.aiterEnd, Wsgi.iterEnd, looked_none, sendFrames_none]
    cases hcomplete : poll.complete with
    | true => rfl
    | false => simpa using ih

/-- The statuses that requests are answered with. -/
def statuses : List ℕ := [200, 204, 400, 404, 405, 501]

theorem status_mem_of_dispatch {d : Dispatcher} {request : MeterRequest}
    {result : Dispatcher.Result} (h : d.dispatch request = .ok result) :
    result.status ∈ statuses := by
  have herror : ∀ error : ApiError,
      (Dispatcher.Result.response (.fromError error)).status ∈ statuses := by
    intro error
    have hstatus : (MeterResponse.fromError error).status = error.kind.status := rfl
    rw [Dispatcher.Result.status, hstatus]
    cases error.kind <;> decide
  have hhandle : ∀ endpoint request result, d.handle endpoint request = .ok result →
      result.status = 200 := by
    intro endpoint request result h
    cases endpoint with
    | health =>
      rw [← Except.ok.inj h]
      rfl
    | listFlows | getFlow | getAtoms | getEvents | stream =>
      obtain ⟨payload, -, rfl⟩ := map_eq_ok_iff.mp h
      rfl
  have hroute : ∀ result, d.route request = .ok result → result.status ∈ statuses := by
    intro result h
    rw [Dispatcher.route] at h
    split at h
    · rw [Dispatcher.options] at h
      split at h
      · simp at h
      · rw [← Except.ok.inj h]
        exact (by decide : 204 ∈ statuses)
    · dsimp only at h
      split at h
      · obtain ⟨handled, hhandled, rfl⟩ := map_eq_ok_iff.mp h
        have hstatus := hhandle _ _ _ hhandled
        cases handled with
        | response response =>
          rw [Dispatcher.withoutBody]
          split <;> exact hstatus ▸ (by decide : 200 ∈ statuses)
        | stream response => exact hstatus ▸ (by decide : 200 ∈ statuses)
      · simp at h
      · simp at h
  rw [Dispatcher.dispatch] at h
  split at h
  · rw [← Except.ok.inj h]
    exact herror _
  · exact hroute result h

/-- **A request that is read alike is answered alike** by both applications, for a client that
stays: with the same status, which has a phrase, the same headers and the same bytes, and the same
exception after them; and there is more to come from the one exactly as long as there is from the
other. -/
theorem servers_answer_alike {r : HttpRequest}
    (hread : (Asgi.buildRequest r.scope).Agree (Wsgi.buildRequest r.environ)) (d : Dispatcher)
    {settings : StreamSettings} (hsleeps : settings.canSleep settings.interval)
    (streamed : EventCursor → Streamed) :
    let asgi := Asgi.http d settings streamed none r.scope
    let wsgi := Wsgi.call d settings streamed r.environ
    (Asgi.started? asgi.sent = none ↔ wsgi.started = none)
      ∧ (∀ status headers, Asgi.started? asgi.sent = some (status, headers) →
          ∃ names, wsgi.started = some (statusLine status, names)
            ∧ headers = Asgi.encodeHeaders names ∧ (phrase status).isSome)
      ∧ Asgi.body asgi.sent = wsgi.chunks.flatten
      ∧ asgi.raised = wsgi.raised
      ∧ (Asgi.started? asgi.sent ≠ none → (Asgi.Finished asgi.sent ↔ wsgi.ended = true)) := by
  have hphrase : ∀ status ∈ statuses, (phrase status).isSome := by decide
  intro asgi wsgi
  have hdispatch := hread.dispatch d
  cases hanswer : d.dispatch (Wsgi.buildRequest r.environ) with
  | error raised =>
    have hasgi : asgi = { raised := some (.dispatch raised) } := by
      show Asgi.http d settings streamed none r.scope = _
      rw [Asgi.http, hdispatch, hanswer]
    have hwsgi : wsgi = { raised := some (.dispatch raised) } := by
      show Wsgi.call d settings streamed r.environ = _
      rw [Wsgi.call, hanswer]
    simp [hasgi, hwsgi, Asgi.started?, Asgi.body]
  | ok result =>
    have hstatus := hphrase _ (status_mem_of_dispatch hanswer)
    cases result with
    | response response =>
      have hasgi : asgi = { sent := Asgi.sendResponse response } := by
        show Asgi.http d settings streamed none r.scope = _
        rw [Asgi.http, hdispatch, hanswer]
      have hwsgi : wsgi = { started := some (statusLine response.status, response.headers)
                            chunks := [response.body] } := by
        show Wsgi.call d settings streamed r.environ = _
        rw [Wsgi.call, hanswer]
      rw [hasgi, hwsgi]
      refine ⟨by simp [Asgi.started?, Asgi.sendResponse], ?_, ?_, rfl, ?_⟩
      · intro status headers hstarted
        obtain ⟨rfl, rfl⟩ := Prod.mk.inj (Option.some.inj hstarted)
        exact ⟨_, rfl, rfl, hstatus⟩
      · simp [Asgi.body, Asgi.sendResponse]
      · simp [Asgi.Finished, Asgi.sendResponse]
    | stream response =>
      -- a client that stays is sent every round of both loops
      have hasgi : asgi = Asgi.stream settings response (streamed response.cursor) none := by
        show Asgi.http d settings streamed none r.scope = _
        rw [Asgi.http, hdispatch, hanswer]
      have hwsgi : wsgi =
          { started := some (statusLine response.status, response.headers)
            chunks := iterFrames settings.interval settings.heartbeat (streamed response.cursor).polls
            ended := (Wsgi.iterEnd (streamed response.cursor).fails
              (streamed response.cursor).polls).isSome
            raised := ((Wsgi.iterEnd (streamed response.cursor).fails
              (streamed response.cursor).polls).bind id).map .stream } := by
        show Wsgi.call d settings streamed r.environ = _
        rw [Wsgi.call, hanswer]
        dsimp only
        rw [Wsgi.asleep_of_canSleep hsleeps]
      rw [hasgi, hwsgi]
      refine ⟨by simp [Asgi.started?, Asgi.stream], ?_, ?_, ?_, fun _ => ?_⟩
      · intro status headers hstarted
        obtain ⟨rfl, rfl⟩ := Prod.mk.inj (Option.some.inj hstarted)
        exact ⟨_, rfl, rfl, hstatus⟩
      · rw [Asgi.body_stream, aiterFrames_none]
      · rw [Asgi.stream, aiterEnd_none]
        cases Wsgi.iterEnd (streamed response.cursor).fails (streamed response.cursor).polls <;> simp
      · rw [Asgi.finished_stream_iff, aiterEnd_none]
        cases Wsgi.iterEnd (streamed response.cursor).fails (streamed response.cursor).polls <;>
          simp [isSet]

theorem absolute_stream : ("" ++ "/api/v1/flows/run-1/stream").toList.head? = some '/' := by
  decide +kernel

theorem boundary_stream : "/api/v1/flows/run-1/stream" = ""
    ∨ "/api/v1/flows/run-1/stream".toList.head? = some '/' := by decide +kernel

theorem ascii_nil : ∀ h ∈ ([] : List (List UInt8 × List UInt8)), ∀ b ∈ h.1, b < 0x80 := by simp

theorem distinct_nil :
    (([] : List (List UInt8 × List UInt8)).map fun h => lowerName h.1).Nodup := by simp

/-- A request for the stream of a run. -/
def askedStream : HttpRequest where
  path := "/api/v1/flows/run-1/stream"
  query := Utf8.encode "limit=1".toList
  absolute := absolute_stream
  boundary := boundary_stream
  ascii := ascii_nil
  distinct := distinct_nil

/-- An event is sent, nothing happens for a while, and the database is gone. -/
def databaseGone : Streamed where
  polls :=
    [{ frames := [Sse.Chunk.bytes (fun _ => Sse.heartbeatText) (.event (heartbeat 1))]
       complete := false
       ends := Bool.noConfusion }, quietPoll]
  fails := some "OperationalError"

theorem servers_answer_alike_stream :
    let d : Dispatcher := { service := busyService, vitals := { version := "1" } }
    let asgi := Asgi.http d {} (fun _ => databaseGone) none askedStream.scope
    let wsgi := Wsgi.call d {} (fun _ => databaseGone) askedStream.environ
    wsgi.started = some (statusLine 200, SSE_HEADERS) ∧ wsgi.chunks.length = 2
      ∧ Asgi.body asgi.sent = wsgi.chunks.flatten
      ∧ asgi.raised = some (.stream "OperationalError") ∧ asgi.raised = wsgi.raised := by
  intro d asgi wsgi
  have hread : (Asgi.buildRequest askedStream.scope).Agree
      (Wsgi.buildRequest askedStream.environ) :=
    ⟨by decide +kernel, by decide +kernel, by decide +kernel, fun _ => rfl, fun _ => rfl, rfl⟩
  have hsleeps : ({} : StreamSettings).canSleep ({} : StreamSettings).interval = true := by
    decide +kernel
  have hchunks : (iterFrames 1 15 databaseGone.polls).length = 2 := by decide +kernel
  have halike := servers_answer_alike hread d hsleeps fun _ => databaseGone
  exact ⟨rfl, hchunks, halike.2.2.1, rfl, halike.2.2.2.1⟩

/-! ### A client that goes away -/

/-- A loop that stops sending has found the event set. -/
theorem isSet_of_stopped (frames : List (List UInt8)) :
    ∀ stop, (sendFrames stop frames).stopped = true → isSet (sendFrames stop frames).stop = true := by
  induction frames with
  | nil => simp
  | cons chunk frames ih =>
    intro stop
    rw [sendFrames]
    split
    · next hset => exact fun _ => hset
    · exact ih (looked stop)

/-- The polls and chunks of a loop that has ended without finding the event set. -/
theorem rounds_of_aiterEnd {settings : StreamSettings} {fails : Option String}
    {polls : List Polled} :
    ∀ {stop : Option ℕ} {quiet : ℚ} {raised : Option String} {left : Option ℕ},
      Asgi.aiterEnd fails stop polls = some (raised, left) → isSet left = false →
      aiterRounds settings.interval settings.heartbeat stop quiet polls
          = iterRounds settings.interval settings.heartbeat quiet polls
        ∧ Wsgi.iterEnd fails polls = some raised := by
  induction polls with
  | nil =>
    intro stop quiet raised left hend hleft
    rw [Asgi.aiterEnd] at hend
    split at hend
    · next hset =>
      obtain ⟨-, rfl⟩ := Prod.mk.inj (Option.some.inj hend)
      simp [hset] at hleft
    · obtain ⟨exception, hfails, heq⟩ := Option.map_eq_some_iff.mp hend
      obtain ⟨rfl, -⟩ := Prod.mk.inj heq
      exact ⟨rfl, by rw [Wsgi.iterEnd, hfails]; rfl⟩
  | cons poll polls ih =>
    intro stop quiet raised left hend hleft
    rw [Asgi.aiterEnd] at hend
    split at hend
    · next hset =>
      obtain ⟨-, rfl⟩ := Prod.mk.inj (Option.some.inj hend)
      simp [hset] at hleft
    · next hset =>
      dsimp only at hend
      have hstopped : (sendFrames (looked stop) poll.frames).stopped = false := by
        by_contra hstopped
        rw [Bool.not_eq_false] at hstopped
        rw [hstopped, Bool.true_or, if_pos rfl] at hend
        obtain ⟨-, rfl⟩ := Prod.mk.inj (Option.some.inj hend)
        rw [isSet_of_stopped _ _ hstopped] at hleft
        simp at hleft
      obtain ⟨-, hall⟩ := sendFrames_prefix poll.frames (looked stop)
      have hchunks := hall hstopped
      rw [hstopped, Bool.false_or] at hend
      rw [aiterRounds, if_neg hset, iterRounds, Wsgi.iterEnd]
      dsimp only
      rw [hstopped, Bool.false_or, hchunks]
      cases hcomplete : poll.complete with
      | true =>
        rw [hcomplete, if_pos rfl] at hend
        obtain ⟨rfl, -⟩ := Prod.mk.inj (Option.some.inj hend)
        exact ⟨rfl, rfl⟩
      | false =>
        rw [hcomplete, if_neg (by simp)] at hend
        have hrest := fun quiet => @ih _ quiet _ _ hend hleft
        simp only [Bool.false_eq_true, if_false, (hrest _).1]
        exact ⟨trivial, (hrest quiet).2⟩

/-- **What an ASGI client is sent, whenever it goes away**: the response starts once and first;
nothing comes after the message that ends it, which carries nothing; the bytes are a beginning of
those for a client that stays; and if the response is ended then they are all of them, and the loop
has ended by itself. -/
theorem stream_messages (settings : StreamSettings) (response : StreamResponse)
    (streamed : Streamed) (disconnected : Option ℕ) :
    let sent := (Asgi.stream settings response streamed disconnected).sent
    let whole := (Asgi.stream settings response streamed none).sent
    (∃ bodies, sent = .responseStart response.status (Asgi.encodeHeaders response.headers) :: bodies
        ∧ ∀ m ∈ bodies, ∃ body more, m = .responseBody body more)
      ∧ (∀ before body after, sent = before ++ .responseBody body false :: after →
          body = [] ∧ after = [])
      ∧ Asgi.body sent <+: Asgi.body whole
      ∧ (Asgi.Finished sent → Asgi.body sent = Asgi.body whole ∧ Asgi.Finished whole
          ∧ (Wsgi.iterEnd streamed.fails streamed.polls).isSome) := by
  intro sent whole
  have hfinal : ∀ ended, Asgi.finalChunk ended = []
      ∨ Asgi.finalChunk ended = [.responseBody [] false] := by
    intro ended
    cases ended with
    | none => exact Or.inl rfl
    | some ended =>
      rw [Asgi.finalChunk]
      split
      · exact Or.inl rfl
      · exact Or.inr rfl
  refine ⟨⟨_, rfl, fun m hm => ?_⟩, fun before body after heq => ?_, ?_, fun hfinished => ?_⟩
  · rcases List.mem_append.mp hm with hm | hm
    · obtain ⟨chunk, -, rfl⟩ := List.mem_map.mp hm
      exact ⟨chunk, true, rfl⟩
    · rcases hfinal (Asgi.aiterEnd streamed.fails disconnected streamed.polls) with hnil | hone
      · simp [hnil] at hm
      · rw [hone, List.mem_singleton] at hm
        exact ⟨[], false, hm⟩
  · -- only the final chunk ends the response, and it comes last
    rcases List.append_eq_append_iff.mp heq with ⟨mid, hbefore, hfinish⟩ | ⟨mid, hchunks, hmid⟩
    · rcases hfinal (Asgi.aiterEnd streamed.fails disconnected streamed.polls) with hnil | hone
      · simp [hnil] at hfinish
      · rw [hone] at hfinish
        obtain ⟨-, hbody, hafter⟩ : mid = [] ∧ body = [] ∧ after = [] := by
          cases mid with
          | nil => simpa [eq_comm] using hfinish
          | cons m mid => simp at hfinish
        exact ⟨hbody, hafter⟩
    · cases mid with
      | nil =>
        rcases hfinal (Asgi.aiterEnd streamed.fails disconnected streamed.polls) with hnil | hone
        · simp [hnil] at hmid
        · simpa [hone] using hmid
      | cons m mid =>
        obtain ⟨rfl, -⟩ := List.cons.inj hmid
        have hmem : Asgi.Message.responseBody body false
            ∈ .responseStart response.status (Asgi.encodeHeaders response.headers)
              :: (aiterFrames disconnected settings.interval settings.heartbeat streamed.polls).map
                Asgi.sendChunk := by
          rw [hchunks]
          simp
        rcases List.mem_cons.mp hmem with hmem | hmem
        · cases hmem
        · exact (Asgi.not_finished_map_sendChunk _ ⟨body, hmem⟩).elim
  · rw [Asgi.body_stream, Asgi.body_stream, aiterFrames_none]
    obtain ⟨rest, hrest⟩ := aiterFrames_prefix disconnected settings.interval settings.heartbeat
      streamed.polls
    exact ⟨rest.flatten, by rw [← hrest, List.flatten_append]⟩
  -- a response that was ended was not cut short: the client was there for the last round
  · obtain ⟨raised, left, hend, hleft⟩ := (Asgi.finished_stream_iff disconnected).mp hfinished
    obtain ⟨hrounds, hiter⟩ := @rounds_of_aiterEnd settings _ _ _ 0 _ _ hend hleft
    refine ⟨?_, ?_, by rw [hiter]; rfl⟩
    · rw [Asgi.body_stream, Asgi.body_stream, aiterFrames_none, aiterFrames, iterFrames, hrounds]
    · rw [Asgi.finished_stream_iff, aiterEnd_none, hiter]
      exact ⟨raised, none, rfl, rfl⟩

end TaskflowMeter
