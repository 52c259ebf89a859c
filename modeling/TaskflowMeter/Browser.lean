import TaskflowMeter.Api.EventStream
import TaskflowMeter.Lib.Follower
import TaskflowMeter.PollerStream
import TaskflowMeter.Reconnect

/-!
# What a browser makes of a run

A poller feeds a history that keeps the last events of each run, and a browser reads the stream of a
run.  Its connections break wherever they may, with frames that do not arrive any more, and it comes
back with the id of the last event that it was given.

## Main definitions

* `Broadcast` — the poller, the connection, and what has arrived over the ones before.
* `Broadcast.step` — what any of them does; the two reads of a poll are two steps.
* `Broadcast.read` — what the browser makes of a message, unless it does not fit.
* `Broadcast.hear` — the same of what is sent.

## Main results

* `poll_look` — the two steps are a poll of the cursor.
* `exists_heard` — **a page fits what the browser has been told.**
* `browser_accounts` — **over all connections the browser is told of every number once**: it has the
  event, or it was told that the event is gone, and then it is.
-/

namespace TaskflowMeter

open Consecutive EventStream Follower Runs Sse

/-- A poller with its history, and a browser that reads the stream of a run. -/
structure Broadcast where
  watching : Watching
  /-- The server's end of the connection. -/
  cursor : Option EventCursor := none
  /-- What has been sent on the connection after its opening. -/
  sent : List Chunk := []
  /-- The page was empty, and the flow is to be read. -/
  asking : Bool := false
  /-- What has arrived over each of the connections before. -/
  arrived : List (List Chunk) := []

namespace Broadcast

inductive Step where
  /-- The poller or somebody else does something. -/
  | watch (m : Watching.Move)
  /-- The connection breaks, if there is one, and of what was sent on it so much has arrived. -/
  | hangUp (arrive : ℕ)
  /-- The browser asks for a new stream. -/
  | connect (query : Dict String (List String)) (headers : Dict String String)
  /-- A poll reads the events. -/
  | poll
  /-- A poll whose page was empty reads the flow. -/
  | look
  | heartbeat

def hangUp (s : Broadcast) (arrive : ℕ) : Broadcast :=
  match s.cursor with
  | some _ =>
      { s with
        cursor := none
        sent := []
        asking := false
        arrived := s.arrived ++ [s.sent.take arrive] }
  | none => s

/-- What the browser knows when it comes back. -/
def session (s : Broadcast) : Reconnecting.Session where
  store := s.watching.sink
  received := s.arrived.flatten.filterMap Chunk.frame?

def connect (source : DataSource) (maxLimit : ℤ) (runId : String) (s : Broadcast)
    (query : Dict String (List String)) (headers : Dict String String) : Broadcast :=
  match s.cursor with
  | some _ => s
  | none =>
      match (Reconnecting.serviceOf source maxLimit s.watching.sink).stream
        (s.session.request runId query headers) with
      | .ok cursor => { s with cursor := some cursor }
      | .error _ => s

/-- What a page is sent as. -/
def pageChunks (page : EventPage) : List Chunk :=
  (if page.truncated then [.gap page] else []) ++ page.events.map .event

/-- A poll reads the events.  An exception ends the response. -/
def poll (s : Broadcast) : Broadcast :=
  match s.cursor with
  | some cursor =>
      if cursor.complete || s.asking then s
      else
        match s.watching.sink.eventsSince cursor.runId cursor.sinceSeq cursor.batchLimit with
        | .ok page =>
            { s with
              cursor := some { cursor with sinceSeq := page.nextSeq }
              sent := s.sent ++ pageChunks page
              asking := page.events.isEmpty }
        | .error _ => s.hangUp s.sent.length
  | none => s

/-- A poll whose page was empty reads the flow. -/
def look (s : Broadcast) : Broadcast :=
  match s.cursor with
  | some cursor =>
      if s.asking then
        if EventCursor.flowFinished (s.watching.sink.getFlow cursor.runId) then
          { s with
            cursor := some { cursor with complete := true }
            sent := s.sent ++ [.finish]
            asking := false }
        else { s with asking := false }
      else s
  | none => s

def heartbeat (s : Broadcast) : Broadcast :=
  match s.cursor with
  | some cursor =>
      if cursor.complete || s.asking then s else { s with sent := s.sent ++ [.heartbeat] }
  | none => s

def step (source : DataSource) (maxLimit : ℤ) (runId : String) (s : Broadcast) : Step → Broadcast
  | .watch m => { s with watching := s.watching.step runId m }
  | .hangUp arrive => s.hangUp arrive
  | .connect query headers => s.connect source maxLimit runId query headers
  | .poll => s.poll
  | .look => s.look
  | .heartbeat => s.heartbeat

/-- What has arrived over each connection, if so much has of what was sent on the last one. -/
def connections (s : Broadcast) (arrive : ℕ) : List (List Chunk) :=
  s.arrived ++ (s.cursor.map fun _ => s.sent.take arrive).toList

/-- What the browser dispatches. -/
def messages (dumps : Json → String) (connections : List (List Chunk)) : List Message :=
  connections.flatMap fun chunks => (parse (stream dumps chunks)).messages

/-- What the browser makes of a message, unless it does not fit. -/
def read (loads : String → Option Json) (v : View Event) (message : Message) :
    Option (View Event) :=
  -- the opening bytes are a message, too
  if message.type = "message" ∨ message.type = "end" then some v
  else if message.type = "gap" then do
    let data ← loads message.data
    let resume ← (data.field? "resume_from").bind Json.int?
    v.skip Event.seq resume
  else do
    let event ← (loads message.data).bind Event.fromDict
    v.item Event.seq event

/-- The same of what is sent. -/
def hear (v : View Event) : Chunk → Option (View Event)
  | .gap page => page.oldestSeq.bind (v.skip Event.seq)
  | .event item => v.item Event.seq item
  | .finish | .heartbeat => some v

/-- **The two reads are a poll**, if nothing happens between them. -/
theorem poll_look {s : Broadcast} {cursor cursor' : EventCursor} {chunks : List Chunk}
    (hcursor : s.cursor = some cursor) (hopen : cursor.complete = false) (hasking : s.asking = false)
    (hpoll : Sse.poll cursor s.watching.sink.toDataSource = .ok (chunks, cursor')) :
    s.poll.look = { s with cursor := some cursor', sent := s.sent ++ chunks } := by
  have hread : ∀ r since limit, s.watching.sink.toDataSource.eventsSince r since limit
      = s.watching.sink.eventsSince r since limit := fun _ _ _ => rfl
  have hflow : ∀ r, s.watching.sink.toDataSource.getFlow r = s.watching.sink.getFlow r :=
    fun _ => rfl
  rw [Sse.poll, hread] at hpoll
  rw [poll, hcursor]
  dsimp only
  rw [hopen, hasking]
  cases hpage : s.watching.sink.eventsSince cursor.runId cursor.sinceSeq cursor.batchLimit with
  | error e => simp [hpage] at hpoll
  | ok page =>
    simp only [hpage, hflow] at hpoll
    split at hpoll
    · next hend =>
      obtain ⟨hempty, hfinished⟩ := Bool.and_eq_true_iff.mp hend
      obtain ⟨rfl, rfl⟩ := Prod.mk.inj (Except.ok.inj hpoll)
      simp [look, hempty, hfinished, pageChunks]
    · next hend =>
      obtain ⟨rfl, rfl⟩ := Prod.mk.inj (Except.ok.inj hpoll)
      cases hevents : page.events with
      | cons e events => simp [look, pageChunks, hopen, hevents]
      | nil =>
        have hfinished :
            EventCursor.flowFinished (s.watching.sink.getFlow cursor.runId) = false := by
          simpa [hevents] using hend
        simp [look, hfinished, pageChunks, hopen, hevents]

/-! ### What the browser is told -/

section

variable {dumps : Json → String} {loads : String → Option Json}

/-- What the browser makes of a message is what it makes of what was sent. -/
theorem read_eq_hear {chunk : Chunk} {message : Message} (htells : Tells loads chunk message)
    (v : View Event) : read loads v message = hear v chunk := by
  cases chunk with
  | gap page =>
    obtain ⟨htype, hdata⟩ := htells
    have hresume : ((EventCursor.gapFrame page).data.field? "resume_from").bind Json.int?
        = page.oldestSeq := by
      cases holdest : page.oldestSeq with
      | none => simp [EventCursor.gapFrame, holdest, Json.field?, List.lookup, Json.int?]
      | some o =>
        have hint : (o : ℚ).isInt = true := by simp [Rat.isInt]
        simp [EventCursor.gapFrame, holdest, Json.field?, List.lookup, Json.int?, hint]
    rw [read, htype, if_neg (by decide), if_pos rfl, hdata]
    show (((EventCursor.gapFrame page).data.field? "resume_from").bind Json.int?).bind _ = _
    rw [hresume]
    rfl
  | event item =>
    obtain ⟨htype, -, hdata⟩ := htells
    have hkind : ¬(item.kind.str = "message" ∨ item.kind.str = "end") ∧ item.kind.str ≠ "gap" := by
      cases item.kind <;> decide
    rw [read, htype, if_neg hkind.1, if_neg hkind.2, hdata]
    rfl
  | finish => exact if_pos (Or.inr htells)
  | heartbeat => exact htells.elim

theorem foldlM_read {chunks : List Chunk} {ms : List Message}
    (htells : List.Forall₂ (Tells loads) (told chunks) ms) (v : View Event) :
    ms.foldlM (read loads) v = chunks.foldlM hear v := by
  induction chunks generalizing ms v with
  | nil =>
    cases htells
    rfl
  | cons chunk chunks ih =>
    cases chunk with
    | heartbeat => exact ih htells v
    | gap _ | event _ | finish =>
      obtain ⟨m, ms, hm, hms, rfl⟩ := List.forall₂_cons_left_iff.mp htells
      rw [List.foldlM_cons, List.foldlM_cons, read_eq_hear hm]
      congr 1
      funext v
      exact ih hms v

/-- **What the browser makes of all messages** is what it makes of all that has arrived. -/
theorem foldlM_messages {connections : List (List Chunk)}
    (hjson : ∀ chunk ∈ connections.flatten, ∀ v ∈ chunk.value?, JsonText dumps loads v)
    (v : View Event) :
    (messages dumps connections).foldlM (read loads) v = connections.flatten.foldlM hear v := by
  induction connections generalizing v with
  | nil => rfl
  | cons chunks connections ih =>
    have hfirst : ∀ chunk ∈ chunks, ∀ v ∈ chunk.value?, JsonText dumps loads v :=
      fun chunk hchunk => hjson chunk (List.mem_append_left _ hchunk)
    have hmessages : (parse (stream dumps chunks)).messages = _ :=
      messages_parse_stream fun chunk hchunk v hv => (hfirst chunk hchunk v hv).1.2
    have hopening : ∀ w : View Event,
        read loads w { type := "message", data := "", lastEventId := "" } = some w :=
      fun w => if_pos (Or.inl rfl)
    rw [messages, List.flatMap_cons, List.foldlM_append, hmessages, List.foldlM_cons, hopening,
      Option.bind_eq_bind, Option.bind_some, foldlM_read (forall₂_tells hfirst ""),
      List.flatten_cons, List.foldlM_append]
    congr 1
    funext w
    exact ih (fun chunk hchunk => hjson chunk (List.mem_append_right _ hchunk)) w

end

/-! ### What is right about a run -/

/-- What is sent is right about a run, of which the events up to a number are lost. -/
def Sound (stored : List Event) (lost : ℤ) : Chunk → Prop
  | .gap page => ∀ o ∈ page.oldestSeq, o ≤ lost + 1
  | .event item => item ∈ stored
  | .finish | .heartbeat => True

section

variable {stored : List Event} {lost : ℤ} {v v' : View Event}

theorem Sound.mono {chunk : Chunk} (h : Sound stored lost chunk) {stored' : List Event}
    (hstored : stored ⊆ stored') {lost' : ℤ} (hlost : lost ≤ lost') :
    Sound stored' lost' chunk := by
  cases chunk with
  | gap page => exact fun o ho => (h o ho).trans (Int.add_le_add_right hlost 1)
  | event item => exact hstored h
  | finish | heartbeat => trivial

/-- What the browser hears keeps its accounts. -/
theorem accounts_hear (h : Accounts Event.seq stored lost v) {chunk : Chunk}
    (hsound : Sound stored lost chunk) (hhear : hear v chunk = some v') :
    Accounts Event.seq stored lost v' := by
  cases chunk with
  | gap page =>
    obtain ⟨o, ho, hskip⟩ := Option.bind_eq_some_iff.mp hhear
    exact h.skip (hsound o ho) hskip
  | event item => exact h.item hsound hhear
  | finish | heartbeat => exact Option.some.inj hhear ▸ h

theorem accounts_foldlM (h : Accounts Event.seq stored lost v) {chunks : List Chunk}
    (hsound : ∀ chunk ∈ chunks, Sound stored lost chunk)
    (hhear : chunks.foldlM hear v = some v') : Accounts Event.seq stored lost v' := by
  induction chunks generalizing v with
  | nil => exact Option.some.inj hhear ▸ h
  | cons chunk chunks ih =>
    rw [List.foldlM_cons] at hhear
    obtain ⟨w, hw, hrest⟩ := Option.bind_eq_some_iff.mp hhear
    exact ih (accounts_hear h (hsound chunk List.mem_cons_self) hw)
      (fun c hc => hsound c (List.mem_cons_of_mem _ hc)) hrest

/-- The browser has received the events that were sent. -/
theorem received_foldlM {chunks : List Chunk} (hhear : chunks.foldlM hear v = some v') :
    v'.received.map Event.seq = v.received.map Event.seq
      ++ (chunks.filterMap Chunk.frame?).filterMap Frame.eventId := by
  induction chunks generalizing v with
  | nil => simp [Option.some.inj hhear]
  | cons chunk chunks ih =>
    rw [List.foldlM_cons] at hhear
    obtain ⟨w, hw, hrest⟩ := Option.bind_eq_some_iff.mp hhear
    rw [ih hrest]
    cases chunk with
    | gap page =>
      obtain ⟨o, -, hskip⟩ := Option.bind_eq_some_iff.mp hw
      rw [View.skip, Option.ite_none_right_eq_some, Option.some.injEq] at hskip
      obtain ⟨-, rfl⟩ := hskip
      simp [Chunk.frame?, EventCursor.gapFrame]
    | event item =>
      rw [hear, View.item, Option.ite_none_right_eq_some, Option.some.injEq] at hw
      obtain ⟨-, rfl⟩ := hw
      simp [Chunk.frame?, EventCursor.eventFrame]
    | finish =>
      obtain rfl := Option.some.inj hw
      simp [Chunk.frame?, EventCursor.endFrame]
    | heartbeat =>
      obtain rfl := Option.some.inj hw
      rw [List.filterMap_cons_none rfl]

/-- What arrives of what fits, fits. -/
theorem exists_foldlM_of_append {chunks rest : List Chunk}
    (h : (chunks ++ rest).foldlM hear v = some v') : ∃ w, chunks.foldlM hear v = some w := by
  rw [List.foldlM_append] at h
  obtain ⟨w, hw, -⟩ := Option.bind_eq_some_iff.mp h
  exact ⟨w, hw⟩

/-- **A page fits what the browser has been told**, and brings it to where the page ends. -/
theorem exists_heard {c : ℕ} {limit : ℤ} {page : EventPage}
    (h : Accounts Event.seq stored ((stored.length - c : ℕ) : ℤ) v)
    (hpage : RetainedPage stored c (v.since Event.seq) limit page) :
    ∃ v', (pageChunks page).foldlM hear v = some v' ∧ v'.since Event.seq = page.nextSeq := by
  have hrun := hpage.events.isRun
  have hsince := h.since_le
  have hlast := h.last_eq
  have hitems : ∀ w : View Event, (page.events.map Chunk.event).foldlM hear w
      = w.items Event.seq page.events := by
    intro w
    rw [View.items, List.foldlM_map]
    rfl
  suffices hfits : ∃ gone last, (pageChunks page).foldlM hear v
      = some { received := v.received ++ page.events, gone := gone, last := last } by
    obtain ⟨gone, last, hfits⟩ := hfits
    refine ⟨_, hfits, ?_⟩
    rw [hpage.nextSeq, View.since, List.getLast?_append]
    cases page.events.getLast? <;> rfl
  rw [pageChunks]
  by_cases htruncated : page.truncated = true
  · -- the numbers up to the oldest event retained are skipped
    have hlost := hpage.truncated.mp htruncated
    obtain ⟨o, ho⟩ := hpage.exists_oldestSeq htruncated
    have heq := hpage.oldestSeq o ho
    have hgap : hear v (.gap page)
        = some { v with gone := v.gone ++ View.between v.last o, last := o - 1 } := by
      rw [hear, ho]
      exact if_pos ⟨by omega, by omega⟩
    rw [max_eq_right (by omega), ← heq] at hrun
    have hfits := @View.items_eq_some Event Event.seq
      { v with gone := v.gone ++ View.between v.last o, last := o - 1 } page.events
      (by rwa [Int.sub_add_cancel])
    refine ⟨_, _, Eq.trans ?_ hfits⟩
    rw [if_pos htruncated, List.singleton_append, List.foldlM_cons, hgap, ← hitems]
    rfl
  · have hlost : ¬v.since Event.seq < ((stored.length - c : ℕ) : ℤ) :=
      fun hlt => htruncated (hpage.truncated.mpr hlt)
    have heq : v.last = v.since Event.seq := by omega
    rw [max_eq_left (by omega), ← heq] at hrun
    refine ⟨_, _, Eq.trans ?_ (View.items_eq_some hrun)⟩
    rw [if_neg htruncated, List.nil_append, hitems]

/-- And it is right. -/
theorem sound_pageChunks {c : ℕ} {since limit : ℤ} {page : EventPage}
    (hpage : RetainedPage stored c since limit page) :
    ∀ chunk ∈ pageChunks page, Sound stored ((stored.length - c : ℕ) : ℤ) chunk := by
  intro chunk hchunk
  rcases List.mem_append.mp hchunk with hgap | hevent
  · obtain ⟨-, rfl⟩ : page.truncated = true ∧ chunk = .gap page := by simpa using hgap
    exact fun o ho => (hpage.oldestSeq o ho).le
  · obtain ⟨e, he, rfl⟩ := List.mem_map.mp hevent
    exact List.mem_of_mem_drop (hpage.events.mem he)

end

/-! ### Coming back -/

/-- **A stream resumes after the last event that was received.** -/
theorem resumePoint_request (s : Reconnecting.Session) (runId : String)
    (query : Dict String (List String)) (headers : Dict String String) :
    MeterService.resumePoint (s.request runId query headers)
      = .ok ((s.received.filterMap Frame.eventId).getLast?.getD 0) := by
  have hquery : (s.request runId query headers).get "since_seq" = none := by
    refine MeterRequest.get_of_none ?_
    show (query.erase "since_seq").get? "since_seq" = none
    rw [Dict.get?_erase, if_pos rfl]
  cases hlast : (s.received.filterMap Frame.eventId).getLast? with
  | none =>
    refine MeterService.resumePoint_of_none hquery ?_
    rw [Reconnecting.Session.request, Reconnecting.Session.lastEventId, hlast]
    show (headers.erase "last-event-id").get? "last-event-id" = none
    rw [Dict.get?_erase, if_pos rfl]
  | some n =>
    refine MeterService.resumePoint_of_header hquery ?_ rfl
    rw [Reconnecting.Session.request, Reconnecting.Session.lastEventId, hlast]
    exact Dict.get?_set_self _ _ _

/-! ### Runs -/

/-- The events of the run that were written. -/
def stored (s : Broadcast) (runId : String) : List Event := ofRun runId s.watching.applied

/-- Everything that has been sent and may have arrived. -/
def told (s : Broadcast) : List Chunk := s.arrived.flatten ++ s.sent

/-- What is known of the run and of the history, which keeps its last `c` events. -/
structure Holds (c : ℕ) (runId : String) (s : Broadcast) : Prop where
  isRun : IsRun 1 ((s.stored runId).map Event.seq)
  held : s.watching.sink.held runId = (s.stored runId).rtake c

theorem Holds.of_watching {c : ℕ} {runId : String} {s s' : Broadcast} (h : Holds c runId s)
    (heq : s'.watching = s.watching) : Holds c runId s' := by
  refine ⟨?_, ?_⟩
  · rw [stored, heq]
    exact h.isRun
  · rw [stored, heq]
    exact h.held

/-- Whatever was sent is right and fits, and the server knows where the browser is. -/
structure Fits (c : ℕ) (runId : String) (s : Broadcast) : Prop where
  sound : ∀ chunk ∈ s.told,
    Sound (s.stored runId) (((s.stored runId).length - c : ℕ) : ℤ) chunk
  heard : ∃ v, s.told.foldlM hear {} = some v
    ∧ ∀ cursor ∈ s.cursor, cursor.runId = runId ∧ cursor.sinceSeq = v.since Event.seq
  idle : s.cursor = none → s.sent = []

section

variable {c : ℕ} {runId : String} {s : Broadcast}

theorem Fits.accounts (h : Fits c runId s) {v : View Event} (hv : s.told.foldlM hear {} = some v) :
    Accounts Event.seq (s.stored runId) (((s.stored runId).length - c : ℕ) : ℤ) v :=
  accounts_foldlM (.new _ _) h.sound hv

/-- Something is written, perhaps. -/
theorem Fits.watch (h : Fits c runId s) (m : Watching.Move) :
    Fits c runId { s with watching := s.watching.step runId m } := by
  obtain ⟨more, hmore⟩ : ∃ more, (s.watching.step runId m).applied = s.watching.applied ++ more := by
    cases m with
    | poll content =>
      rw [Watching.step]
      cases s.watching.pass <;> exact ⟨[], (List.append_nil _).symm⟩
    | work =>
      obtain ⟨-, ⟨-, heq⟩ | ⟨batch, -, heq⟩⟩ := s.watching.work_feeds
      · exact ⟨[], heq.trans (List.append_nil _).symm⟩
      · exact ⟨batch, heq⟩
    | call limit => exact ⟨[], (List.append_nil _).symm⟩
  refine ⟨fun chunk hchunk => (h.sound chunk hchunk).mono ?_ ?_, h.heard, h.idle⟩
  · rw [stored, stored, hmore, ofRun_append]
    exact List.subset_append_left _ _
  · rw [stored, stored, hmore, ofRun_append, List.length_append]
    omega

theorem Fits.hangUp (h : Fits c runId s) (arrive : ℕ) : Fits c runId (s.hangUp arrive) := by
  rw [Broadcast.hangUp]
  cases hcursor : s.cursor with
  | none => exact h
  | some cursor =>
    have htold : s.told = s.arrived.flatten ++ s.sent.take arrive ++ s.sent.drop arrive := by
      rw [told, List.append_assoc, List.take_append_drop]
    obtain ⟨v, hv, -⟩ := h.heard
    rw [htold] at hv
    obtain ⟨w, hw⟩ := exists_foldlM_of_append hv
    refine ⟨fun chunk hchunk => h.sound chunk ?_, ⟨w, ?_, nofun⟩, fun _ => rfl⟩
    · rw [htold]
      refine List.mem_append_left _ ?_
      simpa [told] using hchunk
    · simpa [told] using hw

theorem Fits.connect (source : DataSource) (maxLimit : ℤ) (h : Fits c runId s)
    (query : Dict String (List String)) (headers : Dict String String) :
    Fits c runId (s.connect source maxLimit runId query headers) := by
  rw [Broadcast.connect]
  cases hcursor : s.cursor with
  | some cursor => exact h
  | none =>
    dsimp only
    split
    · next cursor hstream =>
      have hparam : (s.session.request runId query headers).param "run_id" = .ok runId := rfl
      obtain ⟨-, -, since, limit, hsince, -, rfl⟩ :=
        (MeterService.stream_eq_ok_iff hparam).mp hstream
      rw [resumePoint_request, Except.ok.injEq] at hsince
      obtain ⟨v, hv, -⟩ := h.heard
      refine ⟨h.sound, ⟨v, hv, ?_⟩, nofun⟩
      rintro cursor ⟨⟩
      refine ⟨rfl, ?_⟩
      have hreceived := received_foldlM hv
      rw [told, h.idle hcursor, List.append_nil] at hreceived
      dsimp only
      rw [← hsince, View.since, ← List.getLast?_map, hreceived]
      rfl
    · exact h

/-- What is sent fits. -/
theorem Fits.send (h : Fits c runId s) {cursor cursor' : EventCursor} (hcursor : s.cursor = some cursor)
    {chunks : List Chunk}
    (hsound : ∀ chunk ∈ chunks,
      Sound (s.stored runId) (((s.stored runId).length - c : ℕ) : ℤ) chunk)
    (hheard : ∀ v, Accounts Event.seq (s.stored runId) (((s.stored runId).length - c : ℕ) : ℤ) v →
      cursor.sinceSeq = v.since Event.seq →
      ∃ v', chunks.foldlM hear v = some v' ∧ cursor'.sinceSeq = v'.since Event.seq)
    (hrunId : cursor'.runId = cursor.runId) (asking : Bool) :
    Fits c runId { s with cursor := some cursor', sent := s.sent ++ chunks, asking := asking } := by
  obtain ⟨v, hv, hat⟩ := h.heard
  obtain ⟨v', hv', hsince⟩ := hheard v (h.accounts hv) (hat cursor hcursor).2
  refine ⟨?_, ⟨v', ?_, ?_⟩, nofun⟩
  · intro chunk hchunk
    rw [told, ← List.append_assoc] at hchunk
    rcases List.mem_append.mp hchunk with hchunk | hchunk
    · exact h.sound chunk hchunk
    · exact hsound chunk hchunk
  · rw [told, ← List.append_assoc, List.foldlM_append]
    exact Option.bind_eq_some_iff.mpr ⟨v, hv, hv'⟩
  · rintro cursor ⟨⟩
    exact ⟨hrunId.trans (hat _ hcursor).1, hsince⟩

theorem Fits.poll (h : Fits c runId s) (hholds : Holds c runId s) (hc : 1 ≤ c) :
    Fits c runId s.poll := by
  rw [Broadcast.poll]
  cases hcursor : s.cursor with
  | none => exact h
  | some cursor =>
    dsimp only
    split
    · exact h
    · by_cases hlimit : 1 ≤ cursor.batchLimit
      · obtain ⟨v, hv, hat⟩ := h.heard
        obtain ⟨rfl, hsince⟩ := hat cursor hcursor
        have hpage := retainedPage_eventPage hholds.isRun hc (h.accounts hv).since_nonneg hlimit
        have hevents := s.watching.sink.eventsSince_eq cursor.runId cursor.sinceSeq hlimit
        rw [← hsince] at hpage
        rw [hholds.held] at hevents
        rw [hevents]
        refine h.send hcursor (sound_pageChunks hpage) ?_ ?_ _
        · intro w hw heq
          rw [heq] at hpage ⊢
          obtain ⟨w', hw', hnext⟩ := exists_heard hw hpage
          exact ⟨w', hw', hnext.symm⟩
        · rfl
      · obtain ⟨message, hmessage⟩ :=
          Reconnecting.poll_of_lt s.watching.sink (not_le.mp hlimit) fun _ => none
        rw [EventCursor.poll] at hmessage
        cases hevents : s.watching.sink.eventsSince cursor.runId cursor.sinceSeq
            cursor.batchLimit with
        | error e => exact h.hangUp _
        | ok page =>
          rw [hevents] at hmessage
          dsimp only at hmessage
          split at hmessage <;> cases hmessage

theorem Fits.look (h : Fits c runId s) : Fits c runId s.look := by
  rw [Broadcast.look]
  cases hcursor : s.cursor with
  | none => exact h
  | some cursor =>
    dsimp only
    split
    · split
      · refine h.send hcursor ?_ ?_ ?_ false
        · intro chunk hchunk
          rw [List.mem_singleton.mp hchunk]
          trivial
        · exact fun v _ heq => ⟨v, rfl, heq⟩
        · rfl
      · rw [← hcursor]
        exact ⟨h.sound, h.heard, h.idle⟩
    · exact h

theorem Fits.heartbeat (h : Fits c runId s) : Fits c runId s.heartbeat := by
  rw [Broadcast.heartbeat]
  cases hcursor : s.cursor with
  | none => exact h
  | some cursor =>
    dsimp only
    split
    · exact h
    · refine h.send hcursor ?_ ?_ rfl s.asking
      · intro chunk hchunk
        rw [List.mem_singleton.mp hchunk]
        trivial
      · exact fun v _ heq => ⟨v, rfl, heq⟩

theorem Fits.step (source : DataSource) (maxLimit : ℤ) (h : Fits c runId s)
    (hholds : Holds c runId s) (hc : 1 ≤ c) (st : Step) :
    Fits c runId (s.step source maxLimit runId st) := by
  cases st with
  | watch m => exact h.watch m
  | hangUp arrive => exact h.hangUp arrive
  | connect query headers => exact h.connect source maxLimit query headers
  | poll => exact h.poll hholds hc
  | look => exact h.look
  | heartbeat => exact h.heartbeat

end

/-! ### A connection that is left alone -/

section

variable {c : ℕ} {runId : String} {s : Broadcast} {cursor : EventCursor}

/-- The browser is not ahead of the run. -/
theorem since_le_length {stored : List Event} {lost : ℤ} {v : View Event}
    (h : Accounts Event.seq stored lost v) (hrun : IsRun 1 (stored.map Event.seq)) :
    v.since Event.seq ≤ stored.length := by
  rw [View.since]
  cases hlast : v.received.getLast? with
  | none => simp
  | some e =>
    have hseq := (hasSeq_iff_of_isRun hrun e.seq).mp ⟨e, h.mem e (List.mem_of_getLast? hlast), rfl⟩
    simp only [Option.map_some, Option.getD_some]
    omega

/-- Reading the flow moves nothing, and ends the stream or makes way for the next poll. -/
theorem look_cases (hcursor : s.cursor = some cursor) :
    s.look.watching = s.watching
      ∧ ((∃ cursor', s.look.cursor = some cursor' ∧ cursor'.complete = true)
        ∨ s.look.cursor = some cursor ∧ s.look.asking = false) := by
  rw [Broadcast.look, hcursor]
  dsimp only
  split
  · split
    · exact ⟨rfl, Or.inl ⟨_, rfl, rfl⟩⟩
    · exact ⟨rfl, Or.inr ⟨rfl, rfl⟩⟩
  · next hasking => exact ⟨rfl, Or.inr ⟨hcursor, by simpa using hasking⟩⟩

/-- **A poll brings the browser on**, unless it has everything. -/
theorem Fits.poll_lt (h : Fits c runId s) (hholds : Holds c runId s) (hc : 1 ≤ c)
    (hcursor : s.cursor = some cursor) (hopen : cursor.complete = false)
    (hasking : s.asking = false) (hlimit : 1 ≤ cursor.batchLimit)
    (hbehind : cursor.sinceSeq ≠ (s.stored runId).length) :
    s.poll.watching = s.watching ∧ ∃ cursor', s.poll.cursor = some cursor'
      ∧ cursor'.batchLimit = cursor.batchLimit ∧ cursor.sinceSeq < cursor'.sinceSeq
      ∧ cursor.sinceSeq < (s.stored runId).length := by
  obtain ⟨v, hv, hat⟩ := h.heard
  obtain ⟨rfl, hsince⟩ := hat cursor hcursor
  have haccounts := h.accounts hv
  have hhigh := since_le_length haccounts hholds.isRun
  have hevents := s.watching.sink.eventsSince_eq cursor.runId cursor.sinceSeq hlimit
  have hpage := retainedPage_eventPage hholds.isRun hc haccounts.since_nonneg hlimit
  rw [← hsince] at hpage hhigh
  rw [hholds.held] at hevents
  have hne := (hpage.eq_nil_iff hholds.isRun hc (hsince ▸ haccounts.since_nonneg) hhigh
    hlimit).not.mpr hbehind
  rw [Broadcast.poll, hcursor]
  dsimp only
  rw [hopen, hasking, hevents]
  refine ⟨rfl, _, rfl, rfl, ?_, by omega⟩
  -- the page ends after its first event, which comes after the position
  show cursor.sinceSeq < EventPage.nextSeq _
  rw [hpage.nextSeq, List.getLast?_eq_some_getLast hne]
  have hle := hpage.events.le_seq (List.getLast_mem hne)
  simp only [Option.map_some, Option.getD_some]
  omega

/-- **A connection that is left alone gets to the end**, or is ended. -/
theorem Fits.exists_caught_up (source : DataSource) (maxLimit : ℤ) (h : Fits c runId s)
    (hholds : Holds c runId s) (hc : 1 ≤ c) (hcursor : s.cursor = some cursor)
    (hlimit : 1 ≤ cursor.batchLimit) :
    ∃ k cursor', (run (Broadcast.step source maxLimit runId) s
        (List.replicate k [Step.look, Step.poll]).flatten).cursor = some cursor'
      ∧ (cursor'.complete = true ∨ cursor'.sinceSeq = (s.stored runId).length) := by
  induction hleft : ((s.stored runId).length - cursor.sinceSeq).toNat using Nat.strong_induction_on
    generalizing s cursor with
  | _ n ih =>
    by_cases hend : cursor.complete = true ∨ cursor.sinceSeq = (s.stored runId).length
    · exact ⟨0, cursor, hcursor, hend⟩
    · obtain ⟨hopen, hbehind⟩ := not_or.mp hend
      obtain ⟨hwatching, ⟨cursor', hcursor', hcomplete⟩ | ⟨hcursor', hasking⟩⟩ := look_cases hcursor
      · -- the poll after the end does nothing
        refine ⟨1, cursor', ?_, Or.inl hcomplete⟩
        show s.look.poll.cursor = some cursor'
        rw [Broadcast.poll, hcursor']
        dsimp only
        rw [hcomplete, Bool.true_or, if_pos rfl]
        exact hcursor'
      · have hlook : Holds c runId s.look := hholds.of_watching hwatching
        have hstored : s.look.stored runId = s.stored runId := by rw [stored, hwatching]; rfl
        rw [← hstored] at hbehind
        obtain ⟨hwatching', cursor'', hcursor'', hlimit'', hlt, hless⟩ :=
          h.look.poll_lt hlook hc hcursor' (by simpa using hopen) hasking hlimit hbehind
        have hstored' : s.look.poll.stored runId = s.stored runId := by
          rw [stored, hwatching', hwatching]
          rfl
        rw [hstored] at hless
        rw [← hlimit''] at hlimit
        obtain ⟨k, last, hlast, hdone⟩ := ih _ (by rw [hstored']; omega) (h.look.poll hlook hc)
          (hlook.of_watching hwatching') hcursor'' hlimit rfl
        refine ⟨k + 1, last, ?_, hstored' ▸ hdone⟩
        rw [List.replicate_succ, List.flatten_cons]
        exact hlast

end

/-! ### The whole run -/

section

variable {c : ℕ} {store : MemoryDataSource} (source : DataSource) (maxLimit : ℤ) (runId : String)
  (steps : List Step)

/-- The poller does what it does without a browser. -/
theorem exists_watching_run (w : Watching) :
    ∃ moves, (run (step source maxLimit runId) { watching := w } steps).watching
      = run (Watching.step runId) w moves := by
  induction steps using List.reverseRecOn with
  | nil => exact ⟨[], rfl⟩
  | append_singleton steps st ih =>
    obtain ⟨moves, hmoves⟩ := ih
    rw [run_concat]
    generalize run (step source maxLimit runId) { watching := w } steps = s at hmoves ⊢
    have hhangUp : ∀ arrive, (s.hangUp arrive).watching = s.watching := by
      intro arrive
      rw [hangUp]
      split <;> rfl
    cases st with
    | watch m =>
      refine ⟨moves ++ [m], ?_⟩
      rw [run_concat, ← hmoves]
      rfl
    | hangUp arrive => exact ⟨moves, (hhangUp arrive).trans hmoves⟩
    | connect query headers =>
      refine ⟨moves, Eq.trans ?_ hmoves⟩
      rw [step, connect]
      repeat' split
      all_goals rfl
    | poll =>
      refine ⟨moves, Eq.trans ?_ hmoves⟩
      rw [step, poll]
      repeat' split
      all_goals first | rfl | exact hhangUp _
    | look =>
      refine ⟨moves, Eq.trans ?_ hmoves⟩
      rw [step, look]
      repeat' split
      all_goals rfl
    | heartbeat =>
      refine ⟨moves, Eq.trans ?_ hmoves⟩
      rw [step, heartbeat]
      repeat' split
      all_goals rfl

theorem holds_run (hstore : MemoryDataSource.init c = .ok store) :
    Holds c runId
      (run (step source maxLimit runId) { watching := { sink := .memory store } } steps) := by
  obtain ⟨moves, hmoves⟩ :=
    exists_watching_run source maxLimit runId steps { sink := .memory store }
  refine ⟨?_, ?_⟩
  · rw [stored, hmoves]
    exact (Watching.counted_run (.memory store) runId moves).isRun_applied runId
  · rw [stored, hmoves]
    exact Watching.held_run hstore runId moves runId

theorem fits_run (hstore : MemoryDataSource.init c = .ok store) :
    Fits c runId
      (run (step source maxLimit runId) { watching := { sink := .memory store } } steps) := by
  induction steps using List.reverseRecOn with
  | nil => exact ⟨List.forall_mem_nil _, ⟨{}, rfl, nofun⟩, fun _ => rfl⟩
  | append_singleton steps st ih =>
    rw [run_concat]
    exact ih.step source maxLimit (holds_run source maxLimit runId steps hstore)
      (MemoryDataSource.init_eq_ok hstore).1 st

end

theorem told_eq (s : Broadcast) (h : s.cursor = none → s.sent = []) (arrive : ℕ) :
    ∃ rest, s.told = (s.connections arrive).flatten ++ rest
      ∧ (s.sent.length ≤ arrive → rest = []) := by
  rw [told, connections]
  cases hcursor : s.cursor with
  | none => exact ⟨[], by simp [h hcursor], fun _ => rfl⟩
  | some cursor =>
    refine ⟨s.sent.drop arrive, ?_, fun hle => List.drop_eq_nil_of_le hle⟩
    simp [List.append_assoc]

/-- **Over all connections the browser is told of every number once**, wherever they break.  No
message fits badly; the events that it has are events of the run, in order; what it was told is gone
has been evicted; and so it has each event that is still held, up to where it is.  And a connection
that is left alone gets to the end of the run, unless the server ends it. -/
theorem browser_accounts {c : ℕ} {store : MemoryDataSource}
    (hstore : MemoryDataSource.init c = .ok store) (source : DataSource) (maxLimit : ℤ)
    (runId : String) (steps : List Step) :
    let s := run (step source maxLimit runId) { watching := { sink := .memory store } } steps
    (∀ arrive dumps loads,
      (∀ chunk ∈ (s.connections arrive).flatten, ∀ v ∈ chunk.value?, JsonText dumps loads v) →
      ∃ v, (messages dumps (s.connections arrive)).foldlM (read loads) {} = some v
        ∧ Accounts Event.seq (s.stored runId) (((s.stored runId).length - c : ℕ) : ℤ) v
        ∧ (∀ e ∈ s.watching.sink.held runId,
          e.seq ∉ v.gone ∧ (e.seq ≤ v.last → e ∈ v.received))
        ∧ (s.sent.length ≤ arrive → ∀ cursor ∈ s.cursor, cursor.sinceSeq = v.since Event.seq))
      ∧ ∀ cursor ∈ s.cursor, 1 ≤ cursor.batchLimit →
        ∃ k, ∃ cursor' ∈ (run (step source maxLimit runId) s
            (List.replicate k [Step.look, Step.poll]).flatten).cursor,
          cursor'.complete = true ∨ cursor'.sinceSeq = (s.stored runId).length := by
  intro s
  have hfits : Fits c runId s := fits_run source maxLimit runId steps hstore
  have hholds : Holds c runId s := holds_run source maxLimit runId steps hstore
  have hc := (MemoryDataSource.init_eq_ok hstore).1
  refine ⟨fun arrive dumps loads hjson => ?_, fun cursor hcursor hlimit => ?_⟩
  · obtain ⟨v, hv, hat⟩ := hfits.heard
    obtain ⟨rest, htold, hall⟩ := told_eq s hfits.idle arrive
    have hsound := hfits.sound
    -- what has arrived is a beginning of what was told, and a beginning fits as the whole does
    rw [htold] at hv hsound
    obtain ⟨w, hw⟩ := exists_foldlM_of_append hv
    have haccounts := accounts_foldlM (.new _ _)
      (fun chunk hchunk => hsound chunk (List.mem_append_left _ hchunk)) hw
    refine ⟨w, (foldlM_messages hjson {}).trans hw, haccounts, ?_, ?_⟩
    -- what is held are the last events, and what was announced as gone comes before them
    · intro e he
      rw [hholds.held] at he
      have hseq := (hasSeq_iff_of_isRun (isRun_rtake hholds.isRun c) e.seq).mp ⟨e, he, rfl⟩
      refine ⟨fun hgone => ?_, fun hle => ?_⟩
      · have hlost := haccounts.gone_le e.seq hgone
        omega
      · exact haccounts.mem_received (nodup hholds.isRun) (List.mem_of_mem_drop he) (by omega)
          (by omega) hle
    · intro hlength cursor hcursor
      rw [hall hlength, List.append_nil, hw] at hv
      rw [Option.some.inj hv]
      exact (hat cursor hcursor).2
  · obtain ⟨k, cursor', hcursor', hdone⟩ :=
      hfits.exists_caught_up source maxLimit hholds hc hcursor hlimit
    exact ⟨k, cursor', hcursor', hdone⟩

/-- A flow without atoms. -/
def noAtoms (state : String) : FlowSnapshot where
  runId := "run-1"
  state := some state

/-- The first event does not arrive, and is evicted before the browser comes back. -/
def evictedBetween : List Step :=
  [.watch (.poll [noAtoms "RUNNING"]), .watch .work, .watch .work, .watch .work, .connect ∅ ∅, .poll,
    .hangUp 0, .watch (.poll [noAtoms "SUCCESS"]), .watch .work, .watch .work, .connect ∅ ∅, .poll]

def gapValue : Json := .obj [("reason", .str "events_evicted"), ("resume_from", .num 2)]

/-- What `json.dumps` makes of it. -/
def gapText : String := "\x7b\"reason\":\"events_evicted\",\"resume_from\":2\x7d"

def succeeded : Event :=
  { runId := "run-1"
    seq := 2
    ts := 0
    kind := .flowState
    state := some "SUCCESS"
    oldState := some "RUNNING" }

def succeededText : String :=
  "\x7b\"run_id\":\"run-1\",\"seq\":2,\"ts\":0.0,\"kind\":\"flow_state\",\"book_id\":null,"
    ++ "\"atom_name\":null,\"atom_uuid\":null,\"atom_type\":null,\"state\":\"SUCCESS\","
    ++ "\"old_state\":\"RUNNING\",\"intention\":null,\"progress\":null,\"details\":\x7b\x7d\x7d"

/-- The browser is told that it has missed an event, and is given the next. -/
theorem browser_accounts_evictedBetween :
    let s := run (step (WritableDataSource.memory {}).toDataSource MAX_LIMIT "run-1")
      { watching := { sink := .memory { maxEventsPerRun := 1 } } } evictedBetween
    ∃ v, (messages (fun v => if v = gapValue then gapText else succeededText)
        (s.connections 2)).foldlM
          (read fun text => some (if text = gapText then gapValue else .obj succeeded.toDict)) {}
        = some v
      ∧ Accounts Event.seq (s.stored "run-1") 1 v ∧ v.since Event.seq = 2 := by
  intro s
  have hstore : MemoryDataSource.init 1 = .ok { maxEventsPerRun := 1 } := rfl
  have hvalues : (s.connections 2).flatten.filterMap Chunk.value?
      = [gapValue, .obj succeeded.toDict] := by decide
  have hat : s.cursor.map EventCursor.sinceSeq = some 2 := by decide
  obtain ⟨v, hv, haccounts, -, hsince⟩ :=
    (browser_accounts hstore (WritableDataSource.memory {}).toDataSource MAX_LIMIT "run-1"
      evictedBetween).1 2 (fun v => if v = gapValue then gapText else succeededText)
      (fun text => some (if text = gapText then gapValue else .obj succeeded.toDict)) (by
        intro chunk hchunk v hv
        have hmem : v ∈ [gapValue, .obj succeeded.toDict] :=
          hvalues ▸ List.mem_filterMap.mpr ⟨chunk, hchunk, hv⟩
        simp only [List.mem_cons, List.not_mem_nil, or_false] at hmem
        rcases hmem with rfl | rfl
        · exact ⟨⟨by decide, by decide⟩, by decide⟩
        · exact ⟨⟨by decide +kernel, by decide +kernel⟩, by decide +kernel⟩)
  obtain ⟨cursor, hcursor, htwo⟩ := Option.map_eq_some_iff.mp hat
  have hlost : (((s.stored "run-1").length - 1 : ℕ) : ℤ) = 1 := by decide
  exact ⟨v, hv, hlost ▸ haccounts, (hsince (by decide) cursor hcursor).symm.trans htwo⟩

end Broadcast

end TaskflowMeter
