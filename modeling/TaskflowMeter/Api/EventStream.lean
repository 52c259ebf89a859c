import TaskflowMeter.Api.Service
import TaskflowMeter.Lib.EventStream
import TaskflowMeter.Transports.Base

/-!
# Server-sent events: the bytes of a stream

Frames as text, and what a client makes of a whole response.  `dumps` and `loads` stand for the
two directions of JSON.

## Main definitions

* `Sse.frame`, `Sse.comment` — the framing.
* `Sse.Chunk` — what is sent after the opening bytes.
* `Sse.iterFrames` — the loop that drives a cursor.
* `RawEvent.typed?`, `Event.fromDict` — an event from its JSON object.
* `Sse.Tells` — a message tells what was sent.

## Main results

* `Event.fromDict_toDict` — an event reads back.
* `read_frame` — a frame is one message, whatever its data.
* `opening_dispatched` — **a client dispatches a message of its own for the opening bytes, and then
  one for each event, gap and end.**
-/

namespace TaskflowMeter

open EventStream

/-! ### Reading an event back -/

def Json.int? : Json → Option ℤ
  | .num q => if q.isInt then some q.num else none
  | _ => none

def Json.optNum? : Json → Option (Option ℚ)
  | .null => some none
  | .num q => some (some q)
  | _ => none

/-- The event that has these fields, if they are what they are annotated as. -/
def RawEvent.typed? (event : RawEvent) : Option Event := do
  let runId ← event.runId.str?
  let seq ← event.seq.int?
  let ts ← event.ts.num?
  let bookId ← event.bookId.optStr?
  let atomName ← event.atomName.optStr?
  let atomUuid ← event.atomUuid.optStr?
  let atomType ← event.atomType.optStr?
  let state ← event.state.optStr?
  let oldState ← event.oldState.optStr?
  let intention ← event.intention.optStr?
  let progress ← event.progress.optNum?
  let details ← event.details.toDict?
  return {
    runId, seq, ts, kind := event.kind, bookId, atomName, atomUuid, atomType, state, oldState
    intention, progress, details }

/-- `Event.from_dict`, where every field is what it is annotated as. -/
def Event.fromDict (data : Json) : Option Event :=
  (RawEvent.fromDict data).toOption.bind RawEvent.typed?

/-- An event is one of its own fields. -/
theorem RawEvent.typed?_raw (event : Event) : event.raw.typed? = some event := by
  have hseq : Json.int? (.num event.seq) = some event.seq := by
    have hint : (event.seq : ℚ).isInt = true := by simp [Rat.isInt]
    rw [Json.int?, if_pos hint, Rat.num_intCast]
  have hprogress : ((event.progress.map Json.num).getD .null).optNum? = some event.progress := by
    cases event.progress <;> rfl
  have hdetails : Json.toDict? (.obj event.details.entries) = some event.details := by
    rw [Json.toDict?, dif_pos event.details.nodup_keys]
  rw [typed?, Event.raw]
  simp only [Json.str?, hseq, Json.num?, Json.optStr?_ofOption, hprogress, hdetails,
    Option.bind_eq_bind, Option.bind_some]
  rfl

/-- **An event reads back.** -/
theorem Event.fromDict_toDict (event : Event) : fromDict (.obj event.toDict) = some event := by
  rw [fromDict, ← Event.toDict_raw, RawEvent.fromDict_toDict]
  exact RawEvent.typed?_raw event

namespace Sse

/-! ### Framing -/

def DEFAULT_RETRY_MS : ℕ := 3000

def frameText (data : String) (event eventId : Option String) (retry : Option ℕ) : List Char :=
  let lines := (event.map fun e => "event: ".toList ++ e.toList).toList
    ++ (eventId.map fun i => "id: ".toList ++ i.toList).toList
    ++ (retry.map fun n => "retry: ".toList ++ (toString n).toList).toList
    ++ (data.toList.splitOn '\n').map fun line => "data: ".toList ++ line
  ['\n'].intercalate lines ++ ['\n', '\n']

/-- Render one SSE frame. -/
def frame (data : String) (event eventId : Option String) (retry : Option ℕ) : List UInt8 :=
  Utf8.encode (frameText data event eventId retry)

/-- A frame clients ignore, used to keep the connection alive. -/
def comment (text : String) : List UInt8 := Utf8.encode (": ".toList ++ text.toList ++ ['\n', '\n'])

/-- What a cursor sends after the opening bytes. -/
inductive Chunk where
  | gap (page : EventPage)
  | event (item : Event)
  | finish
  | heartbeat

/-- The first bytes on the wire. -/
def opening : List UInt8 :=
  frame "" none none (some DEFAULT_RETRY_MS) ++ comment "stream open"

def heartbeat : List UInt8 := comment "keep-alive"

def Chunk.bytes (dumps : Json → String) : Chunk → List UInt8
  | gap page => frame (dumps (EventCursor.gapFrame page).data) (some "gap") none none
  | event item =>
      frame (dumps (EventCursor.eventFrame item).data) (some item.kind.str)
        (some (toString item.seq))
        none
  | finish => frame "\x7b\x7d" (some "end") none none
  | heartbeat => Sse.heartbeat

/-- The frame that is sent. -/
def Chunk.frame? : Chunk → Option Frame
  | gap page => some (EventCursor.gapFrame page)
  | event item => some (EventCursor.eventFrame item)
  | finish => some EventCursor.endFrame
  | heartbeat => none

/-- What a poll sends, and the cursor after it. -/
def poll (cursor : EventCursor) (reader : DataSource) : Except String (List Chunk × EventCursor) :=
  match reader.eventsSince cursor.runId cursor.sinceSeq cursor.batchLimit with
  | .error e => .error e
  | .ok page =>
      let chunks := (if page.truncated then [.gap page] else []) ++ page.events.map .event
      let cursor := { cursor with sinceSeq := page.nextSeq }
      if page.events.isEmpty && EventCursor.flowFinished (reader.getFlow cursor.runId) then
        .ok (chunks ++ [.finish], { cursor with complete := true })
      else .ok (chunks, cursor)

/-- What is sent over polls of a datasource, as it is at each. -/
def drive (interval heartbeat : ℚ) : ℚ → EventCursor → List DataSource → List Chunk
  | _, _, [] => []
  | quiet, cursor, reader :: readers =>
      match poll cursor reader with
      | .error _ => []
      | .ok (chunks, cursor) =>
          if cursor.complete then chunks
          else
            let quiet := if chunks.isEmpty then quiet + interval else 0
            if heartbeat ≤ quiet then
              chunks ++ .heartbeat :: drive interval heartbeat 0 cursor readers
            else chunks ++ drive interval heartbeat quiet cursor readers

/-- Drive a cursor. -/
def iterFrames (dumps : Json → String) (interval heartbeat : ℚ) (cursor : EventCursor)
    (readers : List DataSource) : List (List UInt8) :=
  opening :: (drive interval heartbeat 0 cursor readers).map (Chunk.bytes dumps)

/-- The bytes of a response. -/
def stream (dumps : Json → String) (chunks : List Chunk) : List UInt8 :=
  opening ++ chunks.flatMap (Chunk.bytes dumps)

/-- The bytes of a driven cursor are those of a response. -/
theorem flatten_iterFrames (dumps : Json → String) (interval heartbeat : ℚ) (cursor : EventCursor)
    (readers : List DataSource) :
    (iterFrames dumps interval heartbeat cursor readers).flatten
      = stream dumps (drive interval heartbeat 0 cursor readers) := rfl

/-- The frames of a poll are those of the cursor. -/
theorem poll_frames (cursor : EventCursor) (reader : DataSource) :
    cursor.poll reader.eventsSince reader.getFlow
      = (poll cursor reader).map fun sent => (sent.1.filterMap Chunk.frame?, sent.2) := by
  rw [EventCursor.poll, poll]
  cases reader.eventsSince cursor.runId cursor.sinceSeq cursor.batchLimit with
  | error e => rfl
  | ok page =>
    have hdrain : (cursor.drain page).1
        = ((if page.truncated then [Chunk.gap page] else [])
          ++ page.events.map Chunk.event).filterMap Chunk.frame? := by
      have hevents : page.events.filterMap (Chunk.frame? ∘ Chunk.event)
          = page.events.map EventCursor.eventFrame :=
        congrFun (List.filterMap_eq_map (f := EventCursor.eventFrame)) _
      rw [EventCursor.drain, List.filterMap_append, List.filterMap_map, hevents]
      cases page.truncated <;> rfl
    have hcursor : (cursor.drain page).2 = { cursor with sinceSeq := page.nextSeq } := rfl
    dsimp only
    rw [hdrain, hcursor, EventCursor.close]
    generalize (if page.truncated then [Chunk.gap page] else [])
      ++ page.events.map Chunk.event = chunks at hdrain ⊢
    cases page.events.isEmpty with
    | false => exact congrArg Except.ok (Prod.ext hdrain hcursor)
    | true =>
      cases EventCursor.flowFinished (reader.getFlow cursor.runId) with
      | false => exact congrArg (fun frames => Except.ok (frames, _)) (List.append_nil _)
      | true =>
        have hfinish : (chunks ++ [Chunk.finish]).filterMap Chunk.frame?
            = chunks.filterMap Chunk.frame? ++ [EventCursor.endFrame] := List.filterMap_append
        exact congrArg (fun frames => Except.ok (frames, _)) hfinish.symm

/-! ### What a client makes of a frame -/

theorem isLine_append {l l' : List Char} (h : IsLine l) (h' : IsLine l') : IsLine (l ++ l') := by
  simp only [IsLine, List.mem_append, not_or] at *
  exact ⟨⟨h.1, h'.1⟩, h.2, h'.2⟩

/-- The type of the message that a frame is. -/
def typeOf (event : Option String) : String :=
  if event.getD "" = "" then "message" else event.getD ""

/-- A frame of one line after the other. -/
theorem frameText_eq (data : String) (event eventId : Option String) (retry : Option ℕ) :
    frameText data event eventId retry
      = unlines ((event.map fun e => "event: ".toList ++ e.toList).toList
        ++ (eventId.map fun i => "id: ".toList ++ i.toList).toList
        ++ (retry.map fun n => "retry: ".toList ++ (toString n).toList).toList
        ++ ((data.toList.splitOn '\n').map fun line => "data: ".toList ++ line) ++ [[]]) := by
  rw [unlines_append, ← intercalate_append_newline, List.append_assoc]
  · rfl
  · simp

theorem isLine_splitOn {data : String} (h : '\r' ∉ data.toList) :
    ∀ line ∈ (data.toList.splitOn '\n').map fun line => "data: ".toList ++ line, IsLine line := by
  intro line hline
  obtain ⟨part, hpart, rfl⟩ := List.mem_map.mp hline
  have hsplit := mem_splitOn hpart
  exact isLine_append ⟨by decide, by decide⟩ ⟨hsplit.1, fun hr => h (hsplit.2 _ hr)⟩

/-- The text of an integer is on one line. -/
theorem isLine_toString (n : ℤ) : IsLine (toString n).toList ∧ '\x00' ∉ (toString n).toList := by
  refine ⟨⟨?_, ?_⟩, ?_⟩ <;>
  · intro h
    rcases PyInt.mem_toString h with h | h
    · cases h
    · cases h

theorem read_event (client : EventStream.Client) (event : Option String) :
    (event.map fun e => "event: ".toList ++ e.toList).toList.foldl processLine client
      = { client with eventType := (event.map String.toList).getD client.eventType } := by
  cases event with
  | none => rfl
  | some e => exact processLine_field client "event".toList e.toList (by decide) (by decide)

theorem read_id (client : EventStream.Client) {eventId : Option String}
    (h : ∀ i ∈ eventId, '\x00' ∉ i.toList) :
    (eventId.map fun i => "id: ".toList ++ i.toList).toList.foldl processLine client
      = { client with idBuffer := (eventId.map String.toList).getD client.idBuffer } := by
  cases eventId with
  | none => rfl
  | some i =>
    refine (processLine_field client "id".toList i.toList (by decide) (by decide)).trans ?_
    exact if_neg (h i rfl)

theorem read_retry (client : EventStream.Client) (retry : Option ℕ) :
    (retry.map fun n => "retry: ".toList ++ (toString n).toList).toList.foldl processLine client
      = { client with reconnectionTime := retry.or client.reconnectionTime } := by
  cases retry with
  | none => rfl
  | some n =>
    have hdigits : (toString n).toList = Nat.toDigits 10 n := Nat.toList_repr
    have hall : (toString n).toList.all Char.isDigit = true := by
      rw [hdigits, List.all_eq_true]
      exact PyInt.isDigit_toDigits n
    have hline : processLine client ("retry: ".toList ++ (toString n).toList)
        = processField client "retry".toList (toString n).toList :=
      processLine_field client "retry".toList (toString n).toList (by decide) (by decide)
    refine hline.trans ((if_pos hall).trans ?_)
    rw [hdigits, Nat.ofDigitChars_ten_toDigits]
    rfl

/-- **A frame is one message**, whatever its data. -/
theorem read_frame {client : EventStream.Client} (hdata : client.data = [])
    (htype : client.eventType = [])
    {data : String} (hline : '\r' ∉ data.toList) {event eventId : Option String}
    (hevent : ∀ e ∈ event, IsLine e.toList) (hid : ∀ i ∈ eventId, IsLine i.toList)
    (hnull : ∀ i ∈ eventId, '\x00' ∉ i.toList) (retry : Option ℕ) (rest : List Char) :
    let idBuffer := (eventId.map String.toList).getD client.idBuffer
    (lines (frameText data event eventId retry ++ rest)).foldl processLine client
      = (lines rest).foldl processLine
        { client with
          idBuffer := idBuffer
          lastEventId := idBuffer
          reconnectionTime := retry.or client.reconnectionTime
          messages := client.messages ++
            [{ type := typeOf event, data := data, lastEventId := String.ofList idBuffer }] } := by
  have htypeOf : (if (event.map String.toList).getD [] = [] then "message"
      else String.ofList ((event.map String.toList).getD [])) = typeOf event := by
    cases event with
    | none => rfl
    | some e =>
      rw [typeOf, Option.map_some, Option.getD_some, Option.getD_some, String.ofList_toList]
      exact if_congr String.toList_eq_nil_iff rfl rfl
  dsimp only
  rw [frameText_eq, lines_unlines_append, List.foldl_append]
  · congr 1
    rw [List.foldl_append, List.foldl_append, List.foldl_append, List.foldl_append, read_event,
      read_id _ hnull, read_retry, foldl_data, List.foldl_cons, List.foldl_nil, hdata, htype,
      List.nil_append, ← intercalate_append_newline (List.splitOn_ne_nil _ _),
      List.intercalate_splitOn]
    refine (dispatch_data _ data.toList).trans ?_
    rw [← htypeOf, String.ofList_toList]
  · intro line hmem
    simp only [List.mem_append, Option.mem_toList, Option.map_eq_some_iff, List.mem_singleton,
      or_assoc] at hmem
    rcases hmem with ⟨e, he, rfl⟩ | ⟨i, hi, rfl⟩ | ⟨n, -, rfl⟩ | hmem | rfl
    · exact isLine_append ⟨by decide, by decide⟩ (hevent e he)
    · exact isLine_append ⟨by decide, by decide⟩ (hid i hi)
    · exact isLine_append ⟨by decide, by decide⟩ (isLine_toString (Int.ofNat n)).1
    · exact isLine_splitOn hline line hmem
    · exact ⟨List.not_mem_nil, List.not_mem_nil⟩

/-- A comment is no message. -/
theorem read_comment {client : EventStream.Client} (hdata : client.data = [])
    (htype : client.eventType = [])
    (text : String) (hline : IsLine text.toList) (rest : List Char) :
    (lines (": ".toList ++ text.toList ++ ['\n', '\n'] ++ rest)).foldl processLine client
      = (lines rest).foldl processLine { client with lastEventId := client.idBuffer } := by
  have htext : ": ".toList ++ text.toList ++ ['\n', '\n'] ++ rest
      = unlines [":".toList ++ " ".toList ++ text.toList, []] ++ rest := by
    simp [unlines]
  rw [htext, lines_unlines_append]
  · cases client
    subst hdata htype
    rfl
  · intro line hmem
    rcases List.mem_cons.mp hmem with rfl | hmem
    · exact isLine_append ⟨by decide, by decide⟩ hline
    · rw [List.mem_singleton.mp hmem]
      exact ⟨List.not_mem_nil, List.not_mem_nil⟩

/-! ### What a client makes of a stream -/

/-- The values that are sent as JSON. -/
def Chunk.value? : Chunk → Option Json
  | gap page => some (EventCursor.gapFrame page).data
  | event item => some (EventCursor.eventFrame item).data
  | finish | heartbeat => none

/-- The messages of a stream after its opening, from the id of the last event before. -/
def messages (dumps : Json → String) : String → List Chunk → List Message
  | _, [] => []
  | lastEventId, .gap page :: chunks =>
      { type := "gap", data := dumps (EventCursor.gapFrame page).data, lastEventId }
        :: messages dumps lastEventId chunks
  | _, .event item :: chunks =>
      { type := item.kind.str
        data := dumps (EventCursor.eventFrame item).data
        lastEventId := toString item.seq } :: messages dumps (toString item.seq) chunks
  | lastEventId, .finish :: chunks =>
      { type := "end", data := "\x7b\x7d", lastEventId } :: messages dumps lastEventId chunks
  | lastEventId, .heartbeat :: chunks => messages dumps lastEventId chunks

def Chunk.text (dumps : Json → String) : Chunk → List Char
  | gap page => frameText (dumps (EventCursor.gapFrame page).data) (some "gap") none none
  | event item =>
      frameText (dumps (EventCursor.eventFrame item).data) (some item.kind.str)
        (some (toString item.seq)) none
  | finish => frameText "\x7b\x7d" (some "end") none none
  | heartbeat => ": ".toList ++ "keep-alive".toList ++ ['\n', '\n']

theorem Chunk.bytes_eq (dumps : Json → String) (chunk : Chunk) :
    chunk.bytes dumps = Utf8.encode (chunk.text dumps) := by
  cases chunk <;> rfl

theorem typeOf_kind (kind : EventKind) : typeOf (some kind.str) = kind.str := by
  cases kind <;> rfl

theorem isLine_kind (kind : EventKind) : IsLine kind.str.toList := by
  cases kind <;> exact ⟨by decide, by decide⟩

/-- Each chunk is one message, or none. -/
theorem read_chunk {dumps : Json → String} {chunk : Chunk}
    (hline : ∀ v ∈ chunk.value?, '\r' ∉ (dumps v).toList) {client : EventStream.Client}
    (hdata : client.data = []) (htype : client.eventType = []) (rest : List Char)
    (chunks : List Chunk) :
    ∃ client' : EventStream.Client, client'.data = [] ∧ client'.eventType = []
      ∧ (lines (chunk.text dumps ++ rest)).foldl processLine client
        = (lines rest).foldl processLine client'
      ∧ client.messages ++ messages dumps (String.ofList client.idBuffer) (chunk :: chunks)
        = client'.messages ++ messages dumps (String.ofList client'.idBuffer) chunks := by
  cases chunk with
  | gap page =>
    refine ⟨_, ?_, ?_, read_frame hdata htype (hline _ rfl) ?_ (by simp) (by simp) none rest, ?_⟩
    · exact hdata
    · exact htype
    · rintro e ⟨⟩
      exact ⟨by decide, by decide⟩
    · rw [List.append_assoc]
      rfl
  | event item =>
    refine ⟨_, ?_, ?_, read_frame hdata htype (hline _ rfl) ?_ ?_ ?_ none rest, ?_⟩
    · exact hdata
    · exact htype
    · rintro e ⟨⟩
      exact isLine_kind item.kind
    · rintro i ⟨⟩
      exact (isLine_toString item.seq).1
    · rintro i ⟨⟩
      exact (isLine_toString item.seq).2
    · rw [List.append_assoc, typeOf_kind]
      dsimp only [Option.map_some, Option.getD_some]
      rw [String.ofList_toList]
      rfl
  | finish =>
    refine ⟨_, ?_, ?_, read_frame hdata htype (by decide) ?_ (by simp) (by simp) none rest, ?_⟩
    · exact hdata
    · exact htype
    · rintro e ⟨⟩
      exact ⟨by decide, by decide⟩
    · rw [List.append_assoc]
      rfl
  | heartbeat =>
    exact ⟨{ client with lastEventId := client.idBuffer }, hdata, htype,
      read_comment hdata htype "keep-alive" ⟨by decide, by decide⟩ rest, rfl⟩

theorem read_chunks {dumps : Json → String} {chunks : List Chunk}
    (hline : ∀ chunk ∈ chunks, ∀ v ∈ chunk.value?, '\r' ∉ (dumps v).toList)
      {client : EventStream.Client}
    (hdata : client.data = []) (htype : client.eventType = []) :
    ((lines (chunks.flatMap (Chunk.text dumps))).foldl processLine client).messages
      = client.messages ++ messages dumps (String.ofList client.idBuffer) chunks := by
  induction chunks generalizing client with
  | nil => exact (List.append_nil _).symm
  | cons chunk chunks ih =>
    obtain ⟨client', hdata', htype', hread, hmessages⟩ :=
      read_chunk (hline chunk List.mem_cons_self) hdata htype
        (chunks.flatMap (Chunk.text dumps)) chunks
    rw [List.flatMap_cons, hread, hmessages]
    exact ih (fun chunk' hmem => hline chunk' (List.mem_cons_of_mem chunk hmem)) hdata' htype'

/-- A client can tell from a message what was sent. -/
def Tells (loads : String → Option Json) : Chunk → Message → Prop
  | .gap page, message =>
      message.type = "gap" ∧ loads message.data = some (EventCursor.gapFrame page).data
  | .event item, message =>
      message.type = item.kind.str ∧ message.lastEventId = toString item.seq
        ∧ (loads message.data).bind Event.fromDict = some item
  | .finish, message => message.type = "end"
  | .heartbeat, _ => False

/-- What a client is told. -/
def told (chunks : List Chunk) : List Chunk := chunks.filter fun chunk => chunk.frame?.isSome

/-- What is relied on of JSON for a value: its text is on one line, and reads back. -/
def JsonText (dumps : Json → String) (loads : String → Option Json) (v : Json) : Prop :=
  IsLine (dumps v).toList ∧ loads (dumps v) = some v

/-- The text of a response. -/
theorem decode_stream (dumps : Json → String) (chunks : List Chunk) :
    Utf8.decode (stream dumps chunks)
      = frameText "" none none (some DEFAULT_RETRY_MS) ++ (": ".toList ++ "stream open".toList
        ++ ['\n', '\n'] ++ chunks.flatMap (Chunk.text dumps)) := by
  have hchunks : chunks.flatMap (Chunk.bytes dumps)
      = Utf8.encode (chunks.flatMap (Chunk.text dumps)) := by
    induction chunks with
    | nil => rfl
    | cons chunk chunks ih =>
      rw [List.flatMap_cons, List.flatMap_cons, Utf8.encode_append, ih, Chunk.bytes_eq]
  rw [stream, opening, frame, comment, hchunks, ← Utf8.encode_append, ← Utf8.encode_append,
    Utf8.decode_encode, List.append_assoc]

/-- The messages of a response. -/
theorem messages_parse_stream {dumps : Json → String} {chunks : List Chunk}
    (hline : ∀ chunk ∈ chunks, ∀ v ∈ chunk.value?, '\r' ∉ (dumps v).toList) :
    (parse (stream dumps chunks)).messages
      = { type := "message", data := "", lastEventId := "" } :: messages dumps "" chunks := by
  rw [parse, decode_stream]
  -- there is no byte order mark
  have hmark : ∀ rest, dropMark (frameText "" none none (some DEFAULT_RETRY_MS) ++ rest)
      = frameText "" none none (some DEFAULT_RETRY_MS) ++ rest := fun rest => rfl
  rw [hmark, read_frame rfl rfl (by decide) (by simp) (by simp) (by simp)]
  exact (congrArg EventStream.Client.messages
    (read_comment rfl rfl "stream open" ⟨by decide, by decide⟩ _)).trans (read_chunks hline rfl rfl)

theorem forall₂_tells {dumps : Json → String} {loads : String → Option Json} {chunks : List Chunk}
    (hjson : ∀ chunk ∈ chunks, ∀ v ∈ chunk.value?, JsonText dumps loads v) (lastEventId : String) :
    List.Forall₂ (Tells loads) (told chunks) (messages dumps lastEventId chunks) := by
  induction chunks generalizing lastEventId with
  | nil => exact .nil
  | cons chunk chunks ih =>
    have hrest := fun id => ih (fun c hc => hjson c (List.mem_cons_of_mem chunk hc)) id
    have hvalue := hjson chunk List.mem_cons_self
    cases chunk with
    | gap page => exact .cons ⟨rfl, (hvalue _ rfl).2⟩ (hrest lastEventId)
    | event item =>
      refine .cons ⟨rfl, rfl, ?_⟩ (hrest _)
      rw [(hvalue _ rfl).2, Option.bind_some]
      exact Event.fromDict_toDict item
    | finish => exact .cons rfl (hrest lastEventId)
    | heartbeat => exact hrest lastEventId

/-- **A client dispatches an empty message for the opening bytes**, and then one for each event, gap
and end: it is told what was sent, and something else before it. -/
theorem opening_dispatched (dumps : Json → String) (loads : String → Option Json)
    {chunks : List Chunk}
    (hjson : ∀ chunk ∈ chunks, ∀ v ∈ chunk.value?, JsonText dumps loads v) :
    (parse (stream dumps chunks)).messages
        = { type := "message", data := "", lastEventId := "" } :: messages dumps "" chunks
      ∧ List.Forall₂ (Tells loads) (told chunks) (messages dumps "" chunks)
      ∧ ¬List.Forall₂ (Tells loads) (told chunks) (parse (stream dumps chunks)).messages := by
  have hmessages : (parse (stream dumps chunks)).messages = _ :=
    messages_parse_stream fun chunk hchunk v hv => (hjson chunk hchunk v hv).1.2
  have htold := forall₂_tells hjson ""
  refine ⟨hmessages, htold, ?_⟩
  intro h
  have hlength := h.length_eq
  rw [hmessages, List.length_cons, htold.length_eq] at hlength
  omega

/-- A stream on which nothing has been sent yet has a message. -/
theorem opening_is_a_message :
    ¬∀ (dumps : Json → String) (loads : String → Option Json) (chunks : List Chunk),
      (∀ chunk ∈ chunks, ∀ v ∈ chunk.value?, JsonText dumps loads v) →
        List.Forall₂ (Tells loads) (told chunks) (parse (stream dumps chunks)).messages := by
  intro h
  have hnone := h (fun _ => "") (fun _ => none) [] (List.forall_mem_nil _)
  have hmessages : (parse (stream (fun _ => "") [])).messages
      = [{ type := "message", data := "", lastEventId := "" }] := rfl
  rw [hmessages] at hnone
  cases hnone

/-- What `json.dumps` makes of an event. -/
def heartbeatText : String :=
  "\x7b\"run_id\":\"run-1\",\"seq\":1,\"ts\":0.0,\"kind\":\"heartbeat\",\"book_id\":null,"
    ++ "\"atom_name\":null,\"atom_uuid\":null,\"atom_type\":null,\"state\":null,"
    ++ "\"old_state\":null,\"intention\":null,\"progress\":null,\"details\":\x7b\x7d\x7d"

/-- An event, a comment and the end are two messages, after one for the opening bytes. -/
theorem opening_dispatched_heartbeat :
    (parse (stream (fun _ => heartbeatText)
        [.event (TaskflowMeter.heartbeat 1), .heartbeat, .finish])).messages
      = [{ type := "message", data := "", lastEventId := "" },
        { type := "heartbeat", data := heartbeatText, lastEventId := "1" },
        { type := "end", data := "\x7b\x7d", lastEventId := "1" }] := by
  refine (opening_dispatched (fun _ => heartbeatText)
    (fun _ => some (.obj (TaskflowMeter.heartbeat 1).toDict)) ?_).1
  intro chunk hchunk v hv
  simp only [List.mem_cons, List.not_mem_nil, or_false] at hchunk
  rcases hchunk with rfl | rfl | rfl
  · cases hv
    exact ⟨⟨by decide +kernel, by decide +kernel⟩, rfl⟩
  · cases hv
  · cases hv

end Sse

end TaskflowMeter
