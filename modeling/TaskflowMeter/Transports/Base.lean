import TaskflowMeter.Api.Http
import TaskflowMeter.Events
import TaskflowMeter.Lib.Results

/-!
# The envelope that leaves the process

Batches of events as JSON, and what a collector reads back.  Nothing checks the annotations of a
dataclass when it is built, so the events of this module hold any value in every field but `kind`,
and an `Event` is one of them.

## Main definitions

* `DecodeError` — how reading an envelope fails.
* `RawEvent` — an event as it is built from keywords.
* `RawEvent.toDict`, `RawEvent.fromDict` — the two directions of one event.
* `toPayload`, `fromPayload` — those of a batch.
* `decode` — a message body, as text or already read.
* `Readable` — the JSON objects that are events.

## Main results

* `fromDict_toDict` — an event reads back.
* `fromDict_obj_iff` — what is built from an object, field by field.
* `exists_fromDict_iff` — **the objects that are read.**
-/

namespace TaskflowMeter

open Results

/-- How reading an envelope fails. -/
inductive DecodeError where
  | keyError
  | valueError
  | typeError
  deriving DecidableEq, Repr

/-! ### Built-ins -/

namespace Json

/-- What a value gives when it is iterated over. -/
def iter : Json → Except DecodeError (List Json)
  | .arr items => .ok items
  | .obj fields => .ok (fields.map fun field => .str field.1)
  | .str s => .ok (s.toList.map fun c => .str (String.singleton c))
  | _ => .error .typeError

/-- Whether a value can be a key. -/
def hashable : Json → Bool
  | .arr _ | .obj _ => false
  | _ => true

/-- A key and its value, out of a sequence of two. -/
def pair (item : Json) : Except DecodeError (Json × Json) := do
  match ← item.iter with
  | [key, value] => if key.hashable then .ok (key, value) else .error .typeError
  | _ => .error .valueError

/-- The built-in `dict`: a mapping is copied, anything else has to be a sequence of pairs. -/
def dict : Json → Except DecodeError (Dict Json Json)
  | .obj fields => .ok (fields.foldl (fun d field => d.set (.str field.1) field.2) ∅)
  | value => do
      let pairs ← (← value.iter).mapM pair
      .ok (pairs.foldl (fun d item => d.set item.1 item.2) ∅)

end Json

/-- `EventKind(value)`. -/
def EventKind.ofJson : Json → Except DecodeError EventKind
  | .str s => (ofStr s).elim (.error .valueError) .ok
  | _ => .error .valueError

/-! ### One event -/

/-- An event as it is built from keywords: only `kind` has been converted. -/
structure RawEvent where
  runId : Json
  seq : Json
  ts : Json
  kind : EventKind
  bookId : Json := .null
  atomName : Json := .null
  atomUuid : Json := .null
  atomType : Json := .null
  state : Json := .null
  oldState : Json := .null
  intention : Json := .null
  progress : Json := .null
  details : Json := .obj []
  deriving DecidableEq, Repr

namespace RawEvent

/-- The fields of an event. -/
def fields : List String :=
  ["run_id", "seq", "ts", "kind", "book_id", "atom_name", "atom_uuid", "atom_type", "state",
    "old_state", "intention", "progress", "details"]

/-- Render to plain JSON-serialisable types. -/
def toDict (event : RawEvent) : List (String × Json) :=
  [("run_id", event.runId),
   ("seq", event.seq),
   ("ts", event.ts),
   ("kind", .str event.kind.str),
   ("book_id", event.bookId),
   ("atom_name", event.atomName),
   ("atom_uuid", event.atomUuid),
   ("atom_type", event.atomType),
   ("state", event.state),
   ("old_state", event.oldState),
   ("intention", event.intention),
   ("progress", event.progress),
   ("details", event.details)]

/-- The value of a key that has to be there. -/
def required (payload : Dict Json Json) (name : String) (missing : DecodeError) :
    Except DecodeError Json :=
  (payload.get? (.str name)).elim (.error missing) .ok

/-- Rebuild from what `toDict` gives.  Unknown keys are rejected rather than dropped. -/
def fromDict (data : Json) : Except DecodeError RawEvent := do
  let payload ← data.dict
  let kind ← EventKind.ofJson (← required payload "kind" .keyError)
  -- `cls(**payload)`: every keyword is a field, and the fields without a default are all given
  if payload.keys.all fun key => (fields.map Json.str).contains key then
    let runId ← required payload "run_id" .typeError
    let seq ← required payload "seq" .typeError
    let ts ← required payload "ts" .typeError
    .ok
      { runId := runId
        seq := seq
        ts := ts
        kind := kind
        bookId := payload.getD (.str "book_id") .null
        atomName := payload.getD (.str "atom_name") .null
        atomUuid := payload.getD (.str "atom_uuid") .null
        atomType := payload.getD (.str "atom_type") .null
        state := payload.getD (.str "state") .null
        oldState := payload.getD (.str "old_state") .null
        intention := payload.getD (.str "intention") .null
        progress := payload.getD (.str "progress") .null
        details := payload.getD (.str "details") (.obj []) }
  else .error .typeError

end RawEvent

/-- An event whose fields are what they are annotated as. -/
def Event.raw (event : Event) : RawEvent where
  runId := .str event.runId
  seq := .num event.seq
  ts := .num event.ts
  kind := event.kind
  bookId := .ofOption event.bookId
  atomName := .ofOption event.atomName
  atomUuid := .ofOption event.atomUuid
  atomType := .ofOption event.atomType
  state := .ofOption event.state
  oldState := .ofOption event.oldState
  intention := .ofOption event.intention
  progress := (event.progress.map Json.num).getD .null
  details := .obj event.details.entries

theorem Event.toDict_raw (event : Event) : event.raw.toDict = event.toDict := rfl

theorem Event.raw_injective : Function.Injective Event.raw := by
  intro a b h
  exact Event.toDict_injective (congrArg RawEvent.toDict h)

/-! ### A batch -/

/-- The envelope every transport that leaves the process sends. -/
def toPayload (events : List RawEvent) : Json :=
  .obj [("events", .arr (events.map fun event => .obj event.toDict))]

/-- `payload["events"]`. -/
def Json.events : Json → Except DecodeError Json
  | .obj fields => (fields.lookup "events").elim (.error .keyError) .ok
  | _ => .error .typeError

/-- Read that envelope back. -/
def fromPayload (payload : Json) : Except DecodeError (List RawEvent) := do
  (← (← payload.events).iter).mapM RawEvent.fromDict

/-- Read the body of a message, where `loads` stands for `json.loads`. -/
def decode (loads : String → Except DecodeError Json) : Json → Except DecodeError (List RawEvent)
  | .str body => do fromPayload (← loads body)
  | body => fromPayload body

/-- A JSON object that is an event: the four fields without a default are there, the kind is a
known one, and there is no other field than the thirteen. -/
structure Readable (item : Dict String Json) : Prop where
  required : ∀ name ∈ ["run_id", "seq", "ts", "kind"], name ∈ item.keys
  kind : ∃ kind : EventKind, item.get? "kind" = some (.str kind.str)
  known : ∀ name ∈ item.keys, name ∈ RawEvent.fields

/-! ### Reading one event -/

theorem EventKind.ofJson_eq_ok_iff {value : Json} {kind : EventKind} :
    ofJson value = .ok kind ↔ value = .str kind.str := by
  constructor
  · intro h
    cases value with
    | str s =>
      cases hs : ofStr s with
      | none => simp [ofJson, hs] at h
      | some k =>
        have hstr := List.find?_some hs
        obtain rfl : k = kind := by simpa [ofJson, hs] using h
        rw [of_decide_eq_true hstr]
    | null | bool | num | arr | obj => simp [ofJson] at h
  · rintro rfl
    rw [ofJson, ofStr_str]
    rfl

/-- `dict` of an object has the fields of the object. -/
theorem Json.dict_obj (item : Dict String Json) :
    ∃ payload, dict (.obj item.entries) = .ok payload
      ∧ payload.keys = item.keys.map Json.str
      ∧ ∀ name, payload.get? (.str name) = item.get? name := by
  have hnodup : ((item.entries.map fun field =>
      (Json.str field.1, field.2)).map Prod.fst).Nodup := by
    rw [List.map_map]
    have hkeys := item.nodup_keys.map (f := Json.str) fun a b hab => Json.str.inj hab
    rwa [List.map_map] at hkeys
  have hentries := Dict.entries_foldl_set (d := (∅ : Dict Json Json)) hnodup (by simp)
  have hempty : (∅ : Dict Json Json).entries = [] := rfl
  rw [List.foldl_map, hempty, List.nil_append] at hentries
  refine ⟨_, rfl, ?_, fun name => ?_⟩
  · rw [Dict.keys, hentries, Dict.keys, List.map_map, List.map_map]
    rfl
  · refine Option.ext fun value => ?_
    rw [Dict.get?_eq_some_iff, Dict.get?_eq_some_iff, hentries]
    simp

namespace RawEvent

theorem required_eq_ok_iff {payload : Dict Json Json} {name : String} {missing : DecodeError}
    {value : Json} :
    required payload name missing = .ok value ↔ payload.get? (.str name) = some value := by
  rw [required]
  cases payload.get? (.str name) <;> simp

/-- `event` is built from the fields of `item`, the missing ones having their defaults. -/
structure Built (item : Dict String Json) (event : RawEvent) : Prop where
  known : ∀ name ∈ item.keys, name ∈ fields
  runId : item.get? "run_id" = some event.runId
  seq : item.get? "seq" = some event.seq
  ts : item.get? "ts" = some event.ts
  kind : item.get? "kind" = some (.str event.kind.str)
  bookId : item.getD "book_id" .null = event.bookId
  atomName : item.getD "atom_name" .null = event.atomName
  atomUuid : item.getD "atom_uuid" .null = event.atomUuid
  atomType : item.getD "atom_type" .null = event.atomType
  state : item.getD "state" .null = event.state
  oldState : item.getD "old_state" .null = event.oldState
  intention : item.getD "intention" .null = event.intention
  progress : item.getD "progress" .null = event.progress
  details : item.getD "details" (.obj []) = event.details

/-- What is built from a JSON object. -/
theorem fromDict_obj_iff {item : Dict String Json} {event : RawEvent} :
    fromDict (.obj item.entries) = .ok event ↔ Built item event := by
  obtain ⟨payload, hdict, hkeys, hget⟩ := Json.dict_obj item
  have hgetD : ∀ name default, payload.getD (.str name) default = item.getD name default := by
    intro name default
    rw [Dict.getD, Dict.getD, hget]
  have hall : (payload.keys.all fun key => (fields.map Json.str).contains key) = true
      ↔ ∀ name ∈ item.keys, name ∈ fields := by
    rw [hkeys]
    simp
  rw [fromDict, hdict]
  constructor
  · intro h
    obtain ⟨_, hpayload, h⟩ := bind_eq_ok_iff.mp h
    obtain rfl := Except.ok.inj hpayload
    obtain ⟨value, hvalue, h⟩ := bind_eq_ok_iff.mp h
    obtain ⟨kind, hkind, h⟩ := bind_eq_ok_iff.mp h
    split at h
    · next hknown =>
      obtain ⟨runId, hrunId, h⟩ := bind_eq_ok_iff.mp h
      obtain ⟨seq, hseq, h⟩ := bind_eq_ok_iff.mp h
      obtain ⟨ts, hts, h⟩ := bind_eq_ok_iff.mp h
      obtain rfl := Except.ok.inj h
      rw [required_eq_ok_iff, hget] at hvalue hrunId hseq hts
      obtain rfl := EventKind.ofJson_eq_ok_iff.mp hkind
      simp only [hgetD]
      exact ⟨hall.mp hknown, hrunId, hseq, hts, hvalue, rfl, rfl, rfl, rfl, rfl, rfl, rfl, rfl, rfl⟩
    · simp at h
  · intro h
    refine bind_eq_ok_iff.mpr ⟨payload, rfl, bind_eq_ok_iff.mpr ⟨.str event.kind.str, ?_, ?_⟩⟩
    · rw [required_eq_ok_iff, hget, h.kind]
    refine bind_eq_ok_iff.mpr ⟨event.kind, EventKind.ofJson_eq_ok_iff.mpr rfl, ?_⟩
    rw [if_pos (hall.mpr h.known)]
    refine bind_eq_ok_iff.mpr ⟨event.runId, required_eq_ok_iff.mpr ((hget _).trans h.runId), ?_⟩
    refine bind_eq_ok_iff.mpr ⟨event.seq, required_eq_ok_iff.mpr ((hget _).trans h.seq), ?_⟩
    refine bind_eq_ok_iff.mpr ⟨event.ts, required_eq_ok_iff.mpr ((hget _).trans h.ts), ?_⟩
    simp only [hgetD, h.bookId, h.atomName, h.atomUuid, h.atomType, h.state, h.oldState,
      h.intention, h.progress, h.details]

/-- What is built from an object renders to all that the object has. -/
theorem Built.lookup_toDict {item : Dict String Json} {event : RawEvent} (h : Built item event)
    {name : String} {value : Json} (hvalue : item.get? name = some value) :
    event.toDict.lookup name = some value := by
  have hgetD : ∀ default, item.getD name default = value := by
    intro default
    rw [Dict.getD, hvalue, Option.getD_some]
  have hname := h.known name (Dict.mem_keys_of_get? hvalue)
  simp only [fields, List.mem_cons, List.not_mem_nil, or_false] at hname
  rcases hname with rfl | rfl | rfl | rfl | rfl | rfl | rfl | rfl | rfl | rfl | rfl | rfl | rfl
  · exact h.runId.symm.trans hvalue
  · exact h.seq.symm.trans hvalue
  · exact h.ts.symm.trans hvalue
  · exact h.kind.symm.trans hvalue
  · exact congrArg some (h.bookId.symm.trans (hgetD _))
  · exact congrArg some (h.atomName.symm.trans (hgetD _))
  · exact congrArg some (h.atomUuid.symm.trans (hgetD _))
  · exact congrArg some (h.atomType.symm.trans (hgetD _))
  · exact congrArg some (h.state.symm.trans (hgetD _))
  · exact congrArg some (h.oldState.symm.trans (hgetD _))
  · exact congrArg some (h.intention.symm.trans (hgetD _))
  · exact congrArg some (h.progress.symm.trans (hgetD _))
  · exact congrArg some (h.details.symm.trans (hgetD _))

theorem Built.readable {item : Dict String Json} {event : RawEvent} (h : Built item event) :
    Readable item where
  required := by
    simp only [List.forall_mem_cons, List.not_mem_nil, false_imp_iff, implies_true, and_true]
    exact ⟨Dict.mem_keys_of_get? h.runId, Dict.mem_keys_of_get? h.seq,
      Dict.mem_keys_of_get? h.ts, Dict.mem_keys_of_get? h.kind⟩
  kind := ⟨event.kind, h.kind⟩
  known := h.known

/-- **The objects that are read.** -/
theorem exists_fromDict_iff {item : Dict String Json} :
    (∃ event, fromDict (.obj item.entries) = .ok event) ↔ Readable item := by
  simp only [fromDict_obj_iff]
  constructor
  · rintro ⟨event, hbuilt⟩
    exact hbuilt.readable
  · intro h
    obtain ⟨kind, hkind⟩ := h.kind
    obtain ⟨runId, hrunId⟩ := Dict.mem_keys_iff.mp (h.required "run_id" (by simp))
    obtain ⟨seq, hseq⟩ := Dict.mem_keys_iff.mp (h.required "seq" (by simp))
    obtain ⟨ts, hts⟩ := Dict.mem_keys_iff.mp (h.required "ts" (by simp))
    exact ⟨⟨runId, seq, ts, kind, _, _, _, _, _, _, _, _, _⟩, h.known, hrunId, hseq, hts, hkind,
      rfl, rfl, rfl, rfl, rfl, rfl, rfl, rfl, rfl⟩

/-- The liveness event number `n` of a run, with the fields that have no default. -/
def livenessItem (n : ℤ) : Dict String Json :=
  (((Dict.empty.set "kind" (.str "heartbeat")).set "seq" (.num n)).set "ts" (.num 100)).set
    "run_id" (.str "run-1")

example : fromDict (.obj ((livenessItem 1).set "speculative_field" (.num 1)).entries)
    = .error .typeError := rfl

theorem nodup_toDict (event : RawEvent) : (event.toDict.map Prod.fst).Nodup := by
  show fields.Nodup
  decide

/-- An event reads back. -/
theorem fromDict_toDict (event : RawEvent) : fromDict (.obj event.toDict) = .ok event :=
  (@fromDict_obj_iff ⟨event.toDict, event.nodup_toDict⟩ event).mpr
    ⟨fun _ h => h, rfl, rfl, rfl, rfl, rfl, rfl, rfl, rfl, rfl, rfl, rfl, rfl, rfl⟩

end RawEvent

/-! ### Reading a batch -/

/-- Reading an envelope is reading its items. -/
theorem fromPayload_eq_mapM {payload : Dict String Json} {items : List (Dict String Json)}
    (hitems : payload.get? "events" = some (.arr (items.map fun item => .obj item.entries))) :
    fromPayload (.obj payload.entries)
      = (items.map fun item => .obj item.entries).mapM RawEvent.fromDict := by
  have hevents : Json.events (.obj payload.entries)
      = .ok (.arr (items.map fun item => .obj item.entries)) := by
    rw [Json.events]
    exact congrArg (fun value => Option.elim value (Except.error DecodeError.keyError) .ok) hitems
  rw [fromPayload, hevents]
  rfl

theorem fromPayload_toPayload (events : List RawEvent) :
    fromPayload (toPayload events) = .ok events := by
  have hread : (events.map fun event => Json.obj event.toDict).mapM RawEvent.fromDict
      = .ok events := by
    rw [mapM_eq_ok_iff, List.forall₂_map_left_iff, List.forall₂_same]
    exact fun event _ => event.fromDict_toDict
  exact hread

/-- An envelope is read exactly when all its items are events. -/
theorem exists_fromPayload_iff {payload : Dict String Json} {items : List (Dict String Json)}
    (hitems : payload.get? "events" = some (.arr (items.map fun item => .obj item.entries))) :
    (∃ events, fromPayload (.obj payload.entries) = .ok events)
      ↔ ∀ item ∈ items, Readable item := by
  rw [fromPayload_eq_mapM hitems, exists_mapM_eq_ok_iff, List.forall_mem_map]
  exact forall₂_congr fun item _ => RawEvent.exists_fromDict_iff

/-- The events that are read are built from the items, in order. -/
theorem built_of_fromPayload {payload : Dict String Json} {items : List (Dict String Json)}
    (hitems : payload.get? "events" = some (.arr (items.map fun item => .obj item.entries)))
    {events : List RawEvent} (h : fromPayload (.obj payload.entries) = .ok events) :
    List.Forall₂ RawEvent.Built items events := by
  rw [fromPayload_eq_mapM hitems, mapM_eq_ok_iff, List.forall₂_map_left_iff] at h
  exact h.imp fun item event hitem => RawEvent.fromDict_obj_iff.mp hitem

/-- **The envelope.**  What was put into it comes back, directly or as text; and an envelope of any
JSON objects is read exactly when each of them is an event, which then renders to all that the
object has. -/
theorem envelope_reads_back {dumps : Json → String} {loads : String → Except DecodeError Json}
    {events : List RawEvent} (hloads : loads (dumps (toPayload events)) = .ok (toPayload events))
    {payload : Dict String Json} {items : List (Dict String Json)}
    (hitems : payload.get? "events" = some (.arr (items.map fun item => .obj item.entries))) :
    (fromPayload (toPayload events) = .ok events
        ∧ decode loads (toPayload events) = .ok events
        ∧ decode loads (.str (dumps (toPayload events))) = .ok events)
      ∧ ((∃ read, fromPayload (.obj payload.entries) = .ok read) ↔ ∀ item ∈ items, Readable item)
      ∧ ∀ read, fromPayload (.obj payload.entries) = .ok read →
          List.Forall₂ (fun item event => ∀ name value, item.get? name = some value →
            event.toDict.lookup name = some value) items read := by
  have hread := fromPayload_toPayload events
  refine ⟨⟨hread, hread, ?_⟩, exists_fromPayload_iff hitems, fun read h => ?_⟩
  · exact bind_eq_ok_iff.mpr ⟨_, hloads, hread⟩
  · refine (built_of_fromPayload hitems h).imp ?_
    intro item event hbuilt name value hvalue
    exact hbuilt.lookup_toDict hvalue

theorem envelope_reads_back_liveness :
    let event : RawEvent :=
      { runId := .str "run-1", seq := .num 1, ts := .num 100, kind := .heartbeat }
    let text := Json.dumps (toPayload [event])
    let loads := fun body : String =>
      if body = text then Except.ok (toPayload [event]) else .error DecodeError.valueError
    let payload := Dict.empty.set "events" (.arr [.obj (RawEvent.livenessItem 1).entries])
    decode loads (.str text) = .ok [event]
      ∧ ((∃ read, fromPayload (.obj payload.entries) = .ok read)
        ↔ Readable (RawEvent.livenessItem 1)) := by
  intro event text loads payload
  have hread := @envelope_reads_back Json.dumps loads [event] (if_pos rfl) payload
    [RawEvent.livenessItem 1] rfl
  exact ⟨hread.1.2.2, hread.2.1.trans (List.forall_mem_singleton)⟩

end TaskflowMeter
