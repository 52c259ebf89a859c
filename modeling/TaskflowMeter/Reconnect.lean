import TaskflowMeter.Api.Service
import TaskflowMeter.Lib.Runs

/-!
# Reconnecting to a stream

A client reads a stream until the connection breaks, which may be anywhere inside a page,
and opens a new one with the id of the last event frame that it got.  Events are appended
to the history all the while.

## Main definitions

* `Reconnecting.Session` — the store, the connection if there is one, and what the client
  has received.
* `Reconnecting.Move`, `Reconnecting.step` — a write, a request for a new stream, a poll of
  which only the first frames arrive, a disconnection.
* `Reconnecting.Appends` — a write puts the next events of the run at the end of its history.

## Main results

* `eventPage_of_isRun` — the pages of an unbroken history.
* `received_once` — **over all connections the client gets the events in order, each once**,
  and a new connection that is left alone brings it as many as it polls for.
-/

namespace TaskflowMeter

open Consecutive Runs EventCursor

/-! ### The pages of an unbroken history -/

/-- Of the events of a run with distinct numbers, each is the first of its number. -/
theorem find?_of_nodup {events : List Event} (h : (events.map Event.seq).Nodup) {e : Event}
    (he : e ∈ events) : events.find? (fun x => x.seq = e.seq) = some e := by
  cases hfind : events.find? fun x => x.seq = e.seq with
  | none =>
    rw [List.find?_eq_none] at hfind
    exact absurd (decide_eq_true rfl) (hfind e he)
  | some x =>
    have hseq : x.seq = e.seq := by simpa using List.find?_some hfind
    rw [List.inj_on_of_nodup_map h (List.mem_of_find?_eq_some hfind) he hseq]

/-- Events of a run are determined by their numbers. -/
theorem eq_of_map_seq {events l l' : List Event}
    (h : ∀ e ∈ l, events.find? (fun x => x.seq = e.seq) = some e)
    (h' : ∀ e ∈ l', events.find? (fun x => x.seq = e.seq) = some e)
    (hseq : l.map Event.seq = l'.map Event.seq) : l = l' := by
  have hfind : ∀ {l : List Event}, (∀ e ∈ l, events.find? (fun x => x.seq = e.seq) = some e) →
      l.map some = (l.map Event.seq).map fun m => events.find? fun x => x.seq = m := by
    intro l hl
    rw [List.map_map]
    exact List.map_congr_left fun e he => (hl e he).symm
  have hsome : l.map some = l'.map some := by rw [hfind h, hfind h', hseq]
  exact List.map_injective_iff.mpr (Option.some_injective Event) hsome

theorem isRun_take_drop {a : ℤ} {l : List ℤ} (h : IsRun a l) {k : ℕ} (hk : k ≤ l.length) (n : ℕ) :
    IsRun (a + k) ((l.drop k).take n) := by
  rw [← List.take_append_drop k l, isRun_append, List.length_take, min_eq_left hk] at h
  have hdrop := h.2
  rw [← List.take_append_drop n (l.drop k), isRun_append] at hdrop
  exact hdrop.1

/-- **A page of an unbroken history** is what comes after the position, up to the limit. -/
theorem eventPage_of_isRun {stored : List Event} (h : IsRun 1 (stored.map Event.seq)) {k : ℕ}
    (hk : k ≤ stored.length) {limit : ℤ} (hlimit : 1 ≤ limit) :
    (eventPage (sortedBySeq stored) k limit).events = (stored.drop k).take limit.toNat
      ∧ (eventPage (sortedBySeq stored) k limit).nextSeq
        = k + ((stored.drop k).take limit.toNat).length
      ∧ (eventPage (sortedBySeq stored) k limit).truncated = false := by
  have hstrict : SeqStrict stored := List.pairwise_map.mp (pairwise_lt h)
  have hsorted : SeqSorted stored := hstrict.imp fun hlt => hlt.le
  have hnodup : (stored.map Event.seq).Nodup := nodup h
  rw [sortedBySeq_of_sorted hsorted]
  have hstart : startOf stored k = k + 1 := by
    unfold startOf
    cases stored with
    | nil => exact max_self _
    | cons e stored =>
      have hone : e.seq = 1 := h.1
      show max ((k : ℤ) + 1) e.seq = k + 1
      rw [hone]
      omega
  have hhas : ∀ m, HasSeq stored m ↔ 1 ≤ m ∧ m ≤ stored.length := by
    intro m
    have hmem : HasSeq stored m ↔ m ∈ stored.map Event.seq := by simp [HasSeq]
    rw [hmem, mem_iff h, List.length_map]
    omega
  have hpage := eventPage_events hsorted k hlimit
  rw [hstart] at hpage
  -- the two are runs of the same numbers
  have hlength : (eventPage stored k limit).events.length
      = ((stored.drop k).take limit.toNat).length := by
    rw [List.length_take, List.length_drop]
    have hle := hpage.length_le
    have hin : (eventPage stored k limit).events.length ≤ stored.length - k := by
      by_contra hlong
      have hlast : (k + (eventPage stored k limit).events.length : ℤ)
          ∈ (eventPage stored k limit).events.map Event.seq := by
        rw [mem_iff hpage.isRun, List.length_map]
        omega
      obtain ⟨e, he, hseq⟩ := List.mem_map.mp hlast
      have hbound := ((hhas e.seq).mp ⟨e, hpage.mem he, rfl⟩).2
      omega
    rcases hpage.full with hfull | hmissing
    · omega
    · rw [hhas] at hmissing
      omega
  have hseq : (eventPage stored k limit).events.map Event.seq
      = ((stored.drop k).take limit.toNat).map Event.seq := by
    have htarget : IsRun (1 + k) (((stored.drop k).take limit.toNat).map Event.seq) := by
      rw [List.map_take, List.map_drop]
      exact isRun_take_drop h (by rwa [List.length_map]) _
    rw [eq_map_range hpage.isRun, eq_map_range htarget, List.length_map, List.length_map, hlength]
    refine List.map_congr_left fun i _ => ?_
    omega
  have hevents : (eventPage stored k limit).events = (stored.drop k).take limit.toNat := by
    refine eq_of_map_seq hpage.first (fun e he => find?_of_nodup hnodup ?_) hseq
    exact List.mem_of_mem_drop (List.mem_of_mem_take he)
  refine ⟨hevents, ?_, ?_⟩
  · rw [nextSeq_eventPage hsorted k hlimit, hevents, hstart]
    split
    · next hnil => rw [hnil]; simp
    · omega
  · rw [← Bool.not_eq_true, truncated_eventPage_iff]
    rintro ⟨o, ho, hlt⟩
    cases stored with
    | nil => cases ho
    | cons e stored =>
      have hone : e.seq = 1 := h.1
      have heq : e.seq = o := Option.some.inj ho
      omega

namespace Reconnecting

/-- A client that reads the stream of a run. -/
structure Session where
  store : WritableDataSource
  connection : Option EventCursor := none
  received : List Frame := []

inductive Move where
  | write (events : List Event)
  /-- Open a new stream. -/
  | connect (query : Dict String (List String)) (headers : Dict String String)
  /-- A poll, with events written between its two reads, of which so many frames arrive. -/
  | poll (between : List Event) (arrive : ℕ)
  | disconnect

/-- The id of the last event frame received. -/
def Session.lastEventId (s : Session) : Option String :=
  (s.received.filterMap Frame.eventId).getLast?.map fun n => toString n

/-- A request for a new stream. -/
def Session.request (s : Session) (runId : String) (query : Dict String (List String))
    (headers : Dict String String) : MeterRequest where
  path := formatTemplate Routes.STREAM fun _ => runId
  query := query.erase "since_seq"
  headers :=
    match s.lastEventId with
    | some id => headers.set "last-event-id" id
    | none => headers.erase "last-event-id"
  pathParams := (∅ : Dict String String).set "run_id" runId

/-- A service over a store. -/
def serviceOf (source : DataSource) (maxLimit : ℤ) (store : WritableDataSource) : MeterService where
  meter := { source := source, store := some store.toDataSource }
  maxLimit := maxLimit

/-- A connection is lost with the frames that have not arrived; the server ends it when the
stream is complete. -/
def step (source : DataSource) (maxLimit : ℤ) (runId : String) (s : Session) : Move → Session
  | .write events => { s with store := s.store.applyMany events }
  | .connect query headers =>
      match (serviceOf source maxLimit s.store).stream (s.request runId query headers) with
      | .ok cursor => { s with connection := some cursor }
      | .error _ => { s with connection := none }
  | .poll between arrive =>
      let store := s.store.applyMany between
      match s.connection with
      | none => { s with store := store }
      | some cursor =>
          match cursor.poll s.store.eventsSince store.getFlow with
          | .error _ => { s with store := store, connection := none }
          | .ok (frames, cursor) =>
              { store := store
                connection := if frames.length ≤ arrive ∧ cursor.complete = false
                  then some cursor else none
                received := s.received ++ frames.take arrive }
  | .disconnect => { s with connection := none }

/-- The session after some moves. -/
def after (source : DataSource) (maxLimit : ℤ) (runId : String) (store : WritableDataSource) :
    List Move → Session :=
  run (step source maxLimit runId) { store := store }

/-- A write puts the next events of the run at the end of its history, and evicts none. -/
def Appends (runId : String) (store : WritableDataSource) (events : List Event) : Prop :=
  (store.applyMany events).held runId = store.held runId ++ ofRun runId events
    ∧ IsRun 1 (((store.applyMany events).held runId).map Event.seq)

/-- A move writes only such events. -/
def InOrder (source : DataSource) (maxLimit : ℤ) (runId : String) (store : WritableDataSource)
    (done : List Move) : Move → Prop
  | .write events | .poll events _ =>
    Appends runId (after source maxLimit runId store done).store events
  | .connect _ _ | .disconnect => True

instance (runId : String) (store : WritableDataSource) (events : List Event) :
    Decidable (Appends runId store events) := inferInstanceAs (Decidable (_ ∧ _))

instance (source : DataSource) (maxLimit : ℤ) (runId : String) (store : WritableDataSource)
    (done : List Move) : (move : Move) → Decidable (InOrder source maxLimit runId store done move)
  | .write events | .poll events _ =>
    inferInstanceAs (Decidable (Appends runId
      (after source maxLimit runId store done).store events))
  | .connect _ _ | .disconnect => isTrue trivial

/-- The events among what was received. -/
def eventFrames (frames : List Frame) : List Frame :=
  frames.filter fun frame => frame.eventId.isSome

/-! ### One poll -/

theorem eventFrames_append (frames frames' : List Frame) :
    eventFrames (frames ++ frames') = eventFrames frames ++ eventFrames frames' :=
  List.filter_append _ _

theorem eventFrames_map (events : List Event) :
    eventFrames (events.map eventFrame) = events.map eventFrame := by
  rw [eventFrames, List.filter_eq_self]
  intro frame hframe
  obtain ⟨e, -, rfl⟩ := List.mem_map.mp hframe
  rfl

/-- The end of a stream is no event. -/
theorem eventFrames_close (cursor : EventCursor) (snapshot : Option FlowSnapshot) (n : ℕ) :
    eventFrames ((cursor.close snapshot).1.take n) = [] := by
  rw [eventFrames, List.filter_eq_nil_iff]
  intro frame hframe
  have hmem := List.mem_of_mem_take hframe
  unfold close at hmem
  split at hmem
  · rw [List.mem_singleton.mp hmem]
    decide
  · cases hmem

theorem close_cursor (cursor : EventCursor) (snapshot : Option FlowSnapshot) :
    (cursor.close snapshot).2.runId = cursor.runId
      ∧ (cursor.close snapshot).2.sinceSeq = cursor.sinceSeq
      ∧ (cursor.close snapshot).2.batchLimit = cursor.batchLimit
      ∧ (cursor.close snapshot).1.length ≤ 1
      ∧ ((cursor.close snapshot).1 = [] → (cursor.close snapshot).2 = cursor) := by
  unfold close
  split <;> simp

/-- **What a poll at a position of an unbroken history gives.** -/
theorem poll_eq {store : WritableDataSource} {cursor : EventCursor} {k : ℕ}
    (hrun : IsRun 1 ((store.held cursor.runId).map Event.seq))
    (hk : k ≤ (store.held cursor.runId).length) (hsince : cursor.sinceSeq = k)
    (hlimit : 1 ≤ cursor.batchLimit) (getFlow : String → Option FlowSnapshot) :
    ∃ frames cursor', cursor.poll store.eventsSince getFlow = .ok (frames, cursor')
      ∧ (∀ n, eventFrames (frames.take n)
        = ((((store.held cursor.runId).drop k).take cursor.batchLimit.toNat).take n).map eventFrame)
      ∧ (((store.held cursor.runId).drop k).take cursor.batchLimit.toNat).length ≤ frames.length
      ∧ frames.length ≤ cursor.batchLimit.toNat
      ∧ cursor'.runId = cursor.runId ∧ cursor'.batchLimit = cursor.batchLimit
      ∧ cursor'.sinceSeq
        = k + (((store.held cursor.runId).drop k).take cursor.batchLimit.toNat).length
      ∧ (((store.held cursor.runId).drop k).take cursor.batchLimit.toNat ≠ [] →
        cursor'.complete = cursor.complete) := by
  obtain ⟨hevents, hnext, htruncated⟩ := eventPage_of_isRun hrun hk hlimit
  rw [EventCursor.poll, store.eventsSince_eq cursor.runId cursor.sinceSeq hlimit, hsince]
  generalize eventPage (sortedBySeq (store.held cursor.runId)) k cursor.batchLimit = page at *
  have hdrain : (cursor.drain page).1 = page.events.map eventFrame := by
    rw [drain, htruncated]
    rfl
  dsimp only
  rw [hdrain, hevents]
  generalize hpage : ((store.held cursor.runId).drop k).take cursor.batchLimit.toNat = events at *
  cases events with
  | nil =>
    obtain ⟨hrunId, hsinceSeq, hbatch, hlength, -⟩ :=
      close_cursor (cursor.drain page).2 (getFlow cursor.runId)
    refine ⟨_, _, rfl, ?_, Nat.zero_le _, ?_, hrunId, hbatch, hsinceSeq.trans hnext,
      fun h => absurd rfl h⟩
    · intro n
      rw [List.take_nil]
      exact eventFrames_close _ _ n
    · show (_ : List Frame).length ≤ _
      rw [List.map_nil, List.nil_append]
      omega
  | cons e events =>
    have hpair : cursor.drain page = ((e :: events).map eventFrame, (cursor.drain page).2) :=
      Prod.ext (hdrain.trans (congrArg _ hevents)) rfl
    refine ⟨(e :: events).map eventFrame, (cursor.drain page).2, congrArg Except.ok hpair, ?_,
      (List.length_map _).ge, ?_, rfl, rfl, hnext, fun _ => rfl⟩
    · intro n
      rw [← List.map_take]
      exact eventFrames_map _
    · rw [List.length_map, ← hpage]
      exact List.length_take_le _ _

/-- The first items, and so many of those that follow. -/
theorem take_append_take_drop {α : Type*} {l : List α} {k : ℕ} (hk : k ≤ l.length) (l' : List α)
    (limit n : ℕ) :
    l.take k ++ ((l.drop k).take limit).take n
      = (l ++ l').take (k + (((l.drop k).take limit).take n).length) := by
  rw [List.take_take, List.length_take, List.length_drop, List.take_append_of_le_length (by omega),
    List.take_add]
  have hmin : (l.drop k).take (min n limit)
      = (l.drop k).take (min (min n limit) (l.length - k)) := by
    rw [List.take_eq_take_iff, List.length_drop]
    omega
  rw [hmin]

/-! ### The invariant -/

/-- The client has the first `k` events, and so has the server's cursor. -/
structure Inv (runId : String) (k : ℕ) (s : Session) : Prop where
  isRun : IsRun 1 ((s.store.held runId).map Event.seq)
  le_length : k ≤ (s.store.held runId).length
  received : eventFrames s.received = ((s.store.held runId).take k).map eventFrame
  connected : ∀ cursor, s.connection = some cursor → cursor.runId = runId ∧ cursor.sinceSeq = k

variable (source : DataSource) (maxLimit : ℤ) {runId : String} {k : ℕ} {s : Session}

/-- The ids received are the first numbers. -/
theorem Inv.eventIds (h : Inv runId k s) :
    IsRun 1 (s.received.filterMap Frame.eventId)
      ∧ (s.received.filterMap Frame.eventId).length = k := by
  have hids : s.received.filterMap Frame.eventId = ((s.store.held runId).map Event.seq).take k := by
    have hfilter : s.received.filterMap Frame.eventId
        = (eventFrames s.received).filterMap Frame.eventId := by
      rw [eventFrames, List.filterMap_filter]
      refine List.filterMap_congr fun frame _ => ?_
      cases frame.eventId <;> rfl
    rw [hfilter, h.received, List.filterMap_map, ← List.map_take]
    exact congrFun (List.filterMap_eq_map (f := Event.seq)) _
  rw [hids]
  constructor
  · have hpre := isRun_take_drop h.isRun (Nat.zero_le _) k
    rwa [List.drop_zero, Nat.cast_zero, add_zero] at hpre
  · rw [List.length_take, List.length_map]
    exact min_eq_left h.le_length

/-- The last event received has the number `k`. -/
theorem Inv.lastEventId (h : Inv runId k s) :
    s.lastEventId = if k = 0 then none else some (toString (k : ℤ)) := by
  obtain ⟨hrun, hlength⟩ := h.eventIds
  rw [Session.lastEventId]
  split
  · next hzero =>
    rw [List.eq_nil_of_length_eq_zero (hlength.trans hzero)]
    rfl
  · next hne =>
    rw [getLast?_eq hrun (by rw [← List.length_pos_iff, hlength]; omega), hlength, Option.map_some]
    congr 2
    omega

/-- **A new stream resumes where the client is.** -/
theorem Inv.resumePoint (h : Inv runId k s) (query : Dict String (List String))
    (headers : Dict String String) :
    MeterService.resumePoint (s.request runId query headers) = .ok (k : ℤ) := by
  have hquery : (s.request runId query headers).get "since_seq" = none := by
    refine MeterRequest.get_of_none ?_
    show (query.erase "since_seq").get? "since_seq" = none
    rw [Dict.get?_erase, if_pos rfl]
  have hlast := h.lastEventId
  by_cases hzero : k = 0
  · rw [if_pos hzero] at hlast
    rw [hzero]
    refine MeterService.resumePoint_of_none hquery ?_
    rw [Session.request, hlast]
    show (headers.erase "last-event-id").get? "last-event-id" = none
    rw [Dict.get?_erase, if_pos rfl]
  · rw [if_neg hzero] at hlast
    refine MeterService.resumePoint_of_header hquery ?_ rfl
    rw [Session.request, hlast]
    exact Dict.get?_set_self _ _ _

/-- Appending leaves the first events as they are. -/
theorem Inv.appends (h : Inv runId k s) {events : List Event}
    (hwrite : Appends runId s.store events)
    {connection : Option EventCursor} (hconnection : ∀ cursor, connection = some cursor →
      cursor.runId = runId ∧ cursor.sinceSeq = k) :
    Inv runId k { s with store := s.store.applyMany events, connection := connection } where
  isRun := hwrite.2
  le_length := by
    show k ≤ ((s.store.applyMany events).held runId).length
    rw [hwrite.1, List.length_append]
    exact h.le_length.trans (Nat.le_add_right _ _)
  received := by
    show eventFrames s.received = (((s.store.applyMany events).held runId).take k).map eventFrame
    rw [hwrite.1, List.take_append_of_le_length h.le_length]
    exact h.received
  connected := hconnection

theorem Inv.connect (h : Inv runId k s) (query : Dict String (List String))
    (headers : Dict String String) :
    Inv runId k (step source maxLimit runId s (.connect query headers)) := by
  unfold step
  dsimp only
  cases hstream : (serviceOf source maxLimit s.store).stream (s.request runId query headers) with
  | error e => exact ⟨h.isRun, h.le_length, h.received, nofun⟩
  | ok cursor =>
    refine ⟨h.isRun, h.le_length, h.received, ?_⟩
    intro cursor' heq
    obtain rfl := Option.some.inj heq
    have hparam : (s.request runId query headers).param "run_id" = .ok runId := rfl
    obtain ⟨-, -, since, limit, hsince, -, rfl⟩ :=
      (MeterService.stream_eq_ok_iff hparam).mp hstream
    rw [h.resumePoint query headers] at hsince
    exact ⟨rfl, (Except.ok.inj hsince).symm⟩

/-- A cursor that may take no events gives none. -/
theorem poll_of_lt (store : WritableDataSource) {cursor : EventCursor} (h : cursor.batchLimit < 1)
    (getFlow : String → Option FlowSnapshot) :
    ∃ message, cursor.poll store.eventsSince getFlow = .error message := by
  have herror : ∃ message, store.eventsSince cursor.runId cursor.sinceSeq cursor.batchLimit
      = .error message := by
    cases store with
    | memory store => exact ⟨_, if_pos h⟩
    | sqlalchemy store => exact ⟨_, if_pos h⟩
  obtain ⟨message, hmessage⟩ := herror
  exact ⟨message, by rw [EventCursor.poll, hmessage]⟩

/-- **However many frames of a poll arrive**, the client has the first events, and a cursor that
is left knows how many. -/
theorem Inv.poll_some (h : Inv runId k s) {cursor : EventCursor}
    (hconnection : s.connection = some cursor) (hlimit : 1 ≤ cursor.batchLimit)
    {between : List Event} (hwrite : Appends runId s.store between) (arrive : ℕ) :
    let got := (((s.store.held runId).drop k).take cursor.batchLimit.toNat).take arrive
    let s' := step source maxLimit runId s (.poll between arrive)
    Inv runId (k + got.length) s'
      ∧ (∀ cursor', s'.connection = some cursor' →
        cursor'.batchLimit = cursor.batchLimit ∧ cursor'.complete = false)
      ∧ (s'.connection = none → cursor.complete = false → cursor.batchLimit.toNat ≤ arrive →
        got = []) := by
  obtain ⟨rfl, hsince⟩ := h.connected cursor hconnection
  obtain ⟨frames, cursor', hpoll, hframes, hlength, hle, hrunId, hbatch, hnext, hcomplete⟩ :=
    poll_eq h.isRun h.le_length hsince hlimit (s.store.applyMany between).getFlow
  have hstep : step source maxLimit cursor.runId s (.poll between arrive)
      = { store := s.store.applyMany between
          connection := if frames.length ≤ arrive ∧ cursor'.complete = false
            then some cursor' else none
          received := s.received ++ frames.take arrive } := by
    rw [step, hconnection]
    dsimp only
    rw [hpoll]
  dsimp only
  rw [hstep]
  refine ⟨⟨hwrite.2, ?_, ?_, ?_⟩, ?_, ?_⟩
  · have hk := h.le_length
    show _ ≤ ((s.store.applyMany between).held cursor.runId).length
    rw [hwrite.1, List.length_append, List.length_take, List.length_take, List.length_drop]
    omega
  · show eventFrames (s.received ++ frames.take arrive)
      = (((s.store.applyMany between).held cursor.runId).take _).map eventFrame
    rw [eventFrames_append, h.received, hframes, ← List.map_append, hwrite.1,
      take_append_take_drop h.le_length]
  · intro cursor'' heq
    obtain ⟨⟨harrive, -⟩, hsome⟩ := Option.ite_none_right_eq_some.mp heq
    obtain rfl := Option.some.inj hsome
    refine ⟨hrunId, ?_⟩
    rw [hnext, List.take_of_length_le (hlength.trans harrive)]
    push_cast
    rfl
  · intro cursor'' heq
    obtain ⟨⟨-, hopen⟩, hsome⟩ := Option.ite_none_right_eq_some.mp heq
    obtain rfl := Option.some.inj hsome
    exact ⟨hbatch, hopen⟩
  · -- the connection is kept unless the page is empty
    intro hnone hopen harrive
    by_contra hgot
    have hpage : ((s.store.held cursor.runId).drop k).take cursor.batchLimit.toNat ≠ [] := by
      rintro hnil
      rw [hnil, List.take_nil] at hgot
      exact hgot rfl
    have hkeep : frames.length ≤ arrive ∧ cursor'.complete = false :=
      ⟨hle.trans harrive, (hcomplete hpage).trans hopen⟩
    rw [if_pos hkeep] at hnone
    cases hnone

theorem Inv.poll (h : Inv runId k s) {between : List Event} (hwrite : Appends runId s.store between)
    (arrive : ℕ) :
    ∃ k', Inv runId k' (step source maxLimit runId s (.poll between arrive)) := by
  cases hconnection : s.connection with
  | none =>
    refine ⟨k, ?_⟩
    rw [step, hconnection]
    exact h.appends hwrite nofun
  | some cursor =>
    by_cases hlimit : 1 ≤ cursor.batchLimit
    · exact ⟨_, (h.poll_some source maxLimit hconnection hlimit hwrite arrive).1⟩
    · obtain ⟨message, hmessage⟩ :=
        poll_of_lt s.store (not_le.mp hlimit) (s.store.applyMany between).getFlow
      refine ⟨k, ?_⟩
      rw [step, hconnection]
      dsimp only
      rw [hmessage]
      exact h.appends hwrite nofun

theorem Inv.step (h : Inv runId k s) {store : WritableDataSource} {done : List Move}
    (hs : s = after source maxLimit runId store done) {move : Move}
    (hordered : InOrder source maxLimit runId store done move) :
    ∃ k', Inv runId k' (step source maxLimit runId s move) := by
  subst hs
  cases move with
  | write events => exact ⟨k, h.appends hordered h.connected⟩
  | connect query headers => exact ⟨k, h.connect source maxLimit query headers⟩
  | poll between arrive => exact h.poll source maxLimit hordered arrive
  | disconnect => exact ⟨k, h.isRun, h.le_length, h.received, nofun⟩

/-- At every moment the client has the first events. -/
theorem inv_after {store : WritableDataSource} (hstart : IsRun 1 ((store.held runId).map Event.seq))
    {moves : List Move} (hordered : EveryMove (InOrder source maxLimit runId store) moves) :
    ∃ k, Inv runId k (after source maxLimit runId store moves) := by
  refine inv_run (I := fun done => ∃ k, Inv runId k (after source maxLimit runId store done))
    ⟨0, hstart, Nat.zero_le _, rfl, nofun⟩ ?_ hordered
  rintro done move todo - ⟨k, hk⟩ hmove
  rw [after, run_concat]
  exact hk.step source maxLimit rfl hmove

/-! ### A connection that is left alone -/

theorem applyMany_nil (store : WritableDataSource) : store.applyMany [] = store := by
  cases store <;> rfl

/-- A connection with pages of this length is open, unless all events have arrived. -/
structure Reading (runId : String) (limit : ℤ) (k : ℕ) (s : Session) :
    Prop extends Inv runId k s where
  opened : ∀ cursor, s.connection = some cursor →
    cursor.batchLimit = limit ∧ cursor.complete = false
  closed : s.connection = none → k = (s.store.held runId).length

/-- A poll brings another page. -/
theorem Reading.poll {limit : ℤ} (h : Reading runId limit k s) (hlimit : 1 ≤ limit) :
    let s' := step source maxLimit runId s (.poll [] limit.toNat)
    s'.store = s.store
      ∧ Reading runId limit (min (k + limit.toNat) (s.store.held runId).length) s' := by
  have hwrite : Appends runId s.store [] := by
    refine ⟨?_, ?_⟩
    · rw [applyMany_nil]
      exact (List.append_nil _).symm
    · rw [applyMany_nil]
      exact h.isRun
  have hle := h.le_length
  cases hconnection : s.connection with
  | none =>
    have hall := h.closed hconnection
    have hstep : step source maxLimit runId s (.poll [] limit.toNat) = s := by
      rw [Reconnecting.step, hconnection]
      dsimp only
      rw [applyMany_nil, ← hconnection]
    have hmin : min (k + limit.toNat) (s.store.held runId).length = k := by omega
    rw [hstep, hmin]
    exact ⟨rfl, h⟩
  | some cursor =>
    obtain ⟨rfl, hopen⟩ := h.opened cursor hconnection
    obtain ⟨hinv, hkept, hend⟩ := h.toInv.poll_some source maxLimit hconnection
      hlimit hwrite cursor.batchLimit.toNat
    have hstore : (step source maxLimit runId s (.poll [] cursor.batchLimit.toNat)).store
        = s.store := by
      rw [Reconnecting.step, hconnection]
      dsimp only
      rw [applyMany_nil]
      split <;> rfl
    have hgot : k + ((((s.store.held runId).drop k).take cursor.batchLimit.toNat).take
        cursor.batchLimit.toNat).length
        = min (k + cursor.batchLimit.toNat) (s.store.held runId).length := by
      rw [List.length_take, List.length_take, List.length_drop]
      omega
    rw [hgot] at hinv
    refine ⟨hstore, hinv, hkept, ?_⟩
    intro hnone
    have hnil := congrArg List.length (hend hnone hopen le_rfl)
    rw [hstore, ← hgot, hnil]
    rw [List.length_take, List.length_take, List.length_drop, List.length_nil] at hnil
    rw [List.length_nil]
    omega

/-- So many polls bring so many pages. -/
theorem Reading.polls {limit : ℤ} (h : Reading runId limit k s) (hlimit : 1 ≤ limit) (n : ℕ) :
    let s' := run (Reconnecting.step source maxLimit runId) s
      (List.replicate n (.poll [] limit.toNat))
    s'.store = s.store
      ∧ Reading runId limit (min (k + n * limit.toNat) (s.store.held runId).length) s' := by
  induction n with
  | zero =>
    have hk : min (k + 0 * limit.toNat) (s.store.held runId).length = k := by
      have hle := h.le_length
      omega
    rw [hk]
    exact ⟨rfl, h⟩
  | succ n ih =>
    dsimp only at ih ⊢
    rw [List.replicate_succ', run_concat]
    obtain ⟨hstore, hpage⟩ := ih.2.poll source maxLimit hlimit
    refine ⟨hstore.trans ih.1, ?_⟩
    rw [ih.1] at hpage
    have hsum : min (k + (n + 1) * limit.toNat) (s.store.held runId).length
        = min (min (k + n * limit.toNat) (s.store.held runId).length + limit.toNat)
          (s.store.held runId).length := by
      rw [Nat.succ_mul]
      omega
    rw [hsum]
    exact hpage

/-- A stream that is opened is read from where the client is. -/
theorem Inv.reading (h : Inv runId k s) {query : Dict String (List String)}
    {headers : Dict String String} {cursor : EventCursor}
    (hstream : (serviceOf source maxLimit s.store).stream (s.request runId query headers)
      = .ok cursor) :
    Reading runId cursor.batchLimit k
      (Reconnecting.step source maxLimit runId s (.connect query headers))
      ∧ (Reconnecting.step source maxLimit runId s (.connect query headers)).store = s.store := by
  have hstep : Reconnecting.step source maxLimit runId s (.connect query headers)
      = { s with connection := some cursor } := by
    rw [Reconnecting.step, hstream]
  have hinv := h.connect source maxLimit query headers
  rw [hstep] at hinv ⊢
  refine ⟨⟨hinv, ?_, nofun⟩, rfl⟩
  intro cursor' heq
  obtain rfl := Option.some.inj heq
  have hparam : (s.request runId query headers).param "run_id" = .ok runId := rfl
  obtain ⟨-, -, since, limit, -, -, rfl⟩ := (MeterService.stream_eq_ok_iff hparam).mp hstream
  exact ⟨rfl, rfl⟩

/-- **Over all connections the client gets the events in order, each once**, and a new
connection that is left alone brings as many pages of the others as there are polls. -/
theorem received_once (source : DataSource) (maxLimit : ℤ) (runId : String)
    (store : WritableDataSource) (hstart : IsRun 1 ((store.held runId).map Event.seq))
    {moves : List Move} (hordered : EveryMove (InOrder source maxLimit runId store) moves) :
    let s := after source maxLimit runId store moves
    IsRun 1 (s.received.filterMap Frame.eventId)
      ∧ ∃ k ≤ (s.store.held runId).length,
        eventFrames s.received = ((s.store.held runId).take k).map eventFrame
          ∧ ∀ query headers cursor,
            (serviceOf source maxLimit s.store).stream (s.request runId query headers)
              = .ok cursor →
              1 ≤ cursor.batchLimit → ∀ n,
                eventFrames (run (step source maxLimit runId) s (.connect query headers
                    :: List.replicate n (.poll [] cursor.batchLimit.toNat))).received
                  = ((s.store.held runId).take (k + n * cursor.batchLimit.toNat)).map eventFrame := by
  obtain ⟨k, hk⟩ := inv_after source maxLimit hstart hordered
  dsimp only
  generalize after source maxLimit runId store moves = s at hk ⊢
  refine ⟨hk.eventIds.1, k, hk.le_length, hk.received, ?_⟩
  intro query headers cursor hstream hlimit n
  obtain ⟨hreading, hstore⟩ := hk.reading source maxLimit hstream
  obtain ⟨hstore', hpages⟩ := hreading.polls source maxLimit hlimit n
  have hreceived := hpages.received
  rw [hstore', hstore] at hreceived
  refine hreceived.trans ?_
  rw [← List.take_eq_take_min]

/-! ### A connection that breaks inside a page -/

/-- The first frame of a page of two arrives, and the rest on a new connection. -/
def breaksInside : List Move :=
  [.write [heartbeat 1, heartbeat 2, heartbeat 3],
    .connect ((∅ : Dict String (List String)).set "limit" ["2"]) ∅,
    .poll [heartbeat 4] 1, .connect ∅ ∅, .poll [] 5]

theorem received_once_breaksInside :
    let store := WritableDataSource.memory {}
    let s := after store.toDataSource MAX_LIMIT "run-1" store breaksInside
    IsRun 1 (s.received.filterMap Frame.eventId)
      ∧ s.received.filterMap Frame.eventId = [1, 2, 3, 4] :=
  ⟨(received_once _ MAX_LIMIT "run-1" (.memory {}) trivial (by decide +kernel)).1,
    by decide +kernel⟩

end Reconnecting

end TaskflowMeter
