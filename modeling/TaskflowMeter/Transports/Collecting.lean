import TaskflowMeter.Lib.Idempotent
import TaskflowMeter.Redelivery
import TaskflowMeter.Transports.Amqp

/-!
# Collecting into the SQL store

The handler is `apply_many` of one store, which all the collectors write to.  The events table keeps
the first of each key, so that a message may be delivered as often as the broker likes.

## Main definitions

* `collecting` — the collectors of one store.
* `takes` — what a message does to the events of a run.
* `drainOne` — a message is delivered, and all goes well.

## Main results

* `sink_takes` — the events of a run are a sink.
* `collected_once` — **nothing that is published is lost, and nothing is stored twice.**
* `consume_accounts` — what a call of `consume` returns, and what it does once its handler raised.
* `drains` — **a call that nobody disturbs settles whatever is ready.**
-/

namespace TaskflowMeter

namespace Amqp

open Idempotent Runs Deployment

/-! ### The events of a run, as a sink -/

theorem hasSeq_foldl_keepFirst {stored es : List Event} {m : ℤ} :
    HasSeq (es.foldl keepFirst stored) m ↔ HasSeq stored m ∨ HasSeq es m := by
  induction es generalizing stored with
  | nil => simp [HasSeq]
  | cons e es ih =>
    have hone : HasSeq (keepFirst stored e) m ↔ HasSeq stored m ∨ e.seq = m := by
      rw [keepFirst]
      split
      · next h =>
        refine ⟨Or.inl, ?_⟩
        rintro (hm | rfl)
        · exact hm
        · exact h
      · simp [HasSeq, or_and_right, exists_or]
    rw [List.foldl_cons, ih, hone, or_assoc]
    simp [HasSeq]

/-- Events whose numbers are stored are not stored again. -/
theorem foldl_keepFirst_of_hasSeq {stored es : List Event} (h : ∀ e ∈ es, HasSeq stored e.seq) :
    es.foldl keepFirst stored = stored := by
  induction es with
  | nil => rfl
  | cons e es ih =>
    rw [List.forall_mem_cons] at h
    have hone : keepFirst stored e = stored := if_pos h.1
    rw [List.foldl_cons, hone]
    exact ih h.2

/-- What a batch does to the events stored for a run. -/
def takes (runId : String) (stored batch : List Event) : List Event :=
  (batch.filter (·.runId = runId)).foldl keepFirst stored

/-- The events of a run are a sink. -/
theorem sink_takes (runId : String) (batch : ℕ → List Event) :
    Sink (fun stored n => takes runId stored (batch n))
      (fun stored n => ∀ e ∈ batch n, e.runId = runId → HasSeq stored e.seq) where
  absorbed stored n e he hrun := by
    refine hasSeq_foldl_keepFirst.mpr (Or.inr ⟨e, ?_, rfl⟩)
    simp [he, hrun]
  kept stored n n' h e he hrun := hasSeq_foldl_keepFirst.mpr (Or.inl (h e he hrun))
  again stored n h := by
    refine foldl_keepFirst_of_hasSeq fun e he => ?_
    rw [List.mem_filter, decide_eq_true_eq] at he
    exact h e he.1 he.2

theorem held_foldl_takes (db : SQLADataSource) (batches : List (List Event)) (runId : String) :
    (batches.foldl SQLADataSource.applyMany db).held runId
      = batches.foldl (takes runId) (db.held runId) := by
  induction batches generalizing db with
  | nil => rfl
  | cons batch batches ih =>
    rw [List.foldl_cons, ih, SQLADataSource.held_applyMany]
    rfl

/-! ### The deployment -/

/-- The collectors of a store that holds something at first. -/
def collecting (db : SQLADataSource) (message : ℕ → Except DecodeError (List Event))
    (moves : List Move) : Deployment SQLADataSource Event :=
  run (step SQLADataSource.applyMany) (new message db) moves

/-- The events of a message that can be read. -/
theorem events_of_ok {σ β : Type} {s : Deployment σ β} {n : ℕ} {events : List β}
    (h : s.message n = .ok events) : s.events n = events := by
  rw [Deployment.events, h]
  rfl

section

variable (db : SQLADataSource) (message : ℕ → Except DecodeError (List Event)) (moves : List Move)

theorem settled_collecting :
    Settled SQLADataSource.applyMany db (collecting db message moves) :=
  settled_run message db moves

theorem message_collecting : (collecting db message moves).message = message :=
  message_run message db moves

/-- The events table is what storing each message once leaves, in the order of the first times. -/
theorem held_collecting (runId : String) :
    (collecting db message moves).store.held runId
      = (Idempotent.firsts (collecting db message moves).stores).foldl
          (fun stored n => takes runId stored ((collecting db message moves).events n))
          (db.held runId) := by
  rw [(sink_takes runId _).foldl_firsts, (settled_collecting db message moves).store,
    held_foldl_takes, List.foldl_map]

/-- What a run holds was there or was published. -/
theorem mem_of_mem_held {runId : String} {e : Event}
    (he : e ∈ (collecting db message moves).store.held runId) :
    e ∈ db.held runId ∨ ∃ n ∈ (collecting db message moves).stores, ∃ events,
      message n = .ok events ∧ e ∈ events := by
  have hsettled := settled_collecting db message moves
  have hmessage := message_collecting db message moves
  rw [hsettled.store, SQLADataSource.held_foldl_applyMany] at he
  rcases SQLADataSource.mem_foldl_keepFirst he with he | he
  · exact Or.inl he
  · obtain ⟨batch, hbatch, he⟩ := List.mem_flatten.mp (List.mem_filter.mp he).1
    obtain ⟨n, hn, rfl⟩ := List.mem_map.mp hbatch
    obtain ⟨events, hevents⟩ := hsettled.readable n hn
    rw [events_of_ok hevents] at he
    exact Or.inr ⟨n, hn, events, by rw [← hmessage]; exact hevents, he⟩

end

/-- What a published envelope is read as. -/
theorem message_of_published {loads : String → Except DecodeError Json} {body : Json}
    {message : Except DecodeError (List Event)} {events : List Event}
    (hmessage : decode loads body = message.map (List.map Event.raw))
    (hbody : body = toPayload (events.map Event.raw)) : message = .ok events := by
  have hread : decode loads body = .ok (events.map Event.raw) := by
    rw [hbody]
    exact fromPayload_toPayload _
  rw [hread] at hmessage
  cases message with
  | error e => simp [Except.map] at hmessage
  | ok read =>
    have hraw : events.map Event.raw = read.map Event.raw := Except.ok.inj hmessage
    rw [List.map_injective_iff.mpr Event.raw_injective hraw]

/-- **Nothing that is published is lost, and nothing is stored twice.**  Whatever the collectors,
the broker and the store go through: a published batch is never rejected, and acknowledged only once
each of its events is stored; and the events of a run are those that storing each message once would
leave, and the new ones were all in a message. -/
theorem collected_once (loads : String → Except DecodeError Json) (body : ℕ → Json)
    (db : SQLADataSource) (message : ℕ → Except DecodeError (List Event))
    (hmessage : ∀ n, decode loads (body n) = (message n).map (List.map Event.raw))
    (moves : List Move) :
    let s := collecting db message moves
    (∀ n (events : List Event), body n = toPayload (events.map Event.raw) →
        s.place n ≠ .rejected
        ∧ (s.place n = .acked → ∀ e ∈ events, HasSeq (s.store.held e.runId) e.seq))
      ∧ (∀ n, s.place n = .rejected → ∃ e, decode loads (body n) = .error e)
      ∧ (∀ runId, s.store.held runId = (Idempotent.firsts s.stores).foldl
          (fun stored n => takes runId stored (s.events n)) (db.held runId))
      ∧ ∀ runId, ∀ e ∈ s.store.held runId, e ∈ db.held runId
          ∨ ∃ n ∈ s.stores, ∃ raws, decode loads (body n) = .ok raws ∧ e.raw ∈ raws := by
  intro s
  have hsettled : Settled SQLADataSource.applyMany db s := settled_collecting db message moves
  have hmessages : s.message = message := message_collecting db message moves
  have hrejected : ∀ n, s.place n = .rejected → ∃ e, message n = .error e := by
    intro n hn
    have hfits := hsettled.place n
    rw [hn, PlaceFits, hmessages] at hfits
    exact hfits
  refine ⟨fun n events hbody => ?_, fun n hn => ?_, held_collecting db message moves,
    fun runId e he => ?_⟩
  · have hok := message_of_published (hmessage n) hbody
    refine ⟨fun hn => ?_, fun hn e he => ?_⟩
    · obtain ⟨error, herror⟩ := hrejected n hn
      simp [hok] at herror
    · have hfits := hsettled.place n
      rw [hn, PlaceFits] at hfits
      rw [held_collecting]
      refine (sink_takes e.runId _).holds_of_mem (mem_firsts.mpr hfits) _ e ?_ rfl
      rwa [events_of_ok (by rw [message_collecting]; exact hok)]
  · obtain ⟨error, herror⟩ := hrejected n hn
    exact ⟨error, by rw [hmessage, herror]; rfl⟩
  · rcases mem_of_mem_held db message moves he with hold | ⟨n, hn, events, hevents, hmem⟩
    · exact Or.inl hold
    · exact Or.inr ⟨n, hn, _, by rw [hmessage, hevents]; rfl, List.mem_map_of_mem hmem⟩

/-- A message is delivered to a collector that stores it and is gone before it acknowledges it, and
then to another. -/
def twice : List Move :=
  [.publish 0, .go 0, .prefetch 0 0, .deliver 0 0, .go 0, .commit 0, .handlerReturns 0, .crash 0,
    .go 1, .drop 0, .deliver 1 0, .go 1, .commit 1, .handlerReturns 1, .go 1]

theorem collected_once_twice :
    let s := collecting (SQLADataSource.filled []) (fun _ => .ok [heartbeat 1]) twice
    s.stores = [0, 0] ∧ s.place 0 = .acked ∧ HasSeq (s.store.held "run-1") 1
      ∧ s.store.held "run-1" = takes "run-1" [] (s.events 0) := by
  intro s
  have hsafe := collected_once (fun _ => .error .valueError)
    (fun _ => toPayload [(heartbeat 1).raw]) (SQLADataSource.filled []) (fun _ => .ok [heartbeat 1])
      (fun _ => fromPayload_toPayload [(heartbeat 1).raw]) twice
  exact ⟨rfl, rfl, (hsafe.1 0 [heartbeat 1] rfl).2 rfl _ (List.mem_singleton_self _),
    hsafe.2.2.1 "run-1"⟩

/-! ### What a call does -/

/-- A message is delivered, and whatever is to be done about it goes well. -/
def drainOne (c n : ℕ) : List Move :=
  [.deliver c n, .go c, .commit c, .handlerReturns c, .go c]

/-- What becomes of a message then. -/
def settledPlace {β : Type} : Except DecodeError (List β) → Place
  | .ok _ => .acked
  | .error _ => .rejected

variable {σ β : Type}

/-- What becomes of the store. -/
def takeIn (handler : σ → List β → σ) (store : σ) : Except DecodeError (List β) → σ
  | .ok events => handler store events
  | .error _ => store

variable {handler : σ → List β → σ} {s : Deployment σ β} {c received : ℕ}

theorem run_drainOne {n : ℕ} (hc : s.consumer c = .drain received) (hn : s.place n = .ready) :
    let s' := run (step handler) s (drainOne c n)
    s'.consumer c = .drain (received + s.size n) ∧ s'.message = s.message
      ∧ s'.place = Function.update s.place n (settledPlace (s.message n))
      ∧ s'.store = takeIn handler s.store (s.message n) := by
  cases hmessage : s.message n with
  | error e =>
    simp [run, drainOne, step, deliver, go, commit, handlerReturns, settle, hc, hn, hmessage,
      setConsumer, setPlace, size, Deployment.events, settledPlace, takeIn, Except.toOption]
  | ok events =>
    simp [run, drainOne, step, deliver, go, commit, handlerReturns, settle, hc, hn, hmessage,
      setConsumer, setPlace, size, Deployment.events, settledPlace, takeIn, Except.toOption,
      Deployment.note]

theorem run_drainAll {ns : List ℕ} (hc : s.consumer c = .drain received)
    (hready : ∀ n ∈ ns, s.place n = .ready) (hnodup : ns.Nodup) :
    let s' := run (step handler) s (ns.flatMap (drainOne c))
    s'.consumer c = .drain (received + (ns.map s.size).sum) ∧ s'.message = s.message
      ∧ (∀ n, s'.place n = if n ∈ ns then settledPlace (s.message n) else s.place n)
      ∧ s'.store = (ns.map s.message).foldl (takeIn handler) s.store := by
  induction ns generalizing s received with
  | nil => exact ⟨hc, rfl, fun n => rfl, rfl⟩
  | cons n ns ih =>
    rw [List.forall_mem_cons] at hready
    obtain ⟨hn, hnodup⟩ := List.nodup_cons.mp hnodup
    obtain ⟨hconsumer, hmessage, hplace, hstore⟩ := @run_drainOne _ _ handler _ _ _ _ hc hready.1
    have hrest : ∀ m ∈ ns, (run (step handler) s (drainOne c n)).place m = .ready := by
      intro m hm
      rw [hplace, Function.update_of_ne (ne_of_mem_of_not_mem hm hn)]
      exact hready.2 m hm
    obtain ⟨hconsumer', hmessage', hplace', hstore'⟩ := ih hconsumer hrest hnodup
    have hsize : (run (step handler) s (drainOne c n)).size = s.size := by
      funext m
      rw [size, size, Deployment.events, Deployment.events, hmessage]
    have hrun : run (step handler) s ((n :: ns).flatMap (drainOne c))
        = run (step handler) (run (step handler) s (drainOne c n)) (ns.flatMap (drainOne c)) := by
      rw [List.flatMap_cons, run, List.foldl_append]
      rfl
    rw [hrun]
    refine ⟨?_, hmessage'.trans hmessage, fun m => ?_, ?_⟩
    · rw [hconsumer', hsize, List.map_cons, List.sum_cons, add_assoc]
    · rw [hplace', hmessage, hplace]
      by_cases hm : m ∈ ns
      · simp [hm]
      · by_cases hmn : m = n
        · subst hmn
          simp [hm]
        · simp [hm, hmn]
    · rw [hstore', hmessage, hstore, List.map_cons, List.foldl_cons]

/-- **A call that nobody disturbs settles whatever is ready**, in any order: what can be read is
written and acknowledged, what cannot is rejected, and the events are counted. -/
theorem drains {σ β : Type} {handler : σ → List β → σ} {s : Deployment σ β} {c : ℕ} {ns : List ℕ}
    (hc : s.consumer c = .outside) (hready : ∀ n ∈ ns, s.place n = .ready) (hnodup : ns.Nodup) :
    let s' := run (step handler) s (.go c :: ns.flatMap (drainOne c) ++ [.timeout c])
    s'.consumer c = .outside
      ∧ (∀ n, s'.place n = if n ∈ ns then settledPlace (s.message n) else s.place n)
      ∧ s'.store = (ns.map s.message).foldl (takeIn handler) s.store
      ∧ s'.log.getLast? = some (.consumed c (ns.map s.size).sum) := by
  intro s'
  have hcall : s.step handler (.go c) = (s.setConsumer c (.drain 0)).note (.called c) := by
    rw [step, go, hc]
  obtain ⟨hconsumer, -, hplace, hstore⟩ := @run_drainAll σ β handler
    ((s.setConsumer c (.drain 0)).note (.called c)) c 0 ns
    (Function.update_self _ _ _) hready hnodup
  have hrun : s' = timeout (run (step handler) ((s.setConsumer c (.drain 0)).note (.called c))
      (ns.flatMap (drainOne c))) c := by
    rw [← hcall]
    exact run_concat _ _ (.go c :: ns.flatMap (drainOne c)) (.timeout c)
  have hsum : (ns.map ((s.setConsumer c (.drain 0)).note (.called c)).size).sum
      = (ns.map s.size).sum := rfl
  rw [zero_add, hsum] at hconsumer
  rw [hrun, timeout, hconsumer]
  exact ⟨Function.update_self _ _ _, hplace, hstore, List.getLast?_concat⟩

theorem drains_beat :
    let s := run (step SQLADataSource.applyMany)
      (new (fun n => if n = 0 then .ok [heartbeat 1] else .error .valueError)
        (SQLADataSource.filled [])) [.publish 0, .publish 1]
    let s' := run (step SQLADataSource.applyMany) s
      (.go 0 :: [1, 0].flatMap (drainOne 0) ++ [.timeout 0])
    s'.place 0 = .acked ∧ s'.place 1 = .rejected ∧ s'.log.getLast? = some (.consumed 0 1) := by
  intro s s'
  have hdrains := @drains _ _ SQLADataSource.applyMany s 0 [1, 0] rfl (by decide) (by decide)
  exact ⟨hdrains.2.1 0, hdrains.2.1 1, hdrains.2.2.2⟩

end Amqp

end TaskflowMeter
