import TaskflowMeter.Lib.Runs
import TaskflowMeter.Transports.Base

/-!
# Collecting from a broker

Flows publish envelopes to a queue.  Any number of collectors consume them: each hands what it has
read to the handler, and settles the message by how the handler has ended.

What the broker and its client may do is a move of its own, at any time: messages are sent ahead of
being read, and may come back unread; and what has not been settled is ready again once the broker
sees that the connection is gone, which need not be when the collector stops reading.  A settlement
counts only over the connection that brought the message.

## Main definitions

* `Place` — where the broker has a message.
* `Consumer` — what a call of `consume` is to do next.
* `Deployment`, `Deployment.step` — the broker, the collectors and the store that they share.
* `Deployment.InHand`, `Deployment.Settled`, `Deployment.Counted` — what is known of them.

## Main results

* `storesPublished_run` — what is stored was published.
* `settled_run` — **a message is acknowledged only once it is stored, and rejected only if it
  cannot be read**.
* `counted_run` — **a call counts the events that its handler has taken**, and hands it nothing more
  once it has raised.
-/

namespace TaskflowMeter

namespace Amqp

open Runs

/-- Where the broker has a message. -/
inductive Place where
  | unpublished
  | ready
  /-- Sent to a collector, which has not read it. -/
  | prefetched (c : ℕ)
  /-- Read by a collector, whose connection is there and has not settled it. -/
  | unacked (c : ℕ)
  | acked
  | rejected
  deriving DecidableEq, Repr

/-- A message is with a collector that has not settled it. -/
def Place.WaitsFor (c : ℕ) (place : Place) : Prop := place = .prefetched c ∨ place = .unacked c

instance (c : ℕ) (place : Place) : Decidable (place.WaitsFor c) :=
  inferInstanceAs (Decidable (_ ∨ _))

/-- What `on_message` is to do next about its message. -/
inductive Phase where
  | decode
  | reject
  /-- The handler is running, and has written nothing. -/
  | handle
  /-- The handler is running, and its transaction has been committed. -/
  | committed
  | ack
  | requeue
  deriving DecidableEq, Repr

/-- What a call of `consume` is to do next, and how many events it has received. -/
inductive Consumer where
  /-- There is no call. -/
  | outside
  /-- It waits for what the connection brings. -/
  | drain (received : ℕ)
  | onMessage (n : ℕ) (phase : Phase) (received : ℕ)
  /-- It has given up. -/
  | leave (received : ℕ)
  deriving DecidableEq, Repr

namespace Consumer

def received? : Consumer → Option ℕ
  | outside => none
  | drain received | onMessage _ _ received | leave received => some received

/-- The message it has been given. -/
def message? : Consumer → Option ℕ
  | onMessage n _ _ => some n
  | outside | drain _ | leave _ => none

/-- The call is about to end, or has ended. -/
def Ending : Consumer → Prop
  | outside | onMessage _ .requeue _ | leave _ => True
  | _ => False

end Consumer

/-- What is to be seen of a run. -/
inductive Note where
  /-- `consume` was called. -/
  | called (c : ℕ)
  /-- The handler was called. -/
  | started (c n : ℕ)
  /-- The handler's transaction was committed. -/
  | stored (c n : ℕ)
  | handled (c n : ℕ)
  | raised (c n : ℕ)
  /-- `consume` returned. -/
  | consumed (c received : ℕ)
  deriving DecidableEq, Repr

/-- The collector that a note is about. -/
def Note.collector : Note → ℕ
  | called c | started c _ | stored c _ | handled c _ | raised c _ | consumed c _ => c

/-- The broker, the collectors, and the store that their handlers write to. -/
structure Deployment (σ β : Type) where
  /-- What `_decode` makes of the body of each message. -/
  message : ℕ → Except DecodeError (List β)
  place : ℕ → Place := fun _ => .unpublished
  consumer : ℕ → Consumer := fun _ => .outside
  store : σ
  log : List Note := []

inductive Move where
  | publish (n : ℕ)
  /-- A call of `consume` begins, or goes on. -/
  | go (c : ℕ)
  /-- The broker sends a message ahead, whether or not it is going to be read. -/
  | prefetch (c n : ℕ)
  /-- A message that was sent ahead comes back. -/
  | giveBack (c n : ℕ)
  /-- The connection brings a message. -/
  | deliver (c n : ℕ)
  /-- Nothing has arrived for a while. -/
  | timeout (c : ℕ)
  | commit (c : ℕ)
  | handlerReturns (c : ℕ)
  | handlerRaises (c : ℕ)
  /-- The connection fails, which `consume` catches. -/
  | lose (c : ℕ)
  /-- The process is gone, or `consume` is left by what nobody catches. -/
  | crash (c : ℕ)
  /-- The broker sees that a connection is gone: it was lost or closed, or the process has ended. -/
  | drop (c : ℕ)
  deriving DecidableEq, Repr

namespace Deployment

variable {σ β : Type} (handler : σ → List β → σ)

def note (s : Deployment σ β) (note : Note) : Deployment σ β := { s with log := s.log ++ [note] }

def setConsumer (s : Deployment σ β) (c : ℕ) (consumer : Consumer) : Deployment σ β :=
  { s with consumer := Function.update s.consumer c consumer }

def setPlace (s : Deployment σ β) (n : ℕ) (place : Place) : Deployment σ β :=
  { s with place := Function.update s.place n place }

/-- A collector settles a message, which the broker heeds if it still waits for that. -/
def settle (s : Deployment σ β) (c n : ℕ) (place : Place) : Deployment σ β :=
  { s with
    place := if s.place n = .unacked c then Function.update s.place n place else s.place }

/-- The broker sees that a connection is gone: what was not settled over it is ready again. -/
def drop (s : Deployment σ β) (c : ℕ) : Deployment σ β :=
  { s with place := fun n => if (s.place n).WaitsFor c then .ready else s.place n }

/-- The events of a message, if it has any. -/
def events (s : Deployment σ β) (n : ℕ) : List β := (s.message n).toOption.getD []

/-- `consume`, and the `on_message` inside it, one step of them. -/
def go (s : Deployment σ β) (c : ℕ) : Deployment σ β :=
  match s.consumer c with
  | .outside => (s.setConsumer c (.drain 0)).note (.called c)
  | .drain _ => s
  | .onMessage n .decode received =>
      match s.message n with
      | .error _ => s.setConsumer c (.onMessage n .reject received)
      | .ok _ => (s.setConsumer c (.onMessage n .handle received)).note (.started c n)
  | .onMessage n .reject received => (s.settle c n .rejected).setConsumer c (.drain received)
  | .onMessage _ .handle _ | .onMessage _ .committed _ => s
  | .onMessage n .ack received => (s.settle c n .acked).setConsumer c (.drain received)
  | .onMessage n .requeue received => (s.settle c n .ready).setConsumer c (.leave received)
  | .leave received => (s.setConsumer c .outside).note (.consumed c received)

def prefetch (s : Deployment σ β) (c n : ℕ) : Deployment σ β :=
  if s.place n = .ready then s.setPlace n (.prefetched c) else s

def giveBack (s : Deployment σ β) (c n : ℕ) : Deployment σ β :=
  if s.place n = .prefetched c then s.setPlace n .ready else s

/-- `drain_events` hands over a message, in whatever order they come. -/
def deliver (s : Deployment σ β) (c n : ℕ) : Deployment σ β :=
  match s.consumer c with
  | .drain received =>
      if s.place n = .ready ∨ s.place n = .prefetched c then
        (s.setPlace n (.unacked c)).setConsumer c (.onMessage n .decode received)
      else s
  | _ => s

def timeout (s : Deployment σ β) (c : ℕ) : Deployment σ β :=
  match s.consumer c with
  | .drain received => (s.setConsumer c .outside).note (.consumed c received)
  | _ => s

def commit (s : Deployment σ β) (c : ℕ) : Deployment σ β :=
  match s.consumer c with
  | .onMessage n .handle received =>
      { s.setConsumer c (.onMessage n .committed received) with
        store := handler s.store (s.events n)
        log := s.log ++ [.stored c n] }
  | _ => s

def handlerReturns (s : Deployment σ β) (c : ℕ) : Deployment σ β :=
  match s.consumer c with
  | .onMessage n .committed received =>
      (s.setConsumer c (.onMessage n .ack (received + (s.events n).length))).note (.handled c n)
  | _ => s

/-- The handler raises, whether or not its transaction was committed. -/
def handlerRaises (s : Deployment σ β) (c : ℕ) : Deployment σ β :=
  match s.consumer c with
  | .onMessage n .handle received | .onMessage n .committed received =>
      (s.setConsumer c (.onMessage n .requeue received)).note (.raised c n)
  | _ => s

/-- An `OSError` while draining, or while a message is settled. -/
def lose (s : Deployment σ β) (c : ℕ) : Deployment σ β :=
  match s.consumer c with
  | .drain received | .onMessage _ .reject received | .onMessage _ .ack received
  | .onMessage _ .requeue received => (s.setConsumer c .outside).note (.consumed c received)
  | _ => s

/-- Nothing becomes of the message before the broker sees that the connection is gone. -/
def crash (s : Deployment σ β) (c : ℕ) : Deployment σ β := s.setConsumer c .outside

def publish (s : Deployment σ β) (n : ℕ) : Deployment σ β :=
  if s.place n = .unpublished then s.setPlace n .ready else s

/-- One step of one party. -/
def step (s : Deployment σ β) : Move → Deployment σ β
  | .publish n => s.publish n
  | .go c => s.go c
  | .prefetch c n => s.prefetch c n
  | .giveBack c n => s.giveBack c n
  | .deliver c n => s.deliver c n
  | .timeout c => s.timeout c
  | .commit c => s.commit handler c
  | .handlerReturns c => s.handlerReturns c
  | .handlerRaises c => s.handlerRaises c
  | .lose c => s.lose c
  | .crash c => s.crash c
  | .drop c => s.drop c

/-! ### What a step does -/

/-- **What a step does**, if it does anything. -/
inductive Does (s : Deployment σ β) : Deployment σ β → Prop
  | publish {n : ℕ} (h : s.place n = .unpublished) : Does s (s.setPlace n .ready)
  | call {c : ℕ} (h : s.consumer c = .outside) :
      Does s ((s.setConsumer c (.drain 0)).note (.called c))
  | prefetch {c n : ℕ} (h : s.place n = .ready) : Does s (s.setPlace n (.prefetched c))
  | giveBack {c n : ℕ} (h : s.place n = .prefetched c) : Does s (s.setPlace n .ready)
  | deliver {c n received : ℕ} (h : s.consumer c = .drain received)
      (hn : s.place n = .ready ∨ s.place n = .prefetched c) :
      Does s ((s.setPlace n (.unacked c)).setConsumer c (.onMessage n .decode received))
  | unreadable {c n received : ℕ} {e : DecodeError}
    (h : s.consumer c = .onMessage n .decode received)
      (hn : s.message n = .error e) : Does s (s.setConsumer c (.onMessage n .reject received))
  | start {c n received : ℕ} {events : List β}
      (h : s.consumer c = .onMessage n .decode received) (hn : s.message n = .ok events) :
      Does s ((s.setConsumer c (.onMessage n .handle received)).note (.started c n))
  | commit {c n received : ℕ} (h : s.consumer c = .onMessage n .handle received) :
      Does s
        { s.setConsumer c (.onMessage n .committed received) with
          store := handler s.store (s.events n)
          log := s.log ++ [.stored c n] }
  | returned {c n received : ℕ} (h : s.consumer c = .onMessage n .committed received) :
      Does s ((s.setConsumer c (.onMessage n .ack (received + (s.events n).length))).note
        (.handled c n))
  | raised {c n received : ℕ} {phase : Phase} (h : s.consumer c = .onMessage n phase received)
      (hphase : phase = .handle ∨ phase = .committed) :
      Does s ((s.setConsumer c (.onMessage n .requeue received)).note (.raised c n))
  | reject {c n received : ℕ} (h : s.consumer c = .onMessage n .reject received) :
      Does s ((s.settle c n .rejected).setConsumer c (.drain received))
  | ack {c n received : ℕ} (h : s.consumer c = .onMessage n .ack received) :
      Does s ((s.settle c n .acked).setConsumer c (.drain received))
  | requeue {c n received : ℕ} (h : s.consumer c = .onMessage n .requeue received) :
      Does s ((s.settle c n .ready).setConsumer c (.leave received))
  | leave {c received : ℕ} (h : (s.consumer c).received? = some received) :
      Does s ((s.setConsumer c .outside).note (.consumed c received))
  | crash {c : ℕ} : Does s (s.setConsumer c .outside)
  | drop {c : ℕ} : Does s (s.drop c)

theorem step_cases (s : Deployment σ β) (m : Move) :
    s.step handler m = s ∨ Does handler s (s.step handler m) := by
  cases m with
  | publish n =>
    rw [step, publish]
    split
    · next h => exact Or.inr (.publish h)
    · exact Or.inl rfl
  | go c =>
    rw [step, go]
    split
    · next h => exact Or.inr (.call h)
    · exact Or.inl rfl
    · next h =>
      split
      · next hn => exact Or.inr (.unreadable h hn)
      · next hn => exact Or.inr (.start h hn)
    · next h => exact Or.inr (.reject h)
    · exact Or.inl rfl
    · exact Or.inl rfl
    · next h => exact Or.inr (.ack h)
    · next h => exact Or.inr (.requeue h)
    · next h => exact Or.inr (.leave (by rw [h]; rfl))
  | prefetch c n =>
    rw [step, prefetch]
    split
    · next h => exact Or.inr (.prefetch h)
    · exact Or.inl rfl
  | giveBack c n =>
    rw [step, giveBack]
    split
    · next h => exact Or.inr (.giveBack h)
    · exact Or.inl rfl
  | deliver c n =>
    rw [step, deliver]
    split
    · next h =>
      split
      · next hn => exact Or.inr (.deliver h hn)
      · exact Or.inl rfl
    · exact Or.inl rfl
  | timeout c =>
    rw [step, timeout]
    split
    · next h => exact Or.inr (.leave (by rw [h]; rfl))
    · exact Or.inl rfl
  | commit c =>
    rw [step, commit]
    split
    · next h => exact Or.inr (.commit h)
    · exact Or.inl rfl
  | handlerReturns c =>
    rw [step, handlerReturns]
    split
    · next h => exact Or.inr (.returned h)
    · exact Or.inl rfl
  | handlerRaises c =>
    rw [step, handlerRaises]
    split
    · next h => exact Or.inr (.raised h (Or.inl rfl))
    · next h => exact Or.inr (.raised h (Or.inr rfl))
    · exact Or.inl rfl
  | lose c =>
    rw [step, lose]
    split
    · next h => exact Or.inr (.leave (by rw [h]; rfl))
    · next h => exact Or.inr (.leave (by rw [h]; rfl))
    · next h => exact Or.inr (.leave (by rw [h]; rfl))
    · next h => exact Or.inr (.leave (by rw [h]; rfl))
    · exact Or.inl rfl
  | crash c => exact Or.inr .crash
  | drop c => exact Or.inr .drop


variable {handler} {s s' : Deployment σ β}

/-- Where a message may be after a settlement. -/
theorem settle_place (c n : ℕ) (place : Place) (m : ℕ) :
    (s.settle c n place).place m = s.place m
      ∨ m = n ∧ s.place n = .unacked c ∧ (s.settle c n place).place m = place := by
  rw [settle]
  dsimp only
  split
  · next h =>
    by_cases hm : m = n
    · subst hm
      exact Or.inr ⟨rfl, h, Function.update_self ..⟩
    · exact Or.inl (Function.update_of_ne hm ..)
  · exact Or.inl rfl

/-- Where a message may be once a connection is gone. -/
theorem drop_place (c n : ℕ) : (s.drop c).place n = s.place n
    ∨ (s.place n).WaitsFor c ∧ (s.drop c).place n = .ready := by
  rw [drop]
  dsimp only
  split
  · next h => exact Or.inr ⟨h, rfl⟩
  · exact Or.inl rfl

/-! ### What becomes of a message -/

/-- The messages whose events were written, in that order. -/
def stores (s : Deployment σ β) : List ℕ :=
  s.log.filterMap fun note => match note with
    | .stored _ n => some n
    | _ => none

/-- What a place says of a message. -/
def PlaceFits (s : Deployment σ β) (n : ℕ) : Place → Prop
  | .rejected => ∃ e, s.message n = .error e
  | .acked => n ∈ s.stores
  | _ => True

/-- What a phase says of a message. -/
def PhaseFits (s : Deployment σ β) (n : ℕ) : Phase → Prop
  | .reject => ∃ e, s.message n = .error e
  | .handle => ∃ events, s.message n = .ok events
  | .committed | .ack => n ∈ s.stores
  | .decode | .requeue => True

def ConsumerFits (s : Deployment σ β) : Consumer → Prop
  | .onMessage n phase _ => s.PhaseFits n phase
  | _ => True

/-- What is known of the messages and of the store. -/
structure Settled (handler : σ → List β → σ) (init : σ) (s : Deployment σ β) : Prop where
  place : ∀ n, s.PlaceFits n (s.place n)
  consumer : ∀ c, s.ConsumerFits (s.consumer c)
  readable : ∀ n ∈ s.stores, ∃ events, s.message n = .ok events
  store : s.store = (s.stores.map s.events).foldl handler init

variable {init : σ}

theorem stores_note (s : Deployment σ β) (note : Note) :
    (s.note note).stores = match note with
      | .stored _ n => s.stores ++ [n]
      | _ => s.stores := by
  rw [stores, Deployment.note, List.filterMap_append]
  cases note <;> simp [stores]

/-- A step that writes nothing to the store. -/
theorem Settled.change (h : Settled handler init s) (hmessage : s'.message = s.message)
    (hstores : s'.stores = s.stores) (hstore : s'.store = s.store)
    (hplace : ∀ n, s'.place n = s.place n ∨ s.PlaceFits n (s'.place n))
    (hconsumer : ∀ c, s'.consumer c = s.consumer c ∨ s.ConsumerFits (s'.consumer c)) :
    Settled handler init s' := by
  have hphase : ∀ n phase, s'.PhaseFits n phase = s.PhaseFits n phase := by
    intro n phase
    cases phase <;> simp only [PhaseFits, hmessage, hstores]
  refine ⟨fun n => ?_, fun c => ?_, ?_, ?_⟩
  · have hfits : s'.PlaceFits n (s'.place n) = s.PlaceFits n (s'.place n) := by
      cases s'.place n <;> simp only [PlaceFits, hmessage, hstores]
    rw [hfits]
    rcases hplace n with heq | hp
    · rw [heq]
      exact h.place n
    · exact hp
  · have hfits : s'.ConsumerFits (s'.consumer c) = s.ConsumerFits (s'.consumer c) := by
      cases s'.consumer c <;> simp only [ConsumerFits, hphase]
    rw [hfits]
    rcases hconsumer c with heq | hc
    · rw [heq]
      exact h.consumer c
    · exact hc
  · rw [hstores, hmessage]
    exact h.readable
  · have hevents : s'.events = s.events := by
      funext n
      rw [events, events, hmessage]
    rw [hstore, hstores, hevents]
    exact h.store

/-- One entry of a table is replaced. -/
theorem update_or {β : Type*} {f : ℕ → β} {i : ℕ} {b : β} {P : ℕ → β → Prop} (hb : P i b) (j : ℕ) :
    Function.update f i b j = f j ∨ P j (Function.update f i b j) := by
  by_cases hj : j = i
  · subst hj
    rw [Function.update_self]
    exact Or.inr hb
  · exact Or.inl (Function.update_of_ne hj b f)

/-- A collector goes on, and may write a note. -/
theorem Settled.goOn (h : Settled handler init s) {c : ℕ} {k : Consumer}
    (hmessage : s'.message = s.message) (hstores : s'.stores = s.stores)
    (hstore : s'.store = s.store) (hplace : s'.place = s.place)
    (hconsumer : s'.consumer = Function.update s.consumer c k) (hk : s.ConsumerFits k) :
    Settled handler init s' := by
  refine h.change hmessage hstores hstore (fun n => Or.inl (by rw [hplace])) ?_
  rw [hconsumer]
  exact update_or (P := fun _ => s.ConsumerFits) hk

/-- The broker moves a message. -/
theorem Settled.setPlace (h : Settled handler init s) {n : ℕ} {place : Place}
    (hn : s.PlaceFits n place) : Settled handler init (s.setPlace n place) :=
  h.change rfl rfl rfl (update_or hn) fun _ => Or.inl rfl

/-- A collector settles a message. -/
theorem Settled.settle (h : Settled handler init s) {c n : ℕ} {k : Consumer} {place : Place}
    (hn : s.PlaceFits n place) (hk : s.ConsumerFits k) :
    Settled handler init ((s.settle c n place).setConsumer c k) := by
  refine h.change rfl rfl rfl (fun m => ?_) (update_or (P := fun _ => s.ConsumerFits) hk)
  rcases s.settle_place c n place m with heq | ⟨rfl, -, heq⟩
  · exact Or.inl heq
  · refine Or.inr ?_
    show s.PlaceFits m ((s.settle c m place).place m)
    rwa [heq]

/-- **The handler's transaction is committed.** -/
theorem Settled.commit (h : Settled handler init s) {c n received : ℕ}
    (hc : s.consumer c = .onMessage n .handle received) :
    Settled handler init
      { s.setConsumer c (.onMessage n .committed received) with
        store := handler s.store (s.events n)
        log := s.log ++ [.stored c n] } := by
  have hstores : Deployment.stores
      { s.setConsumer c (.onMessage n .committed received) with
        store := handler s.store (s.events n)
        log := s.log ++ [.stored c n] } = s.stores ++ [n] := s.stores_note (.stored c n)
  have hmore : ∀ m, m ∈ s.stores → m ∈ s.stores ++ [n] := fun m hm => List.mem_append_left _ hm
  have hphase := h.consumer c
  rw [hc] at hphase
  refine ⟨fun m => ?_, fun c' => ?_, ?_, ?_⟩
  · have hm := h.place m
    show PlaceFits _ m (s.place m)
    revert hm
    cases s.place m <;> simp only [PlaceFits, hstores] <;> first | exact id | exact hmore m
  · show ConsumerFits _ (Function.update s.consumer c _ c')
    by_cases hc' : c' = c
    · subst hc'
      rw [Function.update_self, ConsumerFits, PhaseFits, hstores]
      exact List.mem_append_right _ (List.mem_singleton_self n)
    · rw [Function.update_of_ne hc']
      have hfits := h.consumer c'
      revert hfits
      cases s.consumer c' with
      | onMessage m phase received' =>
        cases phase <;> simp only [ConsumerFits, PhaseFits, hstores] <;>
          first | exact id | exact hmore m
      | _ => exact id
  · rw [hstores, List.forall_mem_append]
    exact ⟨h.readable, List.forall_mem_singleton.mpr hphase⟩
  · rw [hstores, List.map_append, List.foldl_append, List.map_singleton, List.foldl_cons,
      List.foldl_nil]
    exact congrArg (handler · (s.events n)) h.store

theorem Settled.does (h : Settled handler init s) (hd : Does handler s s') :
    Settled handler init s' := by
  cases hd with
  | publish | prefetch | giveBack => exact h.setPlace trivial
  | call hc => exact h.goOn rfl (s.stores_note _) rfl rfl rfl trivial
  | deliver hc hn =>
    refine h.change rfl rfl rfl (update_or trivial) ?_
    exact update_or (P := fun _ => s.ConsumerFits) trivial
  | unreadable hc hn => exact h.goOn rfl rfl rfl rfl rfl ⟨_, hn⟩
  | start hc hn => exact h.goOn rfl (s.stores_note _) rfl rfl rfl ⟨_, hn⟩
  | commit hc => exact h.commit hc
  | @returned c n received hc =>
    have hphase := h.consumer c
    rw [hc] at hphase
    exact h.goOn rfl (s.stores_note _) rfl rfl rfl hphase
  | raised hc hphase => exact h.goOn rfl (s.stores_note _) rfl rfl rfl trivial
  | @reject c n received hc =>
    have hphase := h.consumer c
    rw [hc] at hphase
    exact h.settle hphase trivial
  | @ack c n received hc =>
    have hphase := h.consumer c
    rw [hc] at hphase
    exact h.settle hphase trivial
  | requeue hc => exact h.settle trivial trivial
  | leave hc => exact h.goOn rfl (s.stores_note _) rfl rfl rfl trivial
  | crash => exact h.goOn rfl rfl rfl rfl rfl trivial
  | @drop c =>
    refine h.change rfl rfl rfl (fun n => ?_) fun _ => Or.inl rfl
    rcases s.drop_place c n with heq | ⟨-, heq⟩
    · exact Or.inl heq
    · rw [heq]
      exact Or.inr trivial

/-! ### What was published -/

/-- A message that was published remains so. -/
theorem Does.published (hd : Does handler s s') {n : ℕ} (hn : s.place n ≠ .unpublished) :
    s'.place n ≠ .unpublished := by
  have hset : ∀ {m : ℕ} {place : Place}, place ≠ .unpublished →
      Function.update s.place m place n ≠ .unpublished := by
    intro m place hplace
    rw [Function.update_apply]
    split
    · exact hplace
    · exact hn
  have hsettle : ∀ {c m : ℕ} {place : Place}, place ≠ .unpublished →
      (s.settle c m place).place n ≠ .unpublished := by
    intro c m place hplace
    rcases s.settle_place c m place n with heq | ⟨-, -, heq⟩ <;> rw [heq]
    · exact hn
    · exact hplace
  cases hd with
  | publish | prefetch | giveBack | deliver => exact hset (by simp)
  | reject | ack | requeue => exact hsettle (by simp)
  | @drop c =>
    rcases s.drop_place c n with heq | ⟨-, heq⟩ <;> rw [heq]
    · exact hn
    · simp
  | _ => exact hn

/-- Only a publisher publishes. -/
theorem step_unpublished {m : Move} (hm : ∀ n, m ≠ .publish n) {n : ℕ}
    (hn : s.place n = .unpublished) : (s.step handler m).place n = .unpublished := by
  have hset : ∀ {n' : ℕ} {place : Place}, s.place n' ≠ .unpublished →
      Function.update s.place n' place n = .unpublished := by
    intro n' place hn'
    rw [Function.update_of_ne, hn]
    rintro rfl
    exact hn' hn
  have hsettle : ∀ {c n' : ℕ} {place : Place}, (s.settle c n' place).place n = .unpublished := by
    intro c n' place
    rcases s.settle_place c n' place n with heq | ⟨rfl, hwaits, -⟩
    · rwa [heq]
    · simp [hn] at hwaits
  cases m with
  | publish n' => exact absurd rfl (hm n')
  | go c =>
    rw [step, go]
    split
    · exact hn
    · exact hn
    · split <;> exact hn
    · exact hsettle
    · exact hn
    · exact hn
    · exact hsettle
    · exact hsettle
    · exact hn
  | prefetch c n' =>
    rw [step, prefetch]
    split
    · next hready => exact hset (by simp [hready])
    · exact hn
  | giveBack c n' =>
    rw [step, giveBack]
    split
    · next hsent => exact hset (by simp [hsent])
    · exact hn
  | deliver c n' =>
    rw [step, deliver]
    split
    · split
      · next hready => exact hset (by rcases hready with hready | hready <;> simp [hready])
      · exact hn
    · exact hn
  | timeout c =>
    rw [step, timeout]
    split <;> exact hn
  | commit c =>
    rw [step, commit]
    split <;> exact hn
  | handlerReturns c =>
    rw [step, handlerReturns]
    split <;> exact hn
  | handlerRaises c =>
    rw [step, handlerRaises]
    split <;> exact hn
  | lose c =>
    rw [step, lose]
    split <;> exact hn
  | crash c => exact hn
  | drop c =>
    rcases s.drop_place c n with heq | ⟨hwaits, -⟩
    · exact heq.trans hn
    · simp [Place.WaitsFor, hn] at hwaits

/-- What a collector has was published. -/
def InHand (s : Deployment σ β) : Prop :=
  ∀ c n, (s.consumer c).message? = some n → s.place n ≠ .unpublished

/-- A collector goes on with the message that it has, or without one. -/
theorem InHand.keep (h : InHand s) (hd : Does handler s s') {c : ℕ} {k : Consumer}
    (hconsumer : s'.consumer = Function.update s.consumer c k)
    (hk : k.message? = none ∨ k.message? = (s.consumer c).message?) : InHand s' := by
  intro c' n hn
  refine hd.published (h c' n ?_)
  rw [hconsumer, Function.update_apply] at hn
  split at hn
  · next hc =>
    subst hc
    rcases hk with hk | hk
    · simp [hk] at hn
    · exact hk ▸ hn
  · exact hn

theorem InHand.does (h : InHand s) (hd : Does handler s s') : InHand s' := by
  have hsame : s'.consumer = s.consumer → InHand s' :=
    fun heq c n hn => hd.published (h c n (heq ▸ hn))
  have hkeep : ∀ {c k}, s'.consumer = Function.update s.consumer c k →
      k.message? = none ∨ k.message? = (s.consumer c).message? → InHand s' := h.keep hd
  cases hd with
  | publish | prefetch | giveBack | drop => exact hsame rfl
  | @deliver c n received hc hn =>
    intro c' n' hn'
    show Function.update s.place n (.unacked c) n' ≠ .unpublished
    by_cases hne : n' = n
    · subst hne
      simp
    · rw [Function.update_of_ne hne]
      refine h c' n' ?_
      by_cases hc' : c' = c
      · subst hc'
        exact absurd (Option.some.inj ((congrArg Consumer.message?
          (Function.update_self c' _ s.consumer)).symm.trans hn')).symm hne
      · exact (congrArg Consumer.message? (Function.update_of_ne hc' _ s.consumer)).symm.trans hn'
  | call hc => exact hkeep rfl (Or.inl rfl)
  | unreadable hc hn | start hc hn | commit hc | returned hc | raised hc hphase =>
    exact hkeep rfl (Or.inr (by rw [hc]; rfl))
  | reject | ack | requeue | leave | crash => exact hkeep rfl (Or.inl rfl)

/-- A collector stores the message that it has. -/
theorem Does.stores (hd : Does handler s s') :
    s'.stores = s.stores
      ∨ ∃ c n, (s.consumer c).message? = some n ∧ s'.stores = s.stores ++ [n] := by
  cases hd with
  | @commit c n received hc => exact .inr ⟨c, n, by rw [hc]; rfl, s.stores_note (.stored c n)⟩
  | call | start | returned | raised | leave => exact .inl (s.stores_note _)
  | _ => exact .inl rfl

/-- What is stored was published. -/
def StoresPublished (s : Deployment σ β) : Prop := ∀ n ∈ s.stores, s.place n ≠ .unpublished

theorem StoresPublished.does (h : StoresPublished s) (hhand : InHand s)
    (hd : Does handler s s') : StoresPublished s' := by
  intro n hn
  apply hd.published
  rcases hd.stores with heq | ⟨c, m, hm, heq⟩
  · rw [heq] at hn
    exact h n hn
  · rw [heq, List.mem_append, List.mem_singleton] at hn
    rcases hn with hn | rfl
    · exact h n hn
    · exact hhand c n hm

/-! ### What a call counts -/

/-- What was noted since a collector last called `consume`. -/
def sinceCall (c : ℕ) (log : List Note) : List Note :=
  log.foldl (fun notes note => if note = .called c then [] else notes ++ [note]) []

theorem sinceCall_concat (c : ℕ) (log : List Note) (note : Note) :
    sinceCall c (log ++ [note]) = if note = .called c then [] else sinceCall c log ++ [note] := by
  rw [sinceCall, List.foldl_append]
  rfl

/-- The messages that its handler has taken since. -/
def handledSince (c : ℕ) (log : List Note) : List ℕ :=
  (sinceCall c log).filterMap fun note => match note with
    | .handled c' n => if c' = c then some n else none
    | _ => none

/-- How many events a message has. -/
def size (s : Deployment σ β) (n : ℕ) : ℕ := (s.events n).length

/-- How many events the handler of a collector has taken since it called `consume`. -/
def taken (s : Deployment σ β) (c : ℕ) : ℕ := ((handledSince c s.log).map s.size).sum

/-- Its handler has raised since. -/
def HasRaised (c : ℕ) (log : List Note) : Prop := ∃ n, .raised c n ∈ sinceCall c log

/-- A note is right when it is written. -/
def NoteFits (size : ℕ → ℕ) (log : List Note) : Note → Prop
  | .consumed c received => received = ((handledSince c log).map size).sum
  | .started c _ => ¬HasRaised c log
  | _ => True

/-- What is known of the calls. -/
structure Counted (s : Deployment σ β) : Prop where
  received : ∀ c received, (s.consumer c).received? = some received → received = s.taken c
  ending : ∀ c, HasRaised c s.log → Consumer.Ending (s.consumer c)
  notes : EveryMove (NoteFits s.size) s.log

theorem handledSince_concat (c : ℕ) (log : List Note) (note : Note) :
    handledSince c (log ++ [note]) = match note with
      | .called c' => if c' = c then [] else handledSince c log
      | .handled c' n => if c' = c then handledSince c log ++ [n] else handledSince c log
      | _ => handledSince c log := by
  rw [handledSince, sinceCall_concat]
  cases note with
  | called c' =>
    by_cases hc : c' = c
    · simp [hc]
    · simp [hc, handledSince]
  | handled c' n =>
    rw [if_neg (by simp), List.filterMap_append]
    by_cases hc : c' = c <;> simp [hc, handledSince]
  | _ => simp [handledSince]

theorem hasRaised_concat (c : ℕ) (log : List Note) (note : Note) :
    HasRaised c (log ++ [note]) ↔ match note with
      | .called c' => c' ≠ c ∧ HasRaised c log
      | .raised c' _ => c' = c ∨ HasRaised c log
      | _ => HasRaised c log := by
  rw [HasRaised, sinceCall_concat]
  cases note with
  | called c' =>
    by_cases hc : c' = c
    · simp [hc]
    · simp [hc, HasRaised]
  | raised c' n =>
    simp only [reduceCtorEq, if_false, List.mem_append, List.mem_singleton, Note.raised.injEq,
      exists_or, HasRaised]
    rw [or_comm]
    refine or_congr_left ?_
    exact ⟨fun ⟨_, h, _⟩ => h.symm, fun h => ⟨n, h.symm, rfl⟩⟩
  | _ => simp [HasRaised]

/-- A note about one collector says nothing of what the others count. -/
theorem taken_note_of_ne {note : Note} {c : ℕ} (hc : note.collector ≠ c) (log : List Note) :
    handledSince c (log ++ [note]) = handledSince c log
      ∧ (HasRaised c (log ++ [note]) ↔ HasRaised c log) := by
  rw [handledSince_concat, hasRaised_concat]
  cases note <;> simp_all [Note.collector]

/-- **A collector goes on**, and may write a note. -/
theorem Counted.change (h : Counted s) (c : ℕ) {k : Consumer} {notes : List Note}
    (hmessage : s'.message = s.message)
    (hconsumer : s'.consumer = Function.update s.consumer c k) (hlog : s'.log = s.log ++ notes)
    (hnotes : notes = [] ∨ ∃ note, notes = [note] ∧ note.collector = c ∧ NoteFits s.size s.log note)
    (hreceived : ∀ received, k.received? = some received → received = s'.taken c)
    (hending : HasRaised c s'.log → k.Ending) : Counted s' := by
  have hsize : s'.size = s.size := by
    funext n
    rw [size, size, events, events, hmessage]
  have hothers : ∀ c', c' ≠ c → s'.taken c' = s.taken c'
      ∧ (HasRaised c' s'.log ↔ HasRaised c' s.log) := by
    intro c' hc'
    rw [taken, taken, hsize, hlog]
    rcases hnotes with rfl | ⟨note, rfl, hcollector, -⟩
    · rw [List.append_nil]
      exact ⟨rfl, Iff.rfl⟩
    · obtain ⟨htaken, hraised⟩ := @taken_note_of_ne note c'
        (by rw [hcollector]; exact hc'.symm) s.log
      rw [htaken]
      exact ⟨rfl, hraised⟩
  refine ⟨fun c' received heq => ?_, fun c' hraised => ?_, ?_⟩
  · by_cases hc' : c' = c
    · subst hc'
      rw [hconsumer, Function.update_self] at heq
      exact hreceived received heq
    · rw [hconsumer, Function.update_of_ne hc'] at heq
      rw [(hothers c' hc').1]
      exact h.received c' received heq
  · by_cases hc' : c' = c
    · subst hc'
      rw [hconsumer, Function.update_self]
      exact hending hraised
    · rw [hconsumer, Function.update_of_ne hc']
      exact h.ending c' ((hothers c' hc').2.mp hraised)
  · rw [hsize, hlog]
    rcases hnotes with rfl | ⟨note, rfl, -, hfits⟩
    · rw [List.append_nil]
      exact h.notes
    · exact everyMove_concat.mpr ⟨h.notes, hfits⟩

theorem Counted.not_hasRaised (h : Counted s) {c : ℕ} (hc : ¬(s.consumer c).Ending) :
    ¬HasRaised c s.log := fun hraised => hc (h.ending c hraised)

/-- A collector goes on, and counts nothing. -/
theorem Counted.goOn (h : Counted s) {c received : ℕ} {k : Consumer}
    (hmessage : s'.message = s.message)
    (hconsumer : s'.consumer = Function.update s.consumer c k) (hlog : s'.log = s.log)
    (hc : (s.consumer c).received? = some received) (hk : k.received? = some received)
    (hending : (s.consumer c).Ending → k.Ending) : Counted s' := by
  have htaken : s'.taken c = s.taken c := by
    have hsize : s'.size = s.size := by
      funext n
      rw [size, size, events, events, hmessage]
    rw [taken, taken, hlog, hsize]
  refine h.change c hmessage hconsumer (by rw [hlog, List.append_nil]) (Or.inl rfl) ?_ ?_
  · intro received' heq
    rw [htaken, ← h.received c received hc]
    exact Option.some.inj (heq.symm.trans hk)
  · rw [hlog]
    exact fun hraised => hending (h.ending c hraised)

/-- A collector makes a note of what it does, which its own count takes in. -/
theorem Counted.noted (h : Counted s) {c : ℕ} {k : Consumer} {note : Note}
    (hcollector : note.collector = c) (hfits : NoteFits s.size s.log note)
    (hreceived : ∀ received, k.received? = some received →
      received = ((handledSince c (s.log ++ [note])).map s.size).sum)
    (hending : HasRaised c (s.log ++ [note]) → k.Ending) :
    Counted ((s.setConsumer c k).note note) :=
  h.change c rfl rfl rfl (Or.inr ⟨note, rfl, hcollector, hfits⟩) hreceived hending

theorem Counted.does (h : Counted s) (hd : Does handler s s') : Counted s' := by
  cases hd with
  | publish | prefetch | giveBack | drop => exact ⟨h.received, h.ending, h.notes⟩
  | @call c hc =>
    refine h.noted rfl trivial ?_ fun _ => ?_
    · intro received heq
      rw [handledSince_concat, ← Option.some.inj heq]
      simp
    · have hnot : ¬HasRaised c (s.log ++ [.called c]) := by
        rw [hasRaised_concat]
        simp
      contradiction
  | deliver hc hn => exact h.goOn rfl rfl rfl (by rw [hc]; rfl) rfl (by rw [hc]; exact id)
  | unreadable hc hn => exact h.goOn rfl rfl rfl (by rw [hc]; rfl) rfl (by rw [hc]; exact id)
  | @start c n received events hc hn =>
    have hnot : ¬HasRaised c s.log := h.not_hasRaised (by rw [hc]; exact id)
    refine h.noted rfl hnot ?_ fun hraised => ?_
    · intro received' heq
      rw [handledSince_concat]
      exact h.received c received' (by rw [hc]; exact heq)
    · exact (hnot ((hasRaised_concat c s.log _).mp hraised)).elim
  | @commit c n received hc =>
    have hnot : ¬HasRaised c s.log := h.not_hasRaised (by rw [hc]; exact id)
    refine h.change c rfl rfl rfl (Or.inr ⟨.stored c n, rfl, rfl, trivial⟩) ?_ fun hraised => ?_
    · intro received' heq
      show received' = ((handledSince c (s.log ++ [.stored c n])).map s.size).sum
      rw [handledSince_concat]
      exact h.received c received' (by rw [hc]; exact heq)
    · exact (hnot ((hasRaised_concat c s.log _).mp hraised)).elim
  | @returned c n received hc =>
    have hnot : ¬HasRaised c s.log := h.not_hasRaised (by rw [hc]; exact id)
    refine h.noted rfl trivial ?_ fun hraised => ?_
    · intro received' heq
      have hbefore := h.received c received (by rw [hc]; rfl)
      rw [handledSince_concat, ← Option.some.inj heq, hbefore]
      simp [taken, size]
    · exact (hnot ((hasRaised_concat c s.log _).mp hraised)).elim
  | @raised c n received phase hc hphase =>
    refine h.noted rfl trivial ?_ fun _ => trivial
    intro received' heq
    rw [handledSince_concat]
    exact h.received c received' (by rw [hc]; exact heq)
  | reject hc => exact h.goOn rfl rfl rfl (by rw [hc]; rfl) rfl (by rw [hc]; exact id)
  | ack hc => exact h.goOn rfl rfl rfl (by rw [hc]; rfl) rfl (by rw [hc]; exact id)
  | requeue hc => exact h.goOn rfl rfl rfl (by rw [hc]; rfl) rfl fun _ => trivial
  | @leave c received hc =>
    exact h.noted rfl (h.received c received hc) (by simp [Consumer.received?]) fun _ => trivial
  | @crash c =>
    refine h.change c rfl rfl (List.append_nil _).symm (Or.inl rfl) ?_ fun _ => trivial
    simp [Consumer.received?]

/-! ### Runs -/

/-- Nothing has been published, and nobody consumes. -/
def new (message : ℕ → Except DecodeError (List β)) (store : σ) : Deployment σ β :=
  { message := message, store := store }

/-- **A step property holds of every run.** -/
theorem run_induction {P : Deployment σ β → Prop} (hstep : ∀ s s', P s → Does handler s s' → P s')
    (hinit : P s) (moves : List Move) : P (run (step handler) s moves) := by
  induction moves using List.reverseRecOn with
  | nil => exact hinit
  | append_singleton moves m ih =>
    rw [run_concat]
    rcases step_cases handler (run (step handler) s moves) m with heq | hd
    · rwa [heq]
    · exact hstep _ _ ih hd

variable (message : ℕ → Except DecodeError (List β)) (store : σ) (moves : List Move)

theorem storesPublished_run :
    StoresPublished (run (step handler) (new message store) moves) := by
  refine (run_induction (P := fun s => InHand s ∧ StoresPublished s) ?_ ?_ moves).2
  · intro s s' h hd
    exact ⟨h.1.does hd, h.2.does h.1 hd⟩
  · exact ⟨by simp [InHand, new, Consumer.message?],
      by simp [StoresPublished, new, Deployment.stores]⟩

theorem settled_run : Settled handler store (run (step handler) (new message store) moves) :=
  run_induction (fun _ _ h hd => h.does hd)
    ⟨fun _ => trivial, fun _ => trivial, by simp [new, stores], by simp [new, stores]⟩ moves

theorem counted_run : Counted (run (step handler) (new message store) moves) :=
  run_induction (fun _ _ h hd => h.does hd)
    ⟨by simp [new, Consumer.received?], fun _ _ => trivial, everyMove_nil _⟩ moves

theorem message_run : (run (step handler) (new message store) moves).message = message := by
  refine run_induction (P := fun s => s.message = message) ?_ rfl moves
  intro s s' h hd
  cases hd <;> exact h

end Deployment

end Amqp

end TaskflowMeter
