import TaskflowMeter.Events
import TaskflowMeter.Lib.Runs

/-!
# The subscriber that parks its delivery threads

oslo.messaging hands each notification to the endpoint on a thread of its own, and takes what
the endpoint returns as the decision to acknowledge it or to requeue it.  The endpoint puts a
delivery on a queue and waits for the verdict; `consume` claims deliveries and runs a handler on
them; `stop` releases those still on the queue.  Three parties race for a delivery.

## Main definitions

* `Delivery` — one batch, settled by whoever gets there first.
* `Endpoint`, `Consumer`, `Stopper` — what a call of `info`, of `consume` and of `stop` is to
  do next.
* `OsloMessagingSubscriber`, `OsloMessagingSubscriber.step` — the parties, interleaved at their
  accesses to what they share, and a log of what they did.
* `OsloMessagingSubscriber.size`, `OsloMessagingSubscriber.handledSince` — how many events a
  notification carries, and which deliveries a call of `consume` has handled.
-/

namespace TaskflowMeter

namespace OsloMessaging

/-- What an endpoint returns: acknowledge the notification, or requeue it. -/
inductive NotificationResult where
  | HANDLED
  | REQUEUE
  deriving DecidableEq, Repr

/-- How a handler ends. -/
inductive Outcome where
  | returned
  /-- It raised an `Exception`. -/
  | exception
  /-- It raised something outside `Exception`, such as `KeyboardInterrupt`. -/
  | interrupt
  deriving DecidableEq, Repr

/-- One batch, handed from a delivery thread to a consumer. -/
structure Delivery where
  events : List Event := []
  done : Bool := false
  handled : Bool := false
  settled : Bool := false
  deriving DecidableEq, Repr

/-- Take ownership.  True for the first caller only. -/
def Delivery.settle (delivery : Delivery) : Bool × Delivery :=
  if delivery.settled then (false, delivery) else (true, { delivery with settled := true })

theorem Delivery.settle_of_settled {delivery : Delivery} (h : delivery.settled = true) :
    delivery.settle = (false, delivery) := if_pos h

theorem Delivery.settle_of_free {delivery : Delivery} (h : delivery.settled = false) :
    delivery.settle = (true, { delivery with settled := true }) := if_neg (by simp [h])

/-- A call of `info`: what it is to do next. -/
inductive Endpoint where
  | decode
  | put
  | timedWait
  /-- The timed wait has given up. -/
  | settle
  /-- It has settled the delivery itself. -/
  | requeue
  /-- Somebody else has settled it: wait for as long as it takes. -/
  | wait
  | verdict
  | returned (result : NotificationResult)
  deriving DecidableEq, Repr

/-- A call of `consume`: what it is to do next, and how many events it has received. -/
inductive Consumer where
  /-- There is no call. -/
  | outside
  | get (received : ℕ)
  | settle (n received : ℕ)
  | handle (n received : ℕ)
  /-- The handler is running. -/
  | handling (n received : ℕ)
  /-- `finish` is to store how the handler ended. -/
  | finish (n received : ℕ) (handled : Bool)
  /-- `finish` is to set the event. -/
  | signal (n received : ℕ) (handled : Bool)
  deriving DecidableEq, Repr

/-- A call of `stop`: what it is to do next. -/
inductive Stopper where
  /-- There is no call, or nothing left to release. -/
  | outside
  | get
  | settle (n : ℕ)
  | finish (n : ℕ)
  | signal (n : ℕ)
  deriving DecidableEq, Repr

inductive Party where
  | endpoint
  | consumer
  | stopper
  deriving DecidableEq, Repr

/-- What is to be seen of a run. -/
inductive Note where
  /-- `settle` returned true to this party. -/
  | settled (party : Party) (n : ℕ)
  /-- The handler was called. -/
  | started (n : ℕ)
  | ended (n : ℕ) (outcome : Outcome)
  /-- The endpoint returned. -/
  | returned (n : ℕ) (result : NotificationResult)
  /-- `consume` was called. -/
  | called
  /-- `consume` returned. -/
  | consumed (received : ℕ)
  deriving DecidableEq, Repr

/-- The delivery a note is about. -/
def Note.about : Note → Option ℕ
  | settled _ n | started n | ended n _ | returned n _ => some n
  | called | consumed _ => none

/-- The subscriber and the calls of its endpoint, one for each notification. -/
structure OsloMessagingSubscriber where
  /-- What `from_payload` makes of each notification, unless it raises. -/
  notification : ℕ → Option (List Event)
  endpoint : ℕ → Endpoint := fun _ => .decode
  delivery : ℕ → Delivery := fun _ => {}
  pending : List ℕ := []
  listening : Bool := false
  consumer : Consumer := .outside
  stopper : Stopper := .outside
  log : List Note := []

inductive Move where
  /-- A call of `info` goes on. -/
  | info (n : ℕ)
  /-- Its timed wait gives up. -/
  | giveUp (n : ℕ)
  | start
  /-- `consume` is called, or goes on. -/
  | consume
  | handlerEnds (outcome : Outcome)
  /-- `stop` is called, or goes on. -/
  | stop
  deriving DecidableEq, Repr

namespace OsloMessagingSubscriber

/-! ### What the parties do -/

def note (s : OsloMessagingSubscriber) (note : Note) : OsloMessagingSubscriber :=
  { s with log := s.log ++ [note] }

def setEndpoint (s : OsloMessagingSubscriber) (n : ℕ) (endpoint : Endpoint) :
    OsloMessagingSubscriber :=
  { s with endpoint := Function.update s.endpoint n endpoint }

def setDelivery (s : OsloMessagingSubscriber) (n : ℕ) (delivery : Delivery) :
    OsloMessagingSubscriber :=
  { s with delivery := Function.update s.delivery n delivery }

def setConsumer (s : OsloMessagingSubscriber) (consumer : Consumer) : OsloMessagingSubscriber :=
  { s with consumer := consumer }

def setStopper (s : OsloMessagingSubscriber) (stopper : Stopper) : OsloMessagingSubscriber :=
  { s with stopper := stopper }

/-- The endpoint returns. -/
def answer (s : OsloMessagingSubscriber) (n : ℕ) (result : NotificationResult) :
    OsloMessagingSubscriber :=
  (s.setEndpoint n (.returned result)).note (.returned n result)

/-- `_Endpoint.info`, one step of it. -/
def info (s : OsloMessagingSubscriber) (n : ℕ) : OsloMessagingSubscriber :=
  match s.endpoint n with
  | .decode =>
      match s.notification n with
      | none => s.answer n .HANDLED
      | some events => (s.setDelivery n { events := events }).setEndpoint n .put
  | .put => { s.setEndpoint n .timedWait with pending := s.pending ++ [n] }
  | .timedWait => if (s.delivery n).done then s.setEndpoint n .verdict else s
  | .settle =>
      match (s.delivery n).settle with
      | (true, delivery) =>
          ((s.setDelivery n delivery).setEndpoint n .requeue).note (.settled .endpoint n)
      | (false, _) => s.setEndpoint n .wait
  | .requeue => s.answer n .REQUEUE
  | .wait => if (s.delivery n).done then s.setEndpoint n .verdict else s
  | .verdict => s.answer n (if (s.delivery n).handled then .HANDLED else .REQUEUE)
  | .returned _ => s

/-- `delivery.done.wait(park)` returns false, which it may do at any moment. -/
def giveUp (s : OsloMessagingSubscriber) (n : ℕ) : OsloMessagingSubscriber :=
  match s.endpoint n with
  | .timedWait => s.setEndpoint n .settle
  | _ => s

def start (s : OsloMessagingSubscriber) : OsloMessagingSubscriber := { s with listening := true }

/-- `consume`, one step of it. -/
def consume (s : OsloMessagingSubscriber) : OsloMessagingSubscriber :=
  match s.consumer with
  | .outside => (s.start.setConsumer (.get 0)).note .called
  | .get received =>
      match s.pending with
      | [] => (s.setConsumer .outside).note (.consumed received)
      | n :: pending => { s.setConsumer (.settle n received) with pending := pending }
  | .settle n received =>
      match (s.delivery n).settle with
      | (true, delivery) =>
          ((s.setDelivery n delivery).setConsumer (.handle n received)).note (.settled .consumer n)
      | (false, _) => s.setConsumer (.get received)
  | .handle n received => (s.setConsumer (.handling n received)).note (.started n)
  | .handling .. => s
  | .finish n received handled =>
      (s.setDelivery n { s.delivery n with handled := handled }).setConsumer
        (.signal n received handled)
  | .signal n received handled =>
      let s := s.setDelivery n { s.delivery n with done := true }
      if handled then s.setConsumer (.get (received + (s.delivery n).events.length))
      else (s.setConsumer .outside).note (.consumed received)

/-- The handler ends.  `consume` does not catch what is not an `Exception`, and is left. -/
def handlerEnds (s : OsloMessagingSubscriber) (outcome : Outcome) : OsloMessagingSubscriber :=
  match s.consumer with
  | .handling n received =>
      let s := s.note (.ended n outcome)
      match outcome with
      | .returned => s.setConsumer (.finish n received true)
      | .exception => s.setConsumer (.finish n received false)
      | .interrupt => s.setConsumer .outside
  | _ => s

/-- `stop`, one step of it, down to where it waits for the listener. -/
def stop (s : OsloMessagingSubscriber) : OsloMessagingSubscriber :=
  match s.stopper with
  | .outside => if s.listening then { s.setStopper .get with listening := false } else s
  | .get =>
      match s.pending with
      | [] => s.setStopper .outside
      | n :: pending => { s.setStopper (.settle n) with pending := pending }
  | .settle n =>
      match (s.delivery n).settle with
      | (true, delivery) =>
          ((s.setDelivery n delivery).setStopper (.finish n)).note (.settled .stopper n)
      | (false, _) => s.setStopper .get
  | .finish n => (s.setDelivery n { s.delivery n with handled := false }).setStopper (.signal n)
  | .signal n => (s.setDelivery n { s.delivery n with done := true }).setStopper .get

/-- One step of one party. -/
def step (s : OsloMessagingSubscriber) : Move → OsloMessagingSubscriber
  | .info n => s.info n
  | .giveUp n => s.giveUp n
  | .start => s.start
  | .consume => s.consume
  | .handlerEnds outcome => s.handlerEnds outcome
  | .stop => s.stop

/-- How many events a notification carries. -/
def size (s : OsloMessagingSubscriber) (n : ℕ) : ℕ := ((s.notification n).getD []).length

/-- The deliveries that have been handled since `consume` was last called. -/
def handledSince (log : List Note) : List ℕ :=
  log.foldl
    (fun ns note =>
      match note with
      | .called => []
      | .ended n .returned => ns ++ [n]
      | _ => ns)
    []

end OsloMessagingSubscriber

end OsloMessaging

end TaskflowMeter
