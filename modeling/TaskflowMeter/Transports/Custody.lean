import TaskflowMeter.Transports.OsloMessaging

/-!
# Who has a delivery

At any moment at most one of the three parties has a delivery to deal with, and what the
log says of it tells how far that has got.

## Main definitions

* `OsloMessagingSubscriber.story` — what the log says of one delivery.
* `Held` — what a party that has settled a delivery is to do with it.
* `Consistent` — **what the parties, the delivery and its story may look like.**

## Main results

* `Consistent.goOn`, `wake`, `answer`, `giveUp`, … — what the endpoint makes of it.
* `Consistent.handle`, `caught`, `drop`, `finish`, `signal` — what the consumer does.
* `Consistent.release`, `unpark` — what `stop` does.
-/

namespace TaskflowMeter

namespace OsloMessaging

/-- What the log says of one delivery. -/
def OsloMessagingSubscriber.story (s : OsloMessagingSubscriber) (n : ℕ) : List Note :=
  s.log.filter fun note => note.about = some n

/-! ### What is known of one delivery -/

/-- What a party that has settled a delivery is to do with it. -/
inductive Held where
  | no
  | claimed
  | handling
  | finishing (handled : Bool)
  | signalling (handled : Bool)
  deriving DecidableEq

def Consumer.held (n : ℕ) : Consumer → Held
  | outside | get _ | settle .. => .no
  | handle m _ => if m = n then .claimed else .no
  | handling m _ => if m = n then .handling else .no
  | finish m _ handled => if m = n then .finishing handled else .no
  | signal m _ handled => if m = n then .signalling handled else .no

/-- How many events a call of `consume` will have received when it is done with what it is
doing. -/
def Consumer.expects (size : ℕ → ℕ) : Consumer → Option ℕ
  | outside => none
  | get received | settle _ received | handle _ received | handling _ received => some received
  | finish n received handled | signal n received handled =>
      some (received + if handled then size n else 0)

def Stopper.held (n : ℕ) : Stopper → Held
  | outside | get | settle _ => .no
  | finish m => if m = n then .finishing false else .no
  | signal m => if m = n then .signalling false else .no

section

variable (n received : ℕ) (handled : Bool)

@[simp] theorem Consumer.held_handle : (handle n received).held n = .claimed := if_pos rfl

@[simp] theorem Consumer.held_handling : (handling n received).held n = .handling := if_pos rfl

@[simp] theorem Consumer.held_finish :
    (finish n received handled).held n = .finishing handled := if_pos rfl

@[simp] theorem Consumer.held_signal :
    (signal n received handled).held n = .signalling handled := if_pos rfl

@[simp] theorem Stopper.held_finish : (finish n).held n = .finishing false := if_pos rfl

@[simp] theorem Stopper.held_signal : (signal n).held n = .signalling false := if_pos rfl

end

/-- A consumer that has settled nothing but this delivery. -/
def Consumer.About (n : ℕ) : Consumer → Prop
  | outside | get _ | settle .. => True
  | handle m _ | handling m _ | finish m .. | signal m .. => m = n

theorem Consumer.About.held_of_ne {n m : ℕ} {c : Consumer} (h : c.About n) (hne : m ≠ n) :
    c.held m = .no := by
  cases c with
  | outside | get | settle => rfl
  | handle | handling | finish | signal =>
    obtain rfl := h
    exact if_neg (Ne.symm hne)

/-- A call of `stop` that has settled nothing but this delivery. -/
def Stopper.About (n : ℕ) : Stopper → Prop
  | outside | get | settle _ => True
  | finish m | signal m => m = n

theorem Stopper.About.held_of_ne {n m : ℕ} {c : Stopper} (h : c.About n) (hne : m ≠ n) :
    c.held m = .no := by
  cases c with
  | outside | get | settle => rfl
  | finish | signal =>
    obtain rfl := h
    exact if_neg (Ne.symm hne)

/-- The endpoint waits for the verdict, or has given up waiting. -/
def Endpoint.Waiting : Endpoint → Prop
  | timedWait | settle | wait => True
  | _ => False

/-- Nobody has settled the delivery. -/
def Endpoint.Early : Endpoint → Prop
  | decode | put | timedWait | settle => True
  | _ => False

/-- How a handler ended, by the verdict on it. -/
def Outcome.ofHandled (handled : Bool) : Outcome := if handled then .returned else .exception

/-- The result that goes with a verdict. -/
def NotificationResult.ofHandled (handled : Bool) : NotificationResult :=
  if handled then .HANDLED else .REQUEUE

/-- **What a delivery and the parties' business with it may look like**: the endpoint, the
delivery, what the consumer and `stop` are to do with it, and its story. -/
inductive Consistent (n : ℕ) (notification : Option (List Event)) :
    Endpoint → Delivery → Held → Held → List Note → Prop where
  | unsettled {e d} : e.Early → (e = .put → notification ≠ none) → d.settled = false →
      d.done = false → Consistent n notification e d .no .no []
  /-- It was not readable. -/
  | discarded {d} : notification = none → d.settled = false → d.done = false →
      Consistent n notification (.returned .HANDLED) d .no .no [.returned n .HANDLED]
  | givenUp {d} : d.settled = true → d.done = false →
      Consistent n notification .requeue d .no .no [.settled .endpoint n]
  | requeued {d} : d.settled = true → d.done = false →
      Consistent n notification (.returned .REQUEUE) d .no .no
        [.settled .endpoint n, .returned n .REQUEUE]
  | claimed {e d} : e.Waiting → d.settled = true → d.done = false →
      Consistent n notification e d .claimed .no [.settled .consumer n]
  | handling {e d} : e.Waiting → d.settled = true → d.done = false →
      Consistent n notification e d .handling .no [.settled .consumer n, .started n]
  | finishing {e d handled} : e.Waiting → d.settled = true → d.done = false →
      Consistent n notification e d (.finishing handled) .no
        [.settled .consumer n, .started n, .ended n (.ofHandled handled)]
  | signalling {e d handled} : e.Waiting → d.settled = true → d.done = false →
      d.handled = handled →
      Consistent n notification e d (.signalling handled) .no
        [.settled .consumer n, .started n, .ended n (.ofHandled handled)]
  | finished {e d} : e.Waiting ∨ e = .verdict → d.settled = true → d.done = true →
      Consistent n notification e d .no .no
        [.settled .consumer n, .started n, .ended n (.ofHandled d.handled)]
  | answered {d} : d.settled = true → d.done = true →
      Consistent n notification (.returned (.ofHandled d.handled)) d .no .no
        [.settled .consumer n, .started n, .ended n (.ofHandled d.handled),
          .returned n (.ofHandled d.handled)]
  /-- The handler was interrupted: nobody has it. -/
  | dropped {e d} : e.Waiting → d.settled = true → d.done = false →
      Consistent n notification e d .no .no
        [.settled .consumer n, .started n, .ended n .interrupt]
  | releasing {e d} : e.Waiting → d.settled = true → d.done = false →
      Consistent n notification e d .no (.finishing false) [.settled .stopper n]
  | unparking {e d} : e.Waiting → d.settled = true → d.done = false → d.handled = false →
      Consistent n notification e d .no (.signalling false) [.settled .stopper n]
  | released {e d} : e.Waiting ∨ e = .verdict → d.settled = true → d.done = true →
      d.handled = false →
      Consistent n notification e d .no .no [.settled .stopper n]
  | givenBack {d} : d.settled = true → d.done = true → d.handled = false →
      Consistent n notification (.returned .REQUEUE) d .no .no
        [.settled .stopper n, .returned n .REQUEUE]

namespace Consistent

variable {n : ℕ} {notification : Option (List Event)} {e : Endpoint} {d : Delivery}
  {consumer stopper : Held} {story : List Note}

/-- The endpoint could not read the payload. -/
theorem discard (h : Consistent n notification .decode d consumer stopper story)
    (hnone : notification = none) :
    Consistent n notification (.returned .HANDLED) d consumer stopper
      (story ++ [.returned n .HANDLED]) := by
  cases h with
  | unsettled _ _ hsettled hdone => exact .discarded hnone hsettled hdone
  | _ => simp_all [Endpoint.Waiting]

/-- The endpoint makes a delivery of what it has read. -/
theorem decode (h : Consistent n notification .decode d consumer stopper story)
    (hread : notification ≠ none) (events : List Event) :
    Consistent n notification .put { events := events } consumer stopper story := by
  cases h with
  | unsettled => exact .unsettled trivial (fun _ => hread) rfl rfl
  | _ => simp_all [Endpoint.Waiting]

theorem put (h : Consistent n notification .put d consumer stopper story) :
    notification ≠ none ∧ Consistent n notification .timedWait d consumer stopper story := by
  cases h with
  | unsettled _ hread hsettled hdone =>
    exact ⟨hread rfl, .unsettled trivial (by simp) hsettled hdone⟩
  | _ => simp_all [Endpoint.Waiting]

/-- The endpoint goes on waiting, in another way. -/
theorem goOn (h : Consistent n notification e d consumer stopper story) (he : e.Waiting)
    {e' : Endpoint} (he' : e'.Waiting) (hearly : d.settled = false → e'.Early) :
    Consistent n notification e' d consumer stopper story := by
  cases h with
  | unsettled _ _ hs hd =>
    refine .unsettled (hearly hs) (fun hput => ?_) hs hd
    subst hput
    exact he'.elim
  | claimed _ hs hd => exact .claimed he' hs hd
  | handling _ hs hd => exact .handling he' hs hd
  | finishing _ hs hd => exact .finishing he' hs hd
  | signalling _ hs hd hh => exact .signalling he' hs hd hh
  | finished _ hs hd => exact .finished (Or.inl he') hs hd
  | dropped _ hs hd => exact .dropped he' hs hd
  | releasing _ hs hd => exact .releasing he' hs hd
  | unparking _ hs hd hh => exact .unparking he' hs hd hh
  | released _ hs hd hh => exact .released (Or.inl he') hs hd hh
  | _ => exact he.elim

/-- The wait is over. -/
theorem wake (h : Consistent n notification e d consumer stopper story) (he : e.Waiting)
    (hdone : d.done = true) : Consistent n notification .verdict d consumer stopper story := by
  cases h with
  | finished _ hs hd => exact .finished (Or.inr rfl) hs hd
  | released _ hs hd hh => exact .released (Or.inr rfl) hs hd hh
  | _ => first | exact he.elim | simp_all

/-- The endpoint passes the verdict on. -/
theorem answer (h : Consistent n notification .verdict d consumer stopper story) :
    Consistent n notification (.returned (.ofHandled d.handled)) d consumer stopper
      (story ++ [.returned n (.ofHandled d.handled)]) := by
  cases h with
  | finished _ hs hd => exact .answered hs hd
  | released _ hs hd hh =>
    rw [hh]
    exact .givenBack hs hd hh
  | _ => simp_all [Endpoint.Early, Endpoint.Waiting]

/-- The endpoint settles the delivery. -/
theorem giveUp (h : Consistent n notification .settle d consumer stopper story)
    (hsettled : d.settled = false) :
    Consistent n notification .requeue { d with settled := true } consumer stopper
      (story ++ [.settled .endpoint n]) := by
  cases h with
  | unsettled _ _ _ hdone => exact .givenUp rfl hdone
  | _ => simp_all

theorem requeue (h : Consistent n notification .requeue d consumer stopper story) :
    Consistent n notification (.returned .REQUEUE) d consumer stopper
      (story ++ [.returned n .REQUEUE]) := by
  cases h with
  | givenUp hs hd => exact .requeued hs hd
  | _ => simp_all [Endpoint.Early, Endpoint.Waiting]

/-- A delivery on the queue is nobody's, as long as it is not settled. -/
theorem waiting_of_unsettled (h : Consistent n notification e d consumer stopper story)
    (hsettled : d.settled = false) (hread : notification ≠ none) (hdecode : e ≠ .decode)
    (hput : e ≠ .put) :
    e.Waiting ∧ d.done = false ∧ consumer = .no ∧ stopper = .no ∧ story = [] := by
  cases h with
  | unsettled he _ _ hdone =>
    refine ⟨?_, hdone, rfl, rfl, rfl⟩
    cases e <;> simp_all [Endpoint.Early, Endpoint.Waiting]
  | _ => simp_all

/-- The consumer calls the handler. -/
theorem handle (h : Consistent n notification e d .claimed stopper story) :
    Consistent n notification e d .handling stopper (story ++ [.started n]) := by
  cases h with
  | claimed he hs hd => exact .handling he hs hd

/-- The handler ends, and the consumer goes on. -/
theorem caught (h : Consistent n notification e d .handling stopper story) (handled : Bool) :
    Consistent n notification e d (.finishing handled) stopper
      (story ++ [.ended n (.ofHandled handled)]) := by
  cases h with
  | handling he hs hd => exact .finishing he hs hd

/-- The handler ends, and the consumer is left. -/
theorem drop (h : Consistent n notification e d .handling stopper story) :
    Consistent n notification e d .no stopper (story ++ [.ended n .interrupt]) := by
  cases h with
  | handling he hs hd => exact .dropped he hs hd

/-- The consumer stores how the handler ended. -/
theorem finish {handled : Bool}
    (h : Consistent n notification e d (.finishing handled) stopper story) :
    Consistent n notification e { d with handled := handled } (.signalling handled) stopper
      story := by
  cases h with
  | finishing he hs hd => exact .signalling he hs hd rfl

theorem waiting_of_signalling {handled : Bool}
    (h : Consistent n notification e d (.signalling handled) stopper story) : e.Waiting := by
  cases h with
  | signalling he => exact he

/-- The consumer sets the event. -/
theorem signal {handled : Bool}
    (h : Consistent n notification e d (.signalling handled) stopper story) :
    Consistent n notification e { d with done := true } .no stopper story := by
  cases h with
  | signalling he hs hd hh =>
    subst hh
    exact .finished (Or.inl he) hs rfl

/-- `stop` stores that the delivery was not handled. -/
theorem release {handled : Bool}
    (h : Consistent n notification e d consumer (.finishing handled) story) :
    Consistent n notification e { d with handled := false } consumer (.signalling false)
      story := by
  cases h with
  | releasing he hs hd => exact .unparking he hs hd rfl

/-- `stop` sets the event. -/
theorem unpark {handled : Bool}
    (h : Consistent n notification e d consumer (.signalling handled) story) :
    Consistent n notification e { d with done := true } consumer .no story := by
  cases h with
  | unparking he hs hd hh => exact .released (Or.inl he) hs rfl hh

end Consistent

end OsloMessaging

end TaskflowMeter
