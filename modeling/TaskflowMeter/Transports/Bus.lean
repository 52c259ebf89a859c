import TaskflowMeter.Transports.Collecting
import TaskflowMeter.Transports.Handover

/-!
# Collecting over a bus

Collectors of one pool consume notifications and store them.  The broker gives each notification to
a call of an endpoint and waits for its answer; if a collector or a connection is lost, it gives it
to another call.  The answer of a call and the acknowledgement that the driver makes of it are one
step: a connection that is lost in between is lost before the step, and the answer is not heard.
What a driver has fetched ahead and not called an endpoint with counts as ready.

## Main definitions

* `Bus` — the broker, the collectors, and the store that they write to.
* `Bus.step` — what any of them does.
* `Bus.Fits` — what the broker, the collectors and the store know of each other.

## Main results

* `Fits.step` — **no step brings them out of line.**
* `bus_collects_once` — **nothing that is published is lost, and nothing is stored twice.**
-/

namespace TaskflowMeter

namespace OsloMessaging

open Idempotent Runs OsloMessagingSubscriber

/-! ### What a step of a collector leaves alone -/

namespace Consistent

variable {n : ℕ} {notification : Option (List Event)} {e : Endpoint} {d : Delivery}
  {consumer stopper : Held} {story : List Note}

theorem ne_decode_of_handling (h : Consistent n notification e d .handling stopper story) :
    e ≠ .decode := by
  rintro rfl
  cases h with
  | handling he => exact he

theorem of_handled (h : Consistent n notification (.returned .HANDLED) d consumer stopper story) :
    notification = none ∨ .ended n .returned ∈ story := by
  generalize he : Endpoint.returned .HANDLED = e at h
  have hwaiting : ¬e.Waiting := he ▸ id
  have hearly : ¬e.Early := he ▸ id
  cases h with
  | discarded hnone => exact Or.inl hnone
  | answered =>
    have hhandled : d.handled = true := by
      by_contra hnot
      simp [NotificationResult.ofHandled, hnot] at he
    simp [hhandled, Outcome.ofHandled]
  | finished hwait | released hwait =>
    rcases hwait with hwait | rfl
    · exact absurd hwait hwaiting
    · cases he
  | _ => first | cases he; done | exact absurd ‹_› hwaiting | exact absurd ‹_› hearly

end Consistent

namespace OsloMessagingSubscriber

variable {s : OsloMessagingSubscriber} {move : Move}

/-- Only a handler that ends is noted as such, and only that takes the consumer out of it. -/
theorem step_frame (hmove : ∀ outcome, move ≠ .handlerEnds outcome) :
    (s.step move).notification = s.notification
      ∧ (∀ n, .ended n .returned ∈ (s.step move).log → .ended n .returned ∈ s.log)
      ∧ ∀ n received, s.consumer = .handling n received →
        (s.step move).consumer = .handling n received := by
  cases move with
  | info m =>
    simp only [step, info]
    repeat' split
    all_goals simp [answer, note, setEndpoint, setDelivery]
  | giveUp m =>
    simp only [step, giveUp]
    split <;> simp [setEndpoint]
  | start => simp [step, start]
  | consume =>
    simp only [step, consume]
    repeat' split
    all_goals simp_all [start, note, setConsumer, setDelivery]
  | handlerEnds outcome => exact absurd rfl (hmove outcome)
  | stop =>
    simp only [step, stop]
    repeat' split
    all_goals simp [note, setStopper, setDelivery]

/-- How a handler's end is noted. -/
theorem step_handlerEnds (outcome : Outcome) :
    (s.step (.handlerEnds outcome)).notification = s.notification
      ∧ (s.step (.handlerEnds outcome)).endpoint = s.endpoint
      ∧ ∀ n, .ended n .returned ∈ (s.step (.handlerEnds outcome)).log →
        .ended n .returned ∈ s.log
          ∨ outcome = .returned ∧ ∃ received, s.consumer = .handling n received := by
  rw [step, handlerEnds]
  split
  · next n received hphase =>
    refine ⟨by cases outcome <;> rfl, by cases outcome <;> rfl, fun m hm => ?_⟩
    cases outcome with
    | returned =>
      have hnew : .ended m .returned ∈ s.log ++ [.ended n .returned] := hm
      rw [List.mem_append, List.mem_singleton, Note.ended.injEq] at hnew
      rcases hnew with hold | ⟨rfl, -⟩
      · exact Or.inl hold
      · exact Or.inr ⟨rfl, received, hphase⟩
    | exception | interrupt => exact Or.inl (by simpa [note, setConsumer] using hm)
  · exact ⟨rfl, rfl, fun n h => Or.inl h⟩

/-- A call of an endpoint goes on by itself. -/
theorem endpoint_step {n : ℕ} (hinfo : move ≠ .info n) (hgiveUp : move ≠ .giveUp n) :
    (s.step move).endpoint n = s.endpoint n := by
  cases move with
  | info m =>
    have hne : n ≠ m := fun heq => hinfo (heq ▸ rfl)
    simp only [step, info]
    repeat' split
    all_goals simp [answer, note, setEndpoint, setDelivery, hne]
  | giveUp m =>
    have hne : n ≠ m := fun heq => hgiveUp (heq ▸ rfl)
    simp only [step, giveUp]
    split <;> simp [setEndpoint, hne]
  | start => rfl
  | consume =>
    simp only [step, consume]
    repeat' split
    all_goals rfl
  | handlerEnds outcome => rw [(step_handlerEnds outcome).2.1]
  | stop =>
    simp only [step, stop]
    repeat' split
    all_goals rfl

/-- Giving up is not answering. -/
theorem endpoint_giveUp (n : ℕ) :
    ((s.step (.giveUp n)).endpoint n = .decode ↔ s.endpoint n = .decode)
      ∧ ∀ result, (s.step (.giveUp n)).endpoint n = .returned result ↔
        s.endpoint n = .returned result := by
  rw [step, giveUp]
  split
  · next h => simp [setEndpoint, h]
  · simp

/-- The delivery that a handler is given is what was read. -/
theorem Inv.events_handling (h : Inv s) {n received : ℕ} (hphase : s.consumer = .handling n received) :
    s.endpoint n ≠ .decode ∧ (s.delivery n).events = (s.notification n).getD [] := by
  have hself := h.consistent n
  rw [hphase, Consumer.held_handling] at hself
  have hdecode := hself.ne_decode_of_handling
  exact ⟨hdecode, (h.events n).trans (if_neg hdecode)⟩

/-- **What is acknowledged was handled**, unless it could not be read. -/
theorem Inv.of_returned_handled (h : Inv s) {n : ℕ} (hreturned : s.endpoint n = .returned .HANDLED) :
    s.notification n = none ∨ .ended n .returned ∈ s.log := by
  have hself := h.consistent n
  rw [hreturned] at hself
  exact hself.of_handled.imp_right (mem_story rfl).mp

end OsloMessagingSubscriber

/-! ### The broker and its collectors -/

/-- Where a notification is. -/
inductive Place where
  | unpublished
  /-- It waits for a collector. -/
  | ready
  /-- The `n`-th call of an endpoint of a collector has it. -/
  | delivered (c n : ℕ)
  | acked
  deriving DecidableEq, Repr

/-- What a collector had waits for another. -/
def Place.takenBack (c : ℕ) : Place → Place
  | delivered c' n => if c' = c then ready else delivered c' n
  | place => place

theorem Place.takenBack_eq {c : ℕ} {place taken : Place} (h : place.takenBack c = taken)
    (hready : taken ≠ ready) : place = taken ∧ ∀ n, place ≠ delivered c n := by
  cases place with
  | delivered c' n =>
    rw [takenBack] at h
    split at h
    · exact absurd h.symm hready
    · next hne => exact ⟨h, fun n' heq => hne (delivered.inj heq).1⟩
  | unpublished | ready | acked => exact ⟨h, nofun⟩

/-- The broker, the collectors, and the store that they write to. -/
structure Bus where
  /-- What `from_payload` makes of each notification, unless it raises. -/
  message : ℕ → Option (List Event)
  /-- The notification that each call of a collector's endpoint is about. -/
  calls : ℕ → ℕ → ℕ
  place : ℕ → Place := fun _ => .unpublished
  subscriber : ℕ → OsloMessagingSubscriber
  /-- The calls that the broker has made of each collector that lives. -/
  begun : ℕ → ℕ → Bool := fun _ _ => false
  /-- The handler that a collector runs has stored what it was given. -/
  committed : ℕ → Bool := fun _ => false
  store : SQLADataSource
  /-- The notifications that were stored, in the order of the commits. -/
  stores : List ℕ := []

namespace Bus

inductive Step where
  | publish (m : ℕ)
  /-- The broker calls an endpoint of a collector. -/
  | deliver (c n : ℕ)
  /-- A call of an endpoint goes on. -/
  | info (c n : ℕ)
  /-- Its timed wait gives up. -/
  | giveUp (c n : ℕ)
  | start (c : ℕ)
  | consume (c : ℕ)
  /-- The handler commits its transaction. -/
  | commit (c : ℕ)
  | handlerEnds (c : ℕ) (outcome : Outcome)
  | stop (c : ℕ)
  /-- The broker does not wait for a call any more: its connection is lost. -/
  | disconnect (c n : ℕ)
  /-- The collector is gone, and another takes its place. -/
  | crash (c : ℕ)

/-- Nobody has done anything. -/
def new (message : ℕ → Option (List Event)) (calls : ℕ → ℕ → ℕ) (db : SQLADataSource) : Bus where
  message := message
  calls := calls
  subscriber c := { notification := fun n => message (calls c n) }
  store := db

def setPlace (s : Bus) (m : ℕ) (place : Place) : Bus :=
  { s with place := Function.update s.place m place }

def setSubscriber (s : Bus) (c : ℕ) (subscriber : OsloMessagingSubscriber) : Bus :=
  { s with subscriber := Function.update s.subscriber c subscriber }

def setCommitted (s : Bus) (c : ℕ) (committed : Bool) : Bus :=
  { s with committed := Function.update s.committed c committed }

@[simp] theorem setCommitted_self (s : Bus) (c : ℕ) : s.setCommitted c (s.committed c) = s := by
  rw [setCommitted, Function.update_eq_self]

/-- A collector does something that is no business of the broker's or the store's. -/
def work (s : Bus) (c : ℕ) (move : OsloMessaging.Move) : Bus :=
  s.setSubscriber c ((s.subscriber c).step move)

def publish (s : Bus) (m : ℕ) : Bus :=
  if s.place m = .unpublished then s.setPlace m .ready else s

def deliver (s : Bus) (c n : ℕ) : Bus :=
  if s.place (s.calls c n) = .ready ∧ s.begun c n = false then
    { s.setPlace (s.calls c n) (.delivered c n) with
      begun := Function.update s.begun c (Function.update (s.begun c) n true) }
  else s

/-- What the broker makes of an answer. -/
def placeOf : NotificationResult → Place
  | .HANDLED => .acked
  | .REQUEUE => .ready

/-- The broker hears an answer, if there is one and it waits for it. -/
def answer (s : Bus) (c n : ℕ) : Bus :=
  match (s.subscriber c).endpoint n with
  | .returned result =>
      if s.place (s.calls c n) = .delivered c n then s.setPlace (s.calls c n) (placeOf result) else s
  | _ => s

def info (s : Bus) (c n : ℕ) : Bus := if s.begun c n then (s.work c (.info n)).answer c n else s

/-- The handler is `apply_many`. -/
def commit (s : Bus) (c : ℕ) : Bus :=
  match (s.subscriber c).consumer with
  | .handling n _ =>
      if s.committed c then s
      else
        { s.setCommitted c true with
          store := s.store.applyMany ((s.subscriber c).delivery n).events
          stores := s.stores ++ [s.calls c n] }
  | _ => s

/-- A handler returns only once it has committed; what it raises it may raise before or after. -/
def handlerEnds (s : Bus) (c : ℕ) (outcome : Outcome) : Bus :=
  if outcome = .returned ∧ s.committed c = false then s
  else (s.work c (.handlerEnds outcome)).setCommitted c false

def disconnect (s : Bus) (c n : ℕ) : Bus :=
  if s.place (s.calls c n) = .delivered c n then s.setPlace (s.calls c n) .ready else s

/-- The broker takes back what the collector had. -/
def crash (s : Bus) (c : ℕ) : Bus :=
  { s.setCommitted c false with
    subscriber := Function.update s.subscriber c { notification := fun n => s.message (s.calls c n) }
    begun := Function.update s.begun c fun _ => false
    place := fun m => (s.place m).takenBack c }

def step (s : Bus) : Step → Bus
  | .publish m => s.publish m
  | .deliver c n => s.deliver c n
  | .info c n => s.info c n
  | .giveUp c n => s.work c (.giveUp n)
  | .start c => s.work c .start
  | .consume c => s.work c .consume
  | .commit c => s.commit c
  | .handlerEnds c outcome => s.handlerEnds c outcome
  | .stop c => s.work c .stop
  | .disconnect c n => s.disconnect c n
  | .crash c => s.crash c

/-- The events that a notification brings. -/
def events (s : Bus) (m : ℕ) : List Event := (s.message m).getD []

/-- What the broker, the collectors and the store know of each other. -/
structure Fits (db : SQLADataSource) (s : Bus) : Prop where
  collector : ∀ c, Inv (s.subscriber c)
  reads : ∀ c n, (s.subscriber c).notification n = s.message (s.calls c n)
  idle : ∀ c n, s.begun c n = false → (s.subscriber c).endpoint n = .decode
  /-- The broker waits for a call that has yet to answer. -/
  outstanding : ∀ m c n, s.place m = .delivered c n →
    s.calls c n = m ∧ s.begun c n = true ∧ ∀ result, (s.subscriber c).endpoint n ≠ .returned result
  published : ∀ c n, s.begun c n = true → s.place (s.calls c n) ≠ .unpublished
  committed : ∀ c, s.committed c = true →
    ∃ n received, (s.subscriber c).consumer = .handling n received ∧ s.calls c n ∈ s.stores
  /-- A handler that has returned has stored what it was given. -/
  handled : ∀ c n, .ended n .returned ∈ (s.subscriber c).log → s.calls c n ∈ s.stores
  acked : ∀ m, s.place m = .acked → s.message m = none ∨ m ∈ s.stores
  stored : ∀ m ∈ s.stores, s.place m ≠ .unpublished
  store : s.store = (s.stores.map s.events).foldl SQLADataSource.applyMany db

namespace Fits

variable {db : SQLADataSource} {s : Bus}

theorem new (message : ℕ → Option (List Event)) (calls : ℕ → ℕ → ℕ) (db : SQLADataSource) :
    Fits db (Bus.new message calls db) where
  collector c := inv_new _
  reads _ _ := rfl
  idle _ _ _ := rfl
  outstanding _ _ _ h := by cases h
  published _ _ h := by cases h
  committed _ h := by cases h
  handled _ _ h := by cases h
  acked _ h := by cases h
  stored _ h := by cases h
  store := rfl

/-- A notification goes from one place to another. -/
def Goes (s : Bus) (m : ℕ) (place : Place) : Prop :=
  place = s.place m
    ∨ s.place m ≠ .unpublished ∧ (place = .ready
      ∨ place = .acked ∧ (s.message m = none ∨ m ∈ s.stores))

theorem Goes.ne_unpublished {m : ℕ} {place : Place} (h : Goes s m place)
    (hm : s.place m ≠ .unpublished) : place ≠ .unpublished := by
  rcases h with rfl | ⟨-, rfl | ⟨rfl, -⟩⟩
  · exact hm
  · simp
  · simp

theorem Goes.acked (h : Fits db s) {m : ℕ} (hgoes : Goes s m .acked) :
    s.message m = none ∨ m ∈ s.stores := by
  rcases hgoes with heq | ⟨-, heq | ⟨-, hm⟩⟩
  · exact h.acked m heq.symm
  · cases heq
  · exact hm

theorem Goes.eq_of_delivered {m c n : ℕ} (h : Goes s m (.delivered c n)) :
    s.place m = .delivered c n := by
  rcases h with heq | ⟨-, heq | ⟨heq, -⟩⟩
  · exact heq.symm
  · cases heq
  · cases heq

/-- **A collector goes on, and the broker makes something of it.** -/
theorem go (h : Fits db s) (c : ℕ) (committed : Bool) (place : ℕ → Place)
    {x : OsloMessagingSubscriber} (hx : Inv x)
    (hreads : x.notification = (s.subscriber c).notification)
    (hidle : ∀ n, s.begun c n = false → x.endpoint n = .decode)
    (hcommitted : committed = true →
      ∃ n received, x.consumer = .handling n received ∧ s.calls c n ∈ s.stores)
    (hhandled : ∀ n, .ended n .returned ∈ x.log → s.calls c n ∈ s.stores)
    (hgoes : ∀ m, Goes s m (place m))
    (hwaits : ∀ m n, place m = .delivered c n → ∀ result, x.endpoint n ≠ .returned result) :
    Fits db { (s.setSubscriber c x).setCommitted c committed with place := place } := by
  refine ⟨fun c' => ?_, fun c' n => ?_, fun c' n hbegun => ?_, fun m c' n hplace => ?_,
    fun c' n hbegun => (hgoes _).ne_unpublished (h.published c' n hbegun), fun c' hc' => ?_,
    fun c' n hended => ?_, fun m hplace => ?_,
    fun m hm => (hgoes m).ne_unpublished (h.stored m hm), h.store⟩
  · by_cases hc : c' = c <;> simp [setCommitted, setSubscriber, hc, hx, h.collector c']
  · by_cases hc : c' = c
    · simp [setCommitted, setSubscriber, hc, hreads, h.reads c n]
    · simp [setCommitted, setSubscriber, hc, h.reads c' n]
  · by_cases hc : c' = c
    · subst hc
      simpa [setCommitted, setSubscriber] using hidle n hbegun
    · simpa [setCommitted, setSubscriber, hc] using h.idle c' n hbegun
  · have hold : s.place m = .delivered c' n := Goes.eq_of_delivered (hplace ▸ hgoes m)
    obtain ⟨hcalls, hbegun, hwaiting⟩ := h.outstanding m c' n hold
    refine ⟨hcalls, hbegun, ?_⟩
    by_cases hc : c' = c
    · subst hc
      simpa [setCommitted, setSubscriber] using hwaits m n hplace
    · simpa [setCommitted, setSubscriber, hc] using hwaiting
  · by_cases hc : c' = c
    · subst hc
      simpa [setCommitted, setSubscriber] using
        hcommitted (by simpa [setCommitted, setSubscriber] using hc')
    · simpa [setCommitted, setSubscriber, hc] using
        h.committed c' (by simpa [setCommitted, setSubscriber, hc] using hc')
  · by_cases hc : c' = c
    · subst hc
      exact hhandled n (by simpa [setCommitted, setSubscriber] using hended)
    · exact h.handled c' n (by simpa [setCommitted, setSubscriber, hc] using hended)
  · exact Goes.acked h (hplace ▸ hgoes m)

/-- A collector goes on by itself. -/
theorem work (h : Fits db s) (c : ℕ) {move : OsloMessaging.Move}
    (hmove : ∀ outcome, move ≠ .handlerEnds outcome) (hinfo : ∀ n, move ≠ .info n) :
    Fits db (s.work c move) := by
  obtain ⟨hreads, hlog, hconsumer⟩ := step_frame (s := s.subscriber c) hmove
  have hendpoint : ∀ n, ((s.subscriber c).endpoint n = .decode →
        ((s.subscriber c).step move).endpoint n = .decode)
      ∧ ∀ result, ((s.subscriber c).step move).endpoint n = .returned result →
        (s.subscriber c).endpoint n = .returned result := by
    intro n
    by_cases hgiveUp : move = .giveUp n
    · rw [hgiveUp]
      exact ⟨(endpoint_giveUp n).1.mpr, fun result => ((endpoint_giveUp n).2 result).mp⟩
    · rw [endpoint_step (hinfo n) hgiveUp]
      exact ⟨id, fun _ => id⟩
  rw [Bus.work, ← setCommitted_self (s.setSubscriber c _) c]
  refine h.go c (s.committed c) s.place ((h.collector c).step move) hreads
    (fun n hbegun => (hendpoint n).1 (h.idle c n hbegun)) (fun hc => ?_)
    (fun n hended => h.handled c n (hlog n hended)) (fun m => Or.inl rfl) ?_
  · obtain ⟨n, received, hphase, hstored⟩ := h.committed c hc
    exact ⟨n, received, hconsumer n received hphase, hstored⟩
  · exact fun m n hplace result hreturned =>
      (h.outstanding m c n hplace).2.2 result ((hendpoint n).2 result hreturned)

/-- **An endpoint goes on, and the broker hears its answer.** -/
theorem info (h : Fits db s) (c n : ℕ) : Fits db (s.info c n) := by
  rw [Bus.info]
  split
  · next hbegun =>
    have hmove : ∀ outcome, OsloMessaging.Move.info n ≠ .handlerEnds outcome := nofun
    obtain ⟨hreads, hlog, hconsumer⟩ := step_frame (s := s.subscriber c) hmove
    have hx := (h.collector c).step (.info n)
    have hothers : ∀ n', n' ≠ n →
        ((s.subscriber c).step (.info n)).endpoint n' = (s.subscriber c).endpoint n' :=
      fun n' hne => endpoint_step (by simpa using Ne.symm hne) nofun
    -- whatever the broker makes of it, the collector's own step keeps what is known of it
    have hgo := fun place => h.go c (s.committed c) place hx hreads
      (fun n' hn' => by
        have hne : n' ≠ n := fun heq => by simp [heq, hbegun] at hn'
        rw [hothers n' hne]
        exact h.idle c n' hn')
      (fun hc => by
        obtain ⟨n', received, hphase, hstored⟩ := h.committed c hc
        exact ⟨n', received, hconsumer n' received hphase, hstored⟩)
      (fun n' hended => h.handled c n' (hlog n' hended))
    have hwork : s.work c (.info n)
        = (s.setSubscriber c ((s.subscriber c).step (.info n))).setCommitted c (s.committed c) := by
      rw [Bus.work]
      exact (setCommitted_self (s.setSubscriber c _) c).symm
    have hendpoint : ((s.work c (.info n)).subscriber c).endpoint n
        = ((s.subscriber c).step (.info n)).endpoint n := by simp [Bus.work, setSubscriber]
    have hwaits : ∀ m n', s.place m = .delivered c n' → n' ≠ n →
        ∀ result, ((s.subscriber c).step (.info n)).endpoint n' ≠ .returned result := by
      intro m n' hm hne
      rw [hothers n' hne]
      exact (h.outstanding m c n' hm).2.2
    rw [Bus.answer, hendpoint]
    split
    · next result hreturned =>
      split
      · next hplace =>
        rw [hwork]
        refine hgo (Function.update s.place (s.calls c n) (placeOf result)) (fun m => ?_)
          (fun m n' hm => ?_)
        · by_cases hm : m = s.calls c n
          · subst hm
            have hpublished := h.published c n hbegun
            cases result with
            | HANDLED =>
              -- `HANDLED` is answered after the handler has returned, and so after it has stored
              refine Or.inr ⟨hpublished, Or.inr ⟨by simp [placeOf], ?_⟩⟩
              rw [← h.reads, ← hreads]
              exact (hx.of_returned_handled hreturned).imp_right fun hended =>
                h.handled c n (hlog n hended)
            | REQUEUE =>
              exact Or.inr ⟨hpublished, Or.inl (by simp [placeOf])⟩
          · exact Or.inl (Function.update_of_ne hm ..)
        · by_cases heq : m = s.calls c n
          · subst heq
            cases result <;> simp [placeOf] at hm
          · have hold : s.place m = .delivered c n' := by
              rwa [Function.update_of_ne heq] at hm
            refine hwaits m n' hold fun hn => heq ?_
            rw [← (h.outstanding m c n' hold).1, hn]
      -- the broker has given up on this call: nobody hears the answer
      · next hplace =>
        rw [hwork]
        refine hgo s.place (fun m => Or.inl rfl) (fun m n' hm => hwaits m n' hm ?_)
        rintro rfl
        have hcalls := (h.outstanding m c n' hm).1
        exact hplace (hcalls ▸ hm)
    · next hsilent =>
      rw [hwork]
      refine hgo s.place (fun m => Or.inl rfl) (fun m n' hm result hreturned => ?_)
      by_cases hn : n' = n
      · exact hsilent result (hn ▸ hreturned)
      · exact hwaits m n' hm hn result hreturned
  · exact h

/-- A handler ends. -/
theorem handlerEnds (h : Fits db s) (c : ℕ) (outcome : Outcome) :
    Fits db (s.handlerEnds c outcome) := by
  rw [Bus.handlerEnds]
  split
  · exact h
  · next hcommit =>
    obtain ⟨hreads, hendpoint, hlog⟩ := step_handlerEnds (s := s.subscriber c) outcome
    refine h.go c false s.place ((h.collector c).step (.handlerEnds outcome)) hreads
      (fun n hbegun => by rw [hendpoint]; exact h.idle c n hbegun) nofun (fun n hended => ?_)
      (fun m => Or.inl rfl) (fun m n hm => by rw [hendpoint]; exact (h.outstanding m c n hm).2.2)
    rcases hlog n hended with hold | ⟨rfl, received, hphase⟩
    · exact h.handled c n hold
    · -- it returns, so it has committed
      have hcommitted : s.committed c = true := by simpa using hcommit
      obtain ⟨n', received', hphase', hstored⟩ := h.committed c hcommitted
      rw [hphase, Consumer.handling.injEq] at hphase'
      rwa [hphase'.1]

/-- A handler commits what it was given. -/
theorem commit (h : Fits db s) (c : ℕ) : Fits db (s.commit c) := by
  rw [Bus.commit]
  split
  · next n received hphase =>
    split
    · exact h
    · obtain ⟨hdecode, hevents⟩ := (h.collector c).events_handling hphase
      have hbegun : s.begun c n = true := by
        by_contra hnot
        exact hdecode (h.idle c n (by simpa using hnot))
      refine ⟨h.collector, h.reads, h.idle, h.outstanding, h.published, fun c' hc' => ?_,
        fun c' n' hended => List.mem_append_left _ (h.handled c' n' hended),
        fun m hm => (h.acked m hm).imp_right (List.mem_append_left _), fun m hm => ?_, ?_⟩
      · by_cases hc : c' = c
        · subst hc
          exact ⟨n, received, hphase, List.mem_append_right _ (List.mem_singleton_self _)⟩
        · obtain ⟨n', received', hphase', hstored⟩ :=
            h.committed c' (by simpa [setCommitted, hc] using hc')
          exact ⟨n', received', hphase', List.mem_append_left _ hstored⟩
      · rcases List.mem_append.mp hm with hm | hm
        · exact h.stored m hm
        · exact List.mem_singleton.mp hm ▸ h.published c n hbegun
      · have hbatch : s.events (s.calls c n) = ((s.subscriber c).delivery n).events := by
          rw [hevents, h.reads]
          rfl
        show s.store.applyMany _
          = ((s.stores ++ [s.calls c n]).map s.events).foldl SQLADataSource.applyMany db
        rw [List.map_append, List.foldl_append, ← h.store, ← hbatch]
        rfl
  · exact h

/-- A notification waits for a collector, for the first time or again. -/
theorem setReady (h : Fits db s) {m : ℕ} (hm : s.place m ≠ .acked) : Fits db (s.setPlace m .ready) := by
  have hplace : ∀ {m' place}, Function.update s.place m .ready m' = place → place ≠ .ready →
      s.place m' = place := by
    intro m' place heq hne
    by_cases hm' : m' = m
    · subst hm'
      simp only [Function.update_self] at heq
      exact absurd heq.symm hne
    · rwa [Function.update_of_ne hm'] at heq
  refine ⟨h.collector, h.reads, h.idle,
    fun m' c n hm' => h.outstanding m' c n (hplace hm' (by simp)),
    fun c n hbegun hun => h.published c n hbegun (hplace hun (by simp)), h.committed, h.handled,
    fun m' hm' => h.acked m' (hplace hm' (by simp)),
    fun m' hstored hun => h.stored m' hstored (hplace hun (by simp)), h.store⟩

/-- The broker makes a call. -/
theorem deliver (h : Fits db s) (c n : ℕ) : Fits db (s.deliver c n) := by
  rw [Bus.deliver]
  split
  · next hfree =>
    obtain ⟨hready, hidle⟩ := hfree
    have hbegun : ∀ {c' n'}, (c' ≠ c ∨ n' ≠ n) →
        Function.update s.begun c (Function.update (s.begun c) n true) c' n' = s.begun c' n' := by
      rintro c' n' hne
      by_cases hc : c' = c
      · subst hc
        rw [Function.update_self, Function.update_of_ne (hne.resolve_left fun hnot => hnot rfl)]
      · rw [Function.update_of_ne hc]
    have hplace : ∀ {m' place},
        Function.update s.place (s.calls c n) (.delivered c n) m' = place →
        place ≠ .delivered c n → s.place m' = place := by
      intro m' place heq hne
      by_cases hm' : m' = s.calls c n
      · subst hm'
        rw [Function.update_self] at heq
        exact absurd heq.symm hne
      · rwa [Function.update_of_ne hm'] at heq
    refine ⟨h.collector, h.reads, fun c' n' hn' => ?_, fun m c' n' hm => ?_,
      fun c' n' hn' hun => ?_, h.committed, h.handled, fun m hm => h.acked m (hplace hm (by simp)),
      fun m hstored hun => h.stored m hstored (hplace hun (by simp)), h.store⟩
    · by_cases hcall : c' = c ∧ n' = n
      · obtain ⟨rfl, rfl⟩ := hcall
        exact h.idle c' n' hidle
      · exact h.idle c' n' ((hbegun (not_and_or.mp hcall)).symm.trans hn')
    · by_cases hcall : c' = c ∧ n' = n
      · obtain ⟨rfl, rfl⟩ := hcall
        refine ⟨?_, by simp, fun result hreturned => ?_⟩
        -- a call is made once, so that the broker waits for it about one notification
        · by_contra hne
          have hold : s.place m = .delivered c' n' :=
            (Function.update_of_ne (Ne.symm hne) _ _).symm.trans hm
          have hbegan := (h.outstanding m c' n' hold).2.1
          rw [hidle] at hbegan
          cases hbegan
        · cases (h.idle c' n' hidle).symm.trans hreturned
      · have hold := hplace hm (by simpa using fun hc hn => hcall ⟨hc, hn⟩)
        obtain ⟨hcalls, hbegan, hwaiting⟩ := h.outstanding m c' n' hold
        exact ⟨hcalls, (hbegun (not_and_or.mp hcall)).trans hbegan, hwaiting⟩
    · have hold := hplace hun (by simp)
      by_cases hcall : c' = c ∧ n' = n
      · obtain ⟨rfl, rfl⟩ := hcall
        cases hready.symm.trans hold
      · exact h.published c' n' ((hbegun (not_and_or.mp hcall)).symm.trans hn') hold
  · exact h

/-- A collector is lost. -/
theorem crash (h : Fits db s) (c : ℕ) : Fits db (s.crash c) := by
  refine ⟨fun c' => ?_, fun c' n => ?_, fun c' n hn => ?_, fun m c' n hm => ?_,
    fun c' n hn hun => ?_, fun c' hc' => ?_, fun c' n hended => ?_,
    fun m hm => h.acked m (Place.takenBack_eq hm (by simp)).1,
    fun m hstored hun => h.stored m hstored (Place.takenBack_eq hun (by simp)).1, h.store⟩
  · by_cases hc : c' = c
    · subst hc
      simpa [Bus.crash] using inv_new _
    · simpa [Bus.crash, hc] using h.collector c'
  · by_cases hc : c' = c
    · subst hc
      simp [Bus.crash, setCommitted]
    · simpa [Bus.crash, setCommitted, hc] using h.reads c' n
  · by_cases hc : c' = c
    · subst hc
      simp [Bus.crash]
    · simpa [Bus.crash, hc] using h.idle c' n (by simpa [Bus.crash, hc] using hn)
  · obtain ⟨hold, hother⟩ := Place.takenBack_eq hm (by simp)
    have hc : c' ≠ c := fun heq => hother n (heq ▸ hold)
    simpa [Bus.crash, setCommitted, hc] using h.outstanding m c' n hold
  · have hold := (Place.takenBack_eq hun (by simp)).1
    by_cases hc : c' = c
    · subst hc
      simp [Bus.crash] at hn
    · exact h.published c' n (by simpa [Bus.crash, hc] using hn) hold
  · by_cases hc : c' = c
    · subst hc
      simp [Bus.crash, setCommitted] at hc'
    · simpa [Bus.crash, setCommitted, hc] using
        h.committed c' (by simpa [Bus.crash, setCommitted, hc] using hc')
  · by_cases hc : c' = c
    · subst hc
      simp [Bus.crash] at hended
    · exact h.handled c' n (by simpa [Bus.crash, hc] using hended)

/-- **No step brings the broker, the collectors and the store out of line.** -/
theorem step (h : Fits db s) (st : Step) : Fits db (s.step st) := by
  cases st with
  | publish m =>
    rw [Bus.step, publish]
    split
    · next hm => exact h.setReady (by simp [hm])
    · exact h
  | deliver c n => exact h.deliver c n
  | info c n => exact h.info c n
  | giveUp c n => exact h.work c nofun nofun
  | start c => exact h.work c nofun nofun
  | consume c => exact h.work c nofun nofun
  | commit c => exact h.commit c
  | handlerEnds c outcome => exact h.handlerEnds c outcome
  | stop c => exact h.work c nofun nofun
  | disconnect c n =>
    rw [Bus.step, disconnect]
    split
    · next hm => exact h.setReady (by simp [hm])
    · exact h
  | crash c => exact h.crash c

end Fits

theorem fits_run (message : ℕ → Option (List Event)) (calls : ℕ → ℕ → ℕ) (db : SQLADataSource)
    (steps : List Step) : Fits db (run step (new message calls db) steps) := by
  induction steps using List.reverseRecOn with
  | nil => exact .new message calls db
  | append_singleton steps st ih =>
    rw [run_concat]
    exact ih.step st

/-- What is published does not change. -/
theorem message_step (s : Bus) (st : Step) : (s.step st).message = s.message := by
  cases st with
  | info c n =>
    rw [step, info]
    split
    · rw [answer]
      repeat' split
      all_goals rfl
    · rfl
  | publish m | deliver c n | disconnect c n | handlerEnds c outcome =>
    simp only [step, publish, deliver, disconnect, handlerEnds]
    split <;> rfl
  | commit c =>
    rw [step, commit]
    repeat' split
    all_goals rfl
  | giveUp c n | start c | consume c | stop c | crash c => rfl

theorem message_run (message : ℕ → Option (List Event)) (calls : ℕ → ℕ → ℕ) (db : SQLADataSource)
    (steps : List Step) : (run step (new message calls db) steps).message = message := by
  induction steps using List.reverseRecOn with
  | nil => rfl
  | append_singleton steps st ih => rw [run_concat, message_step, ih]

/-- The events table is what storing each notification once leaves. -/
theorem Fits.held {db : SQLADataSource} {s : Bus} (h : Fits db s) (runId : String) :
    s.store.held runId
      = (Idempotent.firsts s.stores).foldl (fun stored m => Amqp.takes runId stored (s.events m))
        (db.held runId) := by
  rw [(Amqp.sink_takes runId _).foldl_firsts, h.store, Amqp.held_foldl_takes, List.foldl_map]

/-- **Nothing that is published is lost, and nothing is stored twice.**  Whatever the collectors of a
pool, their handlers, the broker and the connections go through: what the broker has done with a
notification that can be read is stored; the events of a run are those that storing each notification
once would leave, and the new ones were all published; the broker waits only for calls that have yet
to answer; and what a collector has given back it has not handled. -/
theorem bus_collects_once (message : ℕ → Option (List Event)) (calls : ℕ → ℕ → ℕ)
    (db : SQLADataSource) (steps : List Step) :
    let s := run step (new message calls db) steps
    (∀ m events, message m = some events → s.place m = .acked →
        ∀ e ∈ events, HasSeq (s.store.held e.runId) e.seq)
      ∧ (∀ runId, s.store.held runId
        = (Idempotent.firsts s.stores).foldl
          (fun stored m => Amqp.takes runId stored ((message m).getD [])) (db.held runId))
      ∧ (∀ runId, ∀ e ∈ s.store.held runId, e ∈ db.held runId
        ∨ ∃ m, s.place m ≠ .unpublished ∧ e ∈ (message m).getD [])
      ∧ (∀ m c n, s.place m = .delivered c n → s.calls c n = m ∧ s.begun c n = true
        ∧ ∀ result, (s.subscriber c).endpoint n ≠ .returned result)
      ∧ ∀ c n, .returned n .REQUEUE ∈ (s.subscriber c).log →
        .ended n .returned ∉ (s.subscriber c).log := by
  intro s
  have hfits : Fits db s := fits_run message calls db steps
  have hmessage : s.message = message := message_run message calls db steps
  have hheld := hfits.held
  simp only [events, hmessage] at hheld
  refine ⟨fun m events hm hacked e he => ?_, hheld, fun runId e he => ?_, hfits.outstanding,
    fun c n => (hfits.collector c).handedOver.requeued n⟩
  · have hstored : m ∈ s.stores :=
      (hfits.acked m hacked).resolve_left (by rw [hmessage, hm]; simp)
    rw [hheld]
    refine (Amqp.sink_takes e.runId fun m => (message m).getD []).holds_of_mem
      (mem_firsts.mpr hstored) _ e ?_ rfl
    rwa [hm]
  · rw [hfits.store, SQLADataSource.held_foldl_applyMany] at he
    rcases SQLADataSource.mem_foldl_keepFirst he with he | he
    · exact Or.inl he
    · obtain ⟨batch, hbatch, hmem⟩ := List.mem_flatten.mp (List.mem_filter.mp he).1
      obtain ⟨m, hm, rfl⟩ := List.mem_map.mp hbatch
      rw [events, hmessage] at hmem
      exact Or.inr ⟨m, hfits.stored m hm, hmem⟩

/-- A collector is given a notification and calls its handler, which stores it and then ends. -/
def handling (c : ℕ) (outcome : Outcome) : List Step :=
  [.deliver c 0, .info c 0, .info c 0, .consume c, .consume c, .consume c, .consume c, .commit c,
    .handlerEnds c outcome, .consume c, .consume c, .info c 0, .info c 0]

-- the first handler raises after it has committed, and another collector stores the batch again
example :
    let s := run step (new (fun _ => some [heartbeat 1]) (fun _ _ => 0) (SQLADataSource.filled []))
      (.publish 0 :: handling 0 .exception ++ handling 1 .returned)
    s.stores = [0, 0] ∧ s.place 0 = .acked ∧ s.store.held "run-1" = [heartbeat 1] := by decide

end Bus

end OsloMessaging

end TaskflowMeter
