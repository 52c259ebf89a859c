import TaskflowMeter.Transports.Custody

/-!
# The parties, interleaved

A step is about one delivery at most, and leaves the others as they are.

## Main definitions

* `OsloMessagingSubscriber.Inv` — every delivery is consistent, and `consume` counts what it
  has handled.

## Main results

* `Inv.change` — what has to be shown of a step.
* `Inv.info`, `Inv.consume`, `Inv.handlerEnds`, `Inv.stop` — what each party does.
* `Inv.step` — **every step keeps the invariant.**
-/

namespace TaskflowMeter

namespace OsloMessaging

namespace OsloMessagingSubscriber

/-- A party that has yet to settle the delivery has it, or will take it from the queue. -/
def Queued (s : OsloMessagingSubscriber) (n : ℕ) : Prop :=
  n ∈ s.pending ∨ (∃ received, s.consumer = .settle n received) ∨ s.stopper = .settle n

/-- What is known of the subscriber and of the calls of its endpoint. -/
structure Inv (s : OsloMessagingSubscriber) : Prop where
  consistent : ∀ n, Consistent n (s.notification n) (s.endpoint n) (s.delivery n)
    (s.consumer.held n) (s.stopper.held n) (s.story n)
  queued : ∀ n, s.Queued n → s.notification n ≠ none ∧ s.endpoint n ≠ .decode ∧ s.endpoint n ≠ .put
  events : ∀ n, (s.delivery n).events
    = if s.endpoint n = .decode then [] else (s.notification n).getD []
  expects : ∀ received, s.consumer.expects s.size = some received →
    received = ((handledSince s.log).map s.size).sum
  consumed : ∀ pre received post, s.log = pre ++ .consumed received :: post →
    received = ((handledSince pre).map s.size).sum

/-! ### The log -/

theorem handledSince_concat (log : List Note) (note : Note) :
    handledSince (log ++ [note])
      = match note with
        | .called => []
        | .ended n .returned => handledSince log ++ [n]
        | _ => handledSince log := by
  rw [handledSince, List.foldl_append]
  rfl

/-- A note that says nothing of what `consume` counts. -/
def Quiet : Note → Prop
  | .called | .consumed _ | .ended _ .returned => False
  | _ => True

theorem handledSince_quiet {note : Note} (h : Quiet note) (log : List Note) :
    handledSince (log ++ [note]) = handledSince log := by
  rw [handledSince_concat]
  cases note with
  | ended n outcome => cases outcome <;> first | exact h.elim | rfl
  | _ => first | exact h.elim | rfl

variable {s s' : OsloMessagingSubscriber} {n : ℕ}

/-- **A party does something about one delivery**, and may write a note of it. -/
theorem Inv.change (h : Inv s) (n : ℕ) {notes : List Note}
    (hnotification : s'.notification = s.notification) (hlog : s'.log = s.log ++ notes)
    (habout : ∀ note ∈ notes, ∀ m, note.about = some m → m = n)
    (hothers : ∀ m, m ≠ n → s'.endpoint m = s.endpoint m ∧ s'.delivery m = s.delivery m
      ∧ s'.consumer.held m = s.consumer.held m ∧ s'.stopper.held m = s.stopper.held m
      ∧ (s'.Queued m → s.Queued m))
    (hself : Consistent n (s.notification n) (s'.endpoint n) (s'.delivery n) (s'.consumer.held n)
      (s'.stopper.held n) (s.story n ++ notes.filter fun note => note.about = some n))
    (hqueued : s'.Queued n →
      s.notification n ≠ none ∧ s'.endpoint n ≠ .decode ∧ s'.endpoint n ≠ .put)
    (hevents : (s'.delivery n).events
      = if s'.endpoint n = .decode then [] else (s.notification n).getD [])
    (hexpects : ∀ received, s'.consumer.expects s.size = some received →
      received = ((handledSince s'.log).map s.size).sum)
    (hconsumed : ∀ pre received post, notes = pre ++ .consumed received :: post →
      received = ((handledSince (s.log ++ pre)).map s.size).sum) : Inv s' := by
  have hsize : s'.size = s.size := by
    funext m
    rw [size, size, hnotification]
  have hstory : ∀ m, s'.story m
      = s.story m ++ notes.filter fun note => note.about = some m := by
    intro m
    rw [story, story, hlog, List.filter_append]
  refine ⟨fun m => ?_, fun m hm => ?_, fun m => ?_, ?_, ?_⟩
  · rw [hstory, hnotification]
    by_cases hmn : m = n
    · subst hmn
      exact hself
    · obtain ⟨hendpoint, hdelivery, hconsumer, hstopper, -⟩ := hothers m hmn
      have hnone : (notes.filter fun note => note.about = some m) = [] := by
        rw [List.filter_eq_nil_iff]
        intro note hnote heq
        exact hmn (habout note hnote m (by simpa using heq))
      rw [hendpoint, hdelivery, hconsumer, hstopper, hnone, List.append_nil]
      exact h.consistent m
  · rw [hnotification]
    by_cases hmn : m = n
    · subst hmn
      exact hqueued hm
    · obtain ⟨hendpoint, -, -, -, hold⟩ := hothers m hmn
      rw [hendpoint]
      exact h.queued m (hold hm)
  · rw [hnotification]
    by_cases hmn : m = n
    · subst hmn
      exact hevents
    · obtain ⟨hendpoint, hdelivery, -⟩ := hothers m hmn
      rw [hdelivery, hendpoint]
      exact h.events m
  · rw [hsize]
    exact hexpects
  · intro pre received post heq
    rw [hlog] at heq
    rw [hsize]
    rcases List.append_eq_append_iff.mp heq with ⟨mid, hpre, hpost⟩ | ⟨mid, hpre, hpost⟩
    · rw [hpre]
      exact hconsumed mid received post hpost
    · cases mid with
      | nil =>
        rw [List.append_nil] at hpre
        rw [← hpre, ← List.append_nil s.log]
        exact hconsumed [] received post hpost.symm
      | cons note mid =>
        obtain ⟨rfl, -⟩ := List.cons.inj hpost
        exact h.consumed pre received mid hpre

/-- The same where `consume` neither counts anything nor returns. -/
theorem Inv.quietly (h : Inv s) (n : ℕ) {notes : List Note}
    (hnotification : s'.notification = s.notification) (hlog : s'.log = s.log ++ notes)
    (hnotes : notes = [] ∨ ∃ note, notes = [note] ∧ note.about = some n ∧ Quiet note)
    (hothers : ∀ m, m ≠ n → s'.endpoint m = s.endpoint m ∧ s'.delivery m = s.delivery m
      ∧ s'.consumer.held m = s.consumer.held m ∧ s'.stopper.held m = s.stopper.held m
      ∧ (s'.Queued m → s.Queued m))
    (hself : Consistent n (s.notification n) (s'.endpoint n) (s'.delivery n) (s'.consumer.held n)
      (s'.stopper.held n) (s.story n ++ notes))
    (hqueued : s'.Queued n →
      s.notification n ≠ none ∧ s'.endpoint n ≠ .decode ∧ s'.endpoint n ≠ .put)
    (hevents : (s'.delivery n).events
      = if s'.endpoint n = .decode then [] else (s.notification n).getD [])
    (hexpects : s'.consumer.expects s.size = s.consumer.expects s.size
      ∨ s'.consumer.expects s.size = none) : Inv s' := by
  have hsame : handledSince s'.log = handledSince s.log := by
    rw [hlog]
    rcases hnotes with rfl | ⟨note, rfl, -, hquiet⟩
    · rw [List.append_nil]
    · exact handledSince_quiet hquiet s.log
  refine h.change n hnotification hlog ?_ hothers ?_ hqueued hevents ?_ ?_
  · rcases hnotes with rfl | ⟨note, rfl, habout, -⟩
    · simp
    · intro note' hmem m hm
      rw [List.mem_singleton.mp hmem, habout] at hm
      exact (Option.some.inj hm).symm
  · have hfilter : (notes.filter fun note => note.about = some n) = notes := by
      rcases hnotes with rfl | ⟨note, rfl, habout, -⟩
      · rfl
      · simp [habout]
    rwa [hfilter]
  · intro received heq
    rw [hsame]
    rcases hexpects with hexp | hexp
    · exact h.expects received (hexp ▸ heq)
    · simp [hexp] at heq
  · intro pre received post heq
    rcases hnotes with rfl | ⟨note, rfl, -, hquiet⟩
    · simp at heq
    · have hmem : Note.consumed received ∈ [note] := by
        rw [heq]
        simp
      rw [← List.mem_singleton.mp hmem] at hquiet
      exact hquiet.elim

/-! ### The endpoint -/

/-- The endpoint goes on, and nothing is put on the queue or taken from it. -/
theorem Inv.endpointMoves (h : Inv s) {e : Endpoint} {d : Delivery} {notes : List Note}
    (hendpoint : s'.endpoint = Function.update s.endpoint n e)
    (hdelivery : s'.delivery = Function.update s.delivery n d) (hlog : s'.log = s.log ++ notes)
    (hrest : s'.notification = s.notification ∧ s'.pending = s.pending
      ∧ s'.consumer = s.consumer ∧ s'.stopper = s.stopper)
    (hnotes : notes = [] ∨ ∃ note, notes = [note] ∧ note.about = some n ∧ Quiet note)
    (hself : Consistent n (s.notification n) e d (s.consumer.held n) (s.stopper.held n)
      (s.story n ++ notes))
    (hphase : e ≠ .decode ∧ (e = .put → s.endpoint n = .decode))
    (hevents : d.events = (s.notification n).getD []) : Inv s' := by
  obtain ⟨hnotification, hpending, hconsumer, hstopper⟩ := hrest
  have hqueued : ∀ m, s'.Queued m → s.Queued m := by
    intro m hm
    rwa [Queued, hpending, hconsumer, hstopper] at hm
  refine h.quietly n hnotification hlog hnotes (fun m hmn => ?_) ?_ (fun hm => ?_) ?_ (Or.inl ?_)
  · rw [hendpoint, hdelivery, Function.update_of_ne hmn, Function.update_of_ne hmn, hconsumer,
      hstopper]
    exact ⟨rfl, rfl, rfl, rfl, hqueued m⟩
  · rw [hendpoint, hdelivery, Function.update_self, Function.update_self, hconsumer, hstopper]
    exact hself
  · obtain ⟨hread, hdecode, -⟩ := h.queued n (hqueued n hm)
    rw [hendpoint, Function.update_self]
    exact ⟨hread, hphase.1, fun hput => hdecode (hphase.2 hput)⟩
  · rw [hdelivery, hendpoint, Function.update_self, Function.update_self, if_neg hphase.1]
    exact hevents
  · rw [hconsumer]

/-- The endpoint does nothing but to go on. -/
theorem Inv.setEndpoint (h : Inv s) {e : Endpoint}
    (hself : Consistent n (s.notification n) e (s.delivery n) (s.consumer.held n)
      (s.stopper.held n) (s.story n))
    (hnow : s.endpoint n ≠ .decode) (hnext : e ≠ .decode ∧ e ≠ .put) :
    Inv (s.setEndpoint n e) := by
  refine h.endpointMoves rfl (Function.update_eq_self n s.delivery).symm
    (List.append_nil s.log).symm ⟨rfl, rfl, rfl, rfl⟩ (Or.inl rfl) ?_
    ⟨hnext.1, fun hput => absurd hput hnext.2⟩ ((h.events n).trans (if_neg hnow))
  rwa [List.append_nil]

/-- The endpoint returns. -/
theorem Inv.answer (h : Inv s) {result : NotificationResult}
    (hself : Consistent n (s.notification n) (.returned result) (s.delivery n)
      (s.consumer.held n) (s.stopper.held n) (s.story n ++ [.returned n result]))
    (hnow : s.endpoint n = .decode → s.notification n = none) : Inv (s.answer n result) := by
  have hevents : (s.delivery n).events = (s.notification n).getD [] := by
    rw [h.events n]
    split
    · rw [hnow ‹_›]
      rfl
    · rfl
  refine h.endpointMoves rfl (Function.update_eq_self n s.delivery).symm rfl ⟨rfl, rfl, rfl, rfl⟩
    (Or.inr ⟨_, rfl, rfl, trivial⟩) hself ⟨by simp, by simp⟩ hevents

/-- The endpoint puts its delivery on the queue. -/
theorem Inv.put (h : Inv s) (hput : s.endpoint n = .put) :
    Inv { s.setEndpoint n .timedWait with pending := s.pending ++ [n] } := by
  have hself := h.consistent n
  rw [hput] at hself
  obtain ⟨hread, hnext⟩ := hself.put
  refine h.quietly n rfl (List.append_nil s.log).symm (Or.inl rfl) (fun m hmn => ?_) ?_
    (fun _ => ⟨hread, ?_⟩) ?_ (Or.inl rfl)
  · refine ⟨Function.update_of_ne hmn _ _, rfl, rfl, rfl, ?_⟩
    rintro (hm | hm)
    · have hm' : m ∈ s.pending ∨ m ∈ [n] := List.mem_append.mp hm
      exact Or.inl (hm'.resolve_right fun hmem => hmn (List.mem_singleton.mp hmem))
    · exact Or.inr hm
  · rw [List.append_nil, OsloMessagingSubscriber.setEndpoint]
    simpa using hnext
  · simp [OsloMessagingSubscriber.setEndpoint]
  · have hevents := (h.events n).trans (if_neg (by simp [hput]))
    simpa [OsloMessagingSubscriber.setEndpoint] using hevents

/-- **A call of `info` goes on.** -/
theorem Inv.info (h : Inv s) (n : ℕ) : Inv (s.info n) := by
  have hself := h.consistent n
  cases hphase : s.endpoint n with
  | decode =>
    rw [hphase] at hself
    unfold OsloMessagingSubscriber.info
    rw [hphase]
    cases hread : s.notification n with
    | none => exact h.answer (hself.discard hread) fun _ => hread
    | some events =>
      have hread' : s.notification n ≠ none := by simp [hread]
      refine h.endpointMoves rfl rfl (List.append_nil s.log).symm ⟨rfl, rfl, rfl, rfl⟩ (Or.inl rfl)
        ?_ ⟨by simp, fun _ => hphase⟩ (by simp [hread])
      rw [List.append_nil]
      exact hself.decode hread' events
  | put =>
    unfold OsloMessagingSubscriber.info
    rw [hphase]
    exact h.put hphase
  | timedWait =>
    rw [hphase] at hself
    unfold OsloMessagingSubscriber.info
    rw [hphase]
    dsimp only
    split
    · exact h.setEndpoint (hself.wake trivial ‹_›) (by simp [hphase]) (by simp)
    · exact h
  | settle =>
    rw [hphase] at hself
    unfold OsloMessagingSubscriber.info
    rw [hphase]
    dsimp only
    cases hsettled : (s.delivery n).settled with
    | true =>
      rw [Delivery.settle_of_settled hsettled]
      refine h.setEndpoint ?_ (by simp [hphase]) (by simp)
      exact hself.goOn trivial trivial (by simp [hsettled])
    | false =>
      rw [Delivery.settle_of_free hsettled]
      refine h.endpointMoves rfl rfl rfl ⟨rfl, rfl, rfl, rfl⟩ (Or.inr ⟨_, rfl, rfl, trivial⟩)
        (hself.giveUp hsettled) (by simp) ((h.events n).trans (if_neg (by simp [hphase])))
  | requeue =>
    rw [hphase] at hself
    unfold OsloMessagingSubscriber.info
    rw [hphase]
    exact h.answer hself.requeue (by simp [hphase])
  | wait =>
    rw [hphase] at hself
    unfold OsloMessagingSubscriber.info
    rw [hphase]
    dsimp only
    split
    · exact h.setEndpoint (hself.wake trivial ‹_›) (by simp [hphase]) (by simp)
    · exact h
  | verdict =>
    rw [hphase] at hself
    unfold OsloMessagingSubscriber.info
    rw [hphase]
    exact h.answer hself.answer (by simp [hphase])
  | returned result =>
    unfold OsloMessagingSubscriber.info
    rw [hphase]
    exact h

/-- **The timed wait gives up.** -/
theorem Inv.giveUp (h : Inv s) (n : ℕ) : Inv (s.giveUp n) := by
  by_cases hphase : s.endpoint n = .timedWait
  · have hself := h.consistent n
    rw [hphase] at hself
    unfold OsloMessagingSubscriber.giveUp
    rw [hphase]
    exact h.setEndpoint (hself.goOn trivial trivial fun _ => trivial) (by simp [hphase]) (by simp)
  · have hsame : s.giveUp n = s := by
      unfold OsloMessagingSubscriber.giveUp
      split
      · exact absurd ‹_› hphase
      · rfl
    rwa [hsame]

/-! ### The consumer and `stop` -/

theorem queued_of_consumer (hpending : s'.pending = s.pending) (hstopper : s'.stopper = s.stopper)
    (hsettle : ∀ m received, s'.consumer ≠ .settle m received) (m : ℕ) (hm : s'.Queued m) :
    s.Queued m := by
  rcases hm with hm | ⟨received, hm⟩ | hm
  · exact Or.inl (hpending ▸ hm)
  · exact absurd hm (hsettle m received)
  · exact Or.inr (Or.inr (hstopper ▸ hm))

theorem queued_of_stopper (hpending : s'.pending = s.pending)
    (hconsumer : s'.consumer = s.consumer) (hsettle : ∀ m, s'.stopper ≠ .settle m) (m : ℕ)
    (hm : s'.Queued m) : s.Queued m := by
  rcases hm with hm | hm | hm
  · exact Or.inl (hpending ▸ hm)
  · exact Or.inr (Or.inl (hconsumer ▸ hm))
  · exact absurd hm (hsettle m)

/-- The consumer goes on with what it does about one delivery, and does not return. -/
theorem Inv.consumerMoves (h : Inv s) (n : ℕ) {c : Consumer} {d : Delivery} {notes : List Note}
    (hconsumer : s'.consumer = c) (hdelivery : s'.delivery = Function.update s.delivery n d)
    (hlog : s'.log = s.log ++ notes)
    (hrest : s'.notification = s.notification ∧ s'.endpoint = s.endpoint
      ∧ s'.pending = s.pending ∧ s'.stopper = s.stopper)
    (hnotes : notes = [] ∨ ∃ note, notes = [note] ∧ note.about = some n ∧ Quiet note)
    (hsettle : ∀ m received, c ≠ .settle m received)
    (habout : s.consumer.About n ∧ c.About n)
    (hself : Consistent n (s.notification n) (s.endpoint n) d (c.held n) (s.stopper.held n)
      (s.story n ++ notes))
    (hevents : d.events = (s.delivery n).events)
    (hexpects : c.expects s.size = s.consumer.expects s.size ∨ c.expects s.size = none) :
    Inv s' := by
  subst hconsumer
  obtain ⟨hnotification, hendpoint, hpending, hstopper⟩ := hrest
  have hqueued := queued_of_consumer hpending hstopper hsettle
  refine h.quietly n hnotification hlog hnotes (fun m hmn => ?_) ?_ (fun hm => ?_) ?_ hexpects
  · rw [hendpoint, hdelivery, Function.update_of_ne hmn, hstopper, habout.1.held_of_ne hmn,
      habout.2.held_of_ne hmn]
    exact ⟨rfl, rfl, rfl, rfl, hqueued m⟩
  · rw [hendpoint, hdelivery, Function.update_self, hstopper]
    exact hself
  · rw [hendpoint]
    exact h.queued n (hqueued n hm)
  · rw [hendpoint, hdelivery, Function.update_self, hevents, h.events]

/-- `stop` goes on with what it does about one delivery. -/
theorem Inv.stopperMoves (h : Inv s) (n : ℕ) {c : Stopper} {d : Delivery} {notes : List Note}
    (hstopper : s'.stopper = c) (hdelivery : s'.delivery = Function.update s.delivery n d)
    (hlog : s'.log = s.log ++ notes)
    (hrest : s'.notification = s.notification ∧ s'.endpoint = s.endpoint
      ∧ s'.pending = s.pending ∧ s'.consumer = s.consumer)
    (hnotes : notes = [] ∨ ∃ note, notes = [note] ∧ note.about = some n ∧ Quiet note)
    (hsettle : ∀ m, c ≠ .settle m) (habout : s.stopper.About n ∧ c.About n)
    (hself : Consistent n (s.notification n) (s.endpoint n) d (s.consumer.held n) (c.held n)
      (s.story n ++ notes))
    (hevents : d.events = (s.delivery n).events) : Inv s' := by
  subst hstopper
  obtain ⟨hnotification, hendpoint, hpending, hconsumer⟩ := hrest
  have hqueued := queued_of_stopper hpending hconsumer hsettle
  refine h.quietly n hnotification hlog hnotes (fun m hmn => ?_) ?_ (fun hm => ?_) ?_ (Or.inl ?_)
  · rw [hendpoint, hdelivery, Function.update_of_ne hmn, hconsumer, habout.1.held_of_ne hmn,
      habout.2.held_of_ne hmn]
    exact ⟨rfl, rfl, rfl, rfl, hqueued m⟩
  · rw [hendpoint, hdelivery, Function.update_self, hconsumer]
    exact hself
  · rw [hendpoint]
    exact h.queued n (hqueued n hm)
  · rw [hendpoint, hdelivery, Function.update_self, hevents, h.events]
  · rw [hconsumer]

/-- Nothing happens to a delivery. -/
theorem Inv.goesOn (h : Inv s)
    (hsame : s'.notification = s.notification ∧ s'.endpoint = s.endpoint
      ∧ s'.delivery = s.delivery ∧ s'.log = s.log)
    (hheld : ∀ m, s'.consumer.held m = s.consumer.held m ∧ s'.stopper.held m = s.stopper.held m)
    (hqueued : ∀ m, s'.Queued m → s.Queued m)
    (hexpects : s'.consumer.expects s.size = s.consumer.expects s.size) : Inv s' := by
  obtain ⟨hnotification, hendpoint, hdelivery, hlog⟩ := hsame
  have hlog' : s'.log = s.log ++ [] := by rw [hlog, List.append_nil]
  refine h.quietly 0 hnotification hlog' (Or.inl rfl) (fun m _ => ?_) ?_ (fun hm => ?_) ?_
    (Or.inl hexpects)
  · rw [hendpoint, hdelivery]
    exact ⟨rfl, rfl, (hheld m).1, (hheld m).2, hqueued m⟩
  · rw [hendpoint, hdelivery, (hheld 0).1, (hheld 0).2, List.append_nil]
    exact h.consistent 0
  · rw [hendpoint]
    exact h.queued 0 (hqueued 0 hm)
  · rw [hendpoint, hdelivery, h.events]

/-- A delivery that is still to be settled, and that nobody has settled. -/
theorem Inv.unsettled (h : Inv s) (hqueued : s.Queued n)
    (hsettled : (s.delivery n).settled = false) :
    (s.endpoint n).Waiting ∧ (s.delivery n).done = false ∧ s.consumer.held n = .no
      ∧ s.stopper.held n = .no ∧ s.story n = [] := by
  obtain ⟨hread, hdecode, hput⟩ := h.queued n hqueued
  exact (h.consistent n).waiting_of_unsettled hsettled hread hdecode hput

/-- **`stop` is called, or goes on.** -/
theorem Inv.stop (h : Inv s) : Inv s.stop := by
  cases hphase : s.stopper with
  | outside =>
    unfold OsloMessagingSubscriber.stop
    rw [hphase]
    dsimp only
    split
    · exact h.goesOn ⟨rfl, rfl, rfl, rfl⟩ (fun m => ⟨rfl, by rw [hphase]; rfl⟩)
        (queued_of_stopper rfl rfl fun m hm => by cases hm) rfl
    · exact h
  | get =>
    unfold OsloMessagingSubscriber.stop
    rw [hphase]
    dsimp only
    cases hpending : s.pending with
    | nil =>
      exact h.goesOn ⟨rfl, rfl, rfl, rfl⟩ (fun m => ⟨rfl, by rw [hphase]; rfl⟩)
        (queued_of_stopper rfl rfl fun m hm => by cases hm) rfl
    | cons n pending =>
      refine h.goesOn ⟨rfl, rfl, rfl, rfl⟩ (fun m => ⟨rfl, by rw [hphase]; rfl⟩)
        (fun m hm => ?_) rfl
      rcases hm with hm | hm | hm
      · exact Or.inl (hpending ▸ List.mem_cons_of_mem n hm)
      · exact Or.inr (Or.inl hm)
      · obtain rfl := Stopper.settle.inj hm
        exact Or.inl (hpending ▸ List.mem_cons_self)
  | settle n =>
    unfold OsloMessagingSubscriber.stop
    rw [hphase]
    dsimp only
    cases hsettled : (s.delivery n).settled with
    | true =>
      rw [Delivery.settle_of_settled hsettled]
      exact h.goesOn ⟨rfl, rfl, rfl, rfl⟩ (fun m => ⟨rfl, by rw [hphase]; rfl⟩)
        (queued_of_stopper rfl rfl fun m hm => by cases hm) rfl
    | false =>
      rw [Delivery.settle_of_free hsettled]
      obtain ⟨hwaiting, hdone, hconsumer, -, hstory⟩ :=
        h.unsettled (Or.inr (Or.inr hphase)) hsettled
      refine h.stopperMoves n (c := .finish n) rfl rfl rfl ⟨rfl, rfl, rfl, rfl⟩
        (Or.inr ⟨_, rfl, rfl, trivial⟩)
        (fun m hm => by cases hm) ⟨by rw [hphase]; trivial, rfl⟩ ?_ rfl
      rw [hconsumer, hstory, Stopper.held_finish]
      exact .releasing hwaiting rfl hdone
  | finish n =>
    have hself := h.consistent n
    rw [hphase, Stopper.held_finish] at hself
    unfold OsloMessagingSubscriber.stop
    rw [hphase]
    refine h.stopperMoves n (c := .signal n) rfl rfl (List.append_nil s.log).symm
      ⟨rfl, rfl, rfl, rfl⟩ (Or.inl rfl) (fun m hm => by cases hm) ⟨by rw [hphase]; rfl, rfl⟩ ?_ rfl
    rw [List.append_nil, Stopper.held_signal]
    exact hself.release
  | signal n =>
    have hself := h.consistent n
    rw [hphase, Stopper.held_signal] at hself
    unfold OsloMessagingSubscriber.stop
    rw [hphase]
    refine h.stopperMoves n (c := .get) rfl rfl (List.append_nil s.log).symm
      ⟨rfl, rfl, rfl, rfl⟩ (Or.inl rfl) (fun m hm => by cases hm)
      ⟨by rw [hphase]; rfl, trivial⟩ ?_ rfl
    rw [List.append_nil]
    exact hself.unpark

/-- `consume` is called or returns, which concerns no delivery. -/
theorem Inv.outside (h : Inv s) {note : Note} (hlog : s'.log = s.log ++ [note])
    (hrest : s'.notification = s.notification ∧ s'.endpoint = s.endpoint
      ∧ s'.delivery = s.delivery ∧ s'.pending = s.pending ∧ s'.stopper = s.stopper)
    (hsettle : ∀ m received, s'.consumer ≠ .settle m received)
    (hheld : ∀ m, s'.consumer.held m = s.consumer.held m) (habout : note.about = none)
    (hexpects : ∀ received, s'.consumer.expects s.size = some received →
      received = ((handledSince (s.log ++ [note])).map s.size).sum)
    (hconsumed : ∀ received, note = .consumed received →
      received = ((handledSince s.log).map s.size).sum) : Inv s' := by
  obtain ⟨hnotification, hendpoint, hdelivery, hpending, hstopper⟩ := hrest
  have hqueued := queued_of_consumer hpending hstopper hsettle
  refine h.change 0 hnotification hlog (by simp [habout]) (fun m _ => ?_) ?_ (fun hm => ?_) ?_ ?_ ?_
  · rw [hendpoint, hdelivery, hstopper]
    exact ⟨rfl, rfl, hheld m, rfl, hqueued m⟩
  · rw [hendpoint, hdelivery, hheld, hstopper, List.filter_cons_of_neg (by simp [habout]),
      List.filter_nil, List.append_nil]
    exact h.consistent 0
  · rw [hendpoint]
    exact h.queued 0 (hqueued 0 hm)
  · rw [hendpoint, hdelivery, h.events]
  · rwa [hlog]
  · intro pre received post heq
    cases pre with
    | nil =>
      obtain ⟨hnote, -⟩ := List.cons.inj heq
      rw [List.append_nil]
      exact hconsumed received hnote
    | cons note pre => simp at heq

/-- `consume` is called. -/
theorem Inv.called (h : Inv s) (hphase : s.consumer = .outside) :
    Inv ((s.start.setConsumer (.get 0)).note .called) := by
  refine h.outside rfl ⟨rfl, rfl, rfl, rfl, rfl⟩ (fun m received hm => by cases hm)
    (fun m => by rw [hphase]; rfl) rfl (fun received heq => ?_) (fun received heq => by cases heq)
  obtain rfl := Option.some.inj heq
  rw [handledSince_concat]
  rfl

/-- `consume` returns. -/
theorem Inv.returns (h : Inv s) {received : ℕ} (hphase : s.consumer = .get received) :
    Inv ((s.setConsumer .outside).note (.consumed received)) := by
  refine h.outside rfl ⟨rfl, rfl, rfl, rfl, rfl⟩ (fun m received hm => by cases hm)
    (fun m => by rw [hphase]; rfl) rfl (fun received heq => by cases heq) (fun received' heq => ?_)
  obtain rfl := Note.consumed.inj heq
  exact h.expects received (by rw [hphase]; rfl)

/-- `consume` claims a delivery that nobody has settled. -/
theorem Inv.claims (h : Inv s) {received : ℕ} (hphase : s.consumer = .settle n received)
    (hsettled : (s.delivery n).settled = false) :
    Inv (((s.setDelivery n { s.delivery n with settled := true }).setConsumer
      (.handle n received)).note (.settled .consumer n)) := by
  obtain ⟨hwaiting, hdone, -, hstopper, hstory⟩ :=
    h.unsettled (Or.inr (Or.inl ⟨received, hphase⟩)) hsettled
  refine h.consumerMoves n (c := .handle n received) rfl rfl rfl ⟨rfl, rfl, rfl, rfl⟩
    (Or.inr ⟨_, rfl, rfl, trivial⟩) (fun m received' hm => by cases hm)
    ⟨by rw [hphase]; trivial, rfl⟩ ?_ rfl (Or.inl (by rw [hphase]; rfl))
  rw [hstopper, hstory, Consumer.held_handle]
  exact .claimed hwaiting rfl hdone

/-- `consume` sets the event of a delivery, and counts what was handled of it. -/
theorem Inv.sets (h : Inv s) {received : ℕ} {handled : Bool}
    (hphase : s.consumer = .signal n received handled) {total : ℕ}
    (htotal : total = received + if handled then s.size n else 0) :
    Inv ((s.setDelivery n { s.delivery n with done := true }).setConsumer (.get total)) := by
  subst htotal
  have hself := h.consistent n
  rw [hphase, Consumer.held_signal] at hself
  refine h.consumerMoves n (c := .get _) rfl rfl (List.append_nil s.log).symm
    ⟨rfl, rfl, rfl, rfl⟩ (Or.inl rfl) (fun m received' hm => by cases hm)
    ⟨by rw [hphase]; rfl, trivial⟩ ?_ rfl (Or.inl (by rw [hphase]; rfl))
  rw [List.append_nil]
  exact hself.signal

/-- A delivery has the events of its notification when it is counted. -/
theorem Inv.length_events (h : Inv s) {received : ℕ} {handled : Bool}
    (hphase : s.consumer = .signal n received handled) :
    (s.delivery n).events.length = s.size n := by
  have hself := h.consistent n
  rw [hphase, Consumer.held_signal] at hself
  rw [h.events, size, if_neg]
  intro hdecode
  rw [hdecode] at hself
  exact hself.waiting_of_signalling

/-- **`consume` is called, or goes on.** -/
theorem Inv.consume (h : Inv s) : Inv s.consume := by
  cases hphase : s.consumer with
  | outside =>
    unfold OsloMessagingSubscriber.consume
    rw [hphase]
    exact h.called hphase
  | get received =>
    unfold OsloMessagingSubscriber.consume
    rw [hphase]
    dsimp only
    cases hpending : s.pending with
    | nil => exact h.returns hphase
    | cons n pending =>
      refine h.goesOn ⟨rfl, rfl, rfl, rfl⟩ (fun m => ⟨by rw [hphase]; rfl, rfl⟩) (fun m hm => ?_)
        (by rw [hphase]; rfl)
      rcases hm with hm | ⟨received', hm⟩ | hm
      · exact Or.inl (hpending ▸ List.mem_cons_of_mem n hm)
      · obtain ⟨rfl, -⟩ := Consumer.settle.inj hm
        exact Or.inl (hpending ▸ List.mem_cons_self)
      · exact Or.inr (Or.inr hm)
  | settle n received =>
    unfold OsloMessagingSubscriber.consume
    rw [hphase]
    dsimp only
    cases hsettled : (s.delivery n).settled with
    | true =>
      rw [Delivery.settle_of_settled hsettled]
      exact h.goesOn ⟨rfl, rfl, rfl, rfl⟩ (fun m => ⟨by rw [hphase]; rfl, rfl⟩)
        (queued_of_consumer rfl rfl fun m received' hm => by cases hm) (by rw [hphase]; rfl)
    | false =>
      rw [Delivery.settle_of_free hsettled]
      exact h.claims hphase hsettled
  | handle n received =>
    have hself := h.consistent n
    rw [hphase, Consumer.held_handle] at hself
    unfold OsloMessagingSubscriber.consume
    rw [hphase]
    refine h.consumerMoves n (c := .handling n received) rfl
      (Function.update_eq_self n s.delivery).symm rfl ⟨rfl, rfl, rfl, rfl⟩
      (Or.inr ⟨_, rfl, rfl, trivial⟩) (fun m received' hm => by cases hm)
      ⟨by rw [hphase]; rfl, rfl⟩ ?_ rfl (Or.inl (by rw [hphase]; rfl))
    rw [Consumer.held_handling]
    exact hself.handle
  | handling n received =>
    unfold OsloMessagingSubscriber.consume
    rw [hphase]
    exact h
  | finish n received handled =>
    have hself := h.consistent n
    rw [hphase, Consumer.held_finish] at hself
    unfold OsloMessagingSubscriber.consume
    rw [hphase]
    refine h.consumerMoves n (c := .signal n received handled) rfl rfl
      (List.append_nil s.log).symm ⟨rfl, rfl, rfl, rfl⟩ (Or.inl rfl)
      (fun m received' hm => by cases hm) ⟨by rw [hphase]; rfl, rfl⟩ ?_ rfl
      (Or.inl (by rw [hphase]; rfl))
    rw [List.append_nil, Consumer.held_signal]
    exact hself.finish
  | signal n received handled =>
    unfold OsloMessagingSubscriber.consume
    rw [hphase]
    cases handled with
    | true =>
      refine h.sets hphase ?_
      rw [if_pos rfl, ← h.length_events hphase]
      simp [setDelivery]
    | false => exact (h.sets hphase rfl).returns rfl

/-- **The handler ends.** -/
theorem Inv.handlerEnds (h : Inv s) (outcome : Outcome) : Inv (s.handlerEnds outcome) := by
  cases hphase : s.consumer with
  | handling n received =>
    have hself := h.consistent n
    rw [hphase, Consumer.held_handling] at hself
    have habout : s.consumer.About n := by rw [hphase]; rfl
    have hexpects : s.consumer.expects s.size = some received := by rw [hphase]; rfl
    unfold OsloMessagingSubscriber.handlerEnds
    rw [hphase]
    cases outcome with
    | returned =>
      have hqueued : ∀ m, ((s.note (.ended n .returned)).setConsumer
          (.finish n received true)).Queued m → s.Queued m :=
        queued_of_consumer rfl rfl fun m received' hm => by cases hm
      have hnext : (Consumer.finish n received true).About n := rfl
      refine h.change n rfl rfl (by simp [Note.about]) (fun m hmn => ⟨rfl, rfl, ?_, rfl, hqueued m⟩)
        ?_ (fun hm => h.queued n (hqueued n hm)) (h.events n) ?_ ?_
      · rw [habout.held_of_ne hmn]
        exact hnext.held_of_ne hmn
      · have hcaught := hself.caught true
        rw [← Consumer.held_finish n received true] at hcaught
        simp only [Note.about, List.filter_cons, List.filter_nil]
        exact hcaught
      · intro total heq
        obtain rfl := Option.some.inj heq
        show _ = ((handledSince (s.log ++ [.ended n .returned])).map s.size).sum
        rw [handledSince_concat, h.expects received hexpects]
        simp [size]
      · intro pre received' post heq
        have hmem : Note.consumed received' ∈ [Note.ended n .returned] := by
          rw [heq]
          simp
        simp at hmem
    | exception =>
      refine h.consumerMoves n (c := .finish n received false) rfl
        (Function.update_eq_self n s.delivery).symm rfl ⟨rfl, rfl, rfl, rfl⟩
        (Or.inr ⟨_, rfl, rfl, trivial⟩) (fun m received' hm => by cases hm) ⟨habout, rfl⟩ ?_ rfl
        (Or.inl hexpects.symm)
      rw [Consumer.held_finish]
      exact hself.caught false
    | interrupt =>
      exact h.consumerMoves n (c := .outside) rfl (Function.update_eq_self n s.delivery).symm rfl
        ⟨rfl, rfl, rfl, rfl⟩ (Or.inr ⟨_, rfl, rfl, trivial⟩) (fun m received' hm => by cases hm)
        ⟨habout, trivial⟩ hself.drop rfl (Or.inr rfl)
  | _ =>
    unfold OsloMessagingSubscriber.handlerEnds
    rw [hphase]
    exact h

/-- **Whatever one party does next** keeps what is known. -/
theorem Inv.step (h : Inv s) (move : Move) : Inv (s.step move) := by
  cases move with
  | info n => exact h.info n
  | giveUp n => exact h.giveUp n
  | start => exact h.goesOn ⟨rfl, rfl, rfl, rfl⟩ (fun _ => ⟨rfl, rfl⟩) (fun _ hm => hm) rfl
  | consume => exact h.consume
  | handlerEnds outcome => exact h.handlerEnds outcome
  | stop => exact h.stop

/-- Before anything has happened. -/
theorem inv_new (notification : ℕ → Option (List Event)) :
    Inv { notification := notification } where
  consistent _ := .unsettled trivial (by simp) rfl rfl
  queued := by rintro n (hm | ⟨received, hm⟩ | hm) <;> cases hm
  events _ := rfl
  expects := by
    intro received heq
    cases heq
  consumed := by
    intro pre received post heq
    simp at heq

end OsloMessagingSubscriber

end OsloMessaging

end TaskflowMeter
