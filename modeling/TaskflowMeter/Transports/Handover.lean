import TaskflowMeter.Contiguous
import TaskflowMeter.Transports.Interleaving

/-!
# Handing a batch over, once

A delivery that the handler has taken is acknowledged, and one that it has not is given
back to the broker.  Whoever claims a delivery owes it a verdict, which its endpoint may be
waiting for without a timeout.

## Main definitions

* `HandedOver` — what may be seen of a run.
* `NobodyStuck` — what `consume` has settled it has finished, and nobody waits for a verdict
  that nobody will give.
* `Caught` — the handler does not end with anything but an `Exception`.

## Main results

* `handedOver_run` — **no batch is both stored and given back, and none is acknowledged
  that was not stored.**
* `always_nobodyStuck_iff` — **nobody gets stuck in a run exactly when `consume` catches
  whatever its handler raises.**
-/

namespace TaskflowMeter

namespace OsloMessaging

open Runs OsloMessagingSubscriber

/-- A call of `settle` returned true. -/
def Note.settles (n : ℕ) : Note → Bool
  | settled _ m => m = n
  | _ => false

/-- What may be seen of a run. -/
structure HandedOver (s : OsloMessagingSubscriber) : Prop where
  /-- At most one call of `settle` returns true. -/
  settled : ∀ n, (s.log.filter (Note.settles n)).length ≤ 1
  /-- The handler runs at most once. -/
  started : ∀ n, s.log.count (.started n) ≤ 1
  /-- It does not start after the endpoint has returned. -/
  before : ∀ n pre post, s.log = pre ++ .started n :: post → ∀ result, .returned n result ∉ pre
  /-- The endpoint of a readable notification returns `HANDLED` only after the handler has. -/
  handled : ∀ n, s.notification n ≠ none →
    ∀ pre post, s.log = pre ++ .returned n .HANDLED :: post → .ended n .returned ∈ pre
  /-- The endpoint returns `REQUEUE` only if the handler never does. -/
  requeued : ∀ n, .returned n .REQUEUE ∈ s.log → .ended n .returned ∉ s.log
  /-- A call of `consume` returns how many events it has handled. -/
  consumed : ∀ pre received post, s.log = pre ++ .consumed received :: post →
    received = ((handledSince pre).map s.size).sum

/-! ### What a story tells -/

namespace Consistent

variable {n : ℕ} {notification : Option (List Event)} {e : Endpoint} {d : Delivery}
  {consumer stopper : Held} {story : List Note}

theorem settles (h : Consistent n notification e d consumer stopper story) :
    (story.filter (Note.settles n)).length ≤ 1 := by
  cases h <;> simp [Note.settles]

theorem count_started (h : Consistent n notification e d consumer stopper story) :
    story.count (.started n) ≤ 1 := by
  cases h <;> simp

/-- What comes before the handler starts. -/
theorem before_started (h : Consistent n notification e d consumer stopper story)
    {pre post : List Note} (heq : story = pre ++ .started n :: post) :
    pre = [.settled .consumer n] := by
  cases h <;> simp_all [List.cons_eq_append_iff]

/-- What comes before the endpoint of a readable notification returns `HANDLED`. -/
theorem before_handled (h : Consistent n notification e d consumer stopper story)
    (hread : notification ≠ none) {pre post : List Note}
    (heq : story = pre ++ .returned n .HANDLED :: post) : .ended n .returned ∈ pre := by
  cases h with
  | answered =>
    obtain ⟨rfl, hresult, -⟩ : _ ∧ _ ∧ _ := by simpa [List.cons_eq_append_iff] using heq
    have hhandled : d.handled = true := by
      by_contra hnot
      simp [NotificationResult.ofHandled, hnot] at hresult
    simp [hhandled, Outcome.ofHandled]
  | _ => simp_all [List.cons_eq_append_iff]

/-- A delivery that is requeued has not been handled. -/
theorem not_mem_of_requeued (h : Consistent n notification e d consumer stopper story)
    (hrequeued : .returned n .REQUEUE ∈ story) : .ended n .returned ∉ story := by
  cases h with
  | answered =>
    have hhandled : d.handled = false := by
      by_contra hnot
      simp [NotificationResult.ofHandled, hnot] at hrequeued
    simp [hhandled, Outcome.ofHandled]
  | _ => simp_all

/-- What the consumer has settled and has nothing more to do with is finished. -/
theorem done_of_settled (h : Consistent n notification e d .no stopper story)
    (hsettled : .settled .consumer n ∈ story) (hnone : .ended n .interrupt ∉ story) :
    d.done = true := by
  cases h <;> simp_all

/-- Who the endpoint waits for. -/
theorem done_or_held (h : Consistent n notification .wait d consumer stopper story)
    (hnone : .ended n .interrupt ∉ story) :
    d.done = true ∨ consumer ≠ .no ∨ stopper ≠ .no := by
  cases h <;> simp_all [Endpoint.Early]

theorem settled_of_handling (h : Consistent n notification e d .handling stopper story) :
    .settled .consumer n ∈ story ∧ d.done = false := by
  cases h with
  | handling _ _ hdone => exact ⟨List.mem_cons_self, hdone⟩

end Consistent

/-! ### Runs -/

namespace OsloMessagingSubscriber

variable {s : OsloMessagingSubscriber} {move : Move}

theorem mem_story {n : ℕ} {note : Note} (habout : note.about = some n) :
    note ∈ s.story n ↔ note ∈ s.log := by
  rw [story, List.mem_filter]
  exact and_iff_left (by simpa using habout)

/-- A note about a delivery splits its story as it splits the log. -/
theorem story_split {n : ℕ} {note : Note} (habout : note.about = some n) {pre post : List Note}
    (heq : s.log = pre ++ note :: post) :
    s.story n = (pre.filter fun note => note.about = some n)
      ++ note :: post.filter fun note => note.about = some n := by
  rw [story, heq, List.filter_append, List.filter_cons_of_pos (by simpa using habout)]

/-- What is known of a moment tells what has been seen. -/
theorem Inv.handedOver (h : Inv s) : HandedOver s where
  settled n := by
    have hsub : s.log.filter (Note.settles n) = (s.story n).filter (Note.settles n) := by
      rw [story, List.filter_filter]
      refine List.filter_congr fun note _ => ?_
      cases note <;> simp [Note.settles, Note.about]
    rw [hsub]
    exact (h.consistent n).settles
  started n := by
    have hcount : s.log.count (.started n) = (s.story n).count (.started n) :=
      (List.count_filter (by simp [Note.about])).symm
    rw [hcount]
    exact (h.consistent n).count_started
  before n pre post heq result hmem := by
    have hbefore := (h.consistent n).before_started (story_split rfl heq)
    have hreturned : Note.returned n result ∈ pre.filter fun note => note.about = some n :=
      List.mem_filter.mpr ⟨hmem, by simp [Note.about]⟩
    rw [hbefore] at hreturned
    simp at hreturned
  handled n hread pre post heq :=
    (List.mem_filter.mp ((h.consistent n).before_handled hread (story_split rfl heq))).1
  requeued n hmem hended :=
    (h.consistent n).not_mem_of_requeued ((mem_story rfl).mpr hmem) ((mem_story rfl).mpr hended)
  consumed := h.consumed

/-- What is known holds throughout a run. -/
theorem inv_of_run (h : Inv s) (moves : List Move) : Inv (run step s moves) := by
  induction moves using List.reverseRecOn with
  | nil => exact h
  | append_singleton moves move ih =>
    rw [run_concat]
    exact ih.step move

/-- **No batch is both stored and given back, and none is acknowledged that was not stored**,
whatever the parties do in whatever order. -/
theorem handedOver_run (notification : ℕ → Option (List Event)) (moves : List Move) :
    HandedOver (run step { notification := notification } moves) :=
  (inv_of_run (inv_new notification) moves).handedOver

/-! ### Who waits for whom -/

/-- What `consume` has settled it has finished before it is left, and nobody waits for a
verdict that nobody will give. -/
structure NobodyStuck (s : OsloMessagingSubscriber) : Prop where
  left : s.consumer = .outside →
    ∀ n, .settled .consumer n ∈ s.log → (s.delivery n).done = true
  waits : ∀ n, s.endpoint n = .wait →
    (s.delivery n).done = true ∨ s.consumer.held n ≠ .no ∨ s.stopper.held n ≠ .no

/-- If the handler ends, it returns or raises an `Exception`. -/
def Caught (s : OsloMessagingSubscriber) (move : Move) : Prop :=
  ∀ n received, s.consumer = .handling n received → move ≠ .handlerEnds .interrupt

/-- Only a handler that is interrupted is noted as such. -/
theorem ended_interrupt_step (hcaught : s.Caught move) {n : ℕ}
    (h : .ended n .interrupt ∈ (s.step move).log) : .ended n .interrupt ∈ s.log := by
  cases move with
  | info m =>
    simp only [step, info] at h
    repeat' split at h
    all_goals simpa [answer, note, setEndpoint, setDelivery] using h
  | giveUp m =>
    simp only [step, giveUp] at h
    split at h <;> exact h
  | start => exact h
  | consume =>
    simp only [step, consume] at h
    repeat' split at h
    all_goals simpa [start, note, setConsumer, setDelivery] using h
  | handlerEnds outcome =>
    simp only [step, handlerEnds] at h
    split at h
    · rename_i m received hphase
      cases outcome with
      | interrupt => exact absurd rfl (hcaught m received hphase)
      | _ => simpa [note, setConsumer] using h
    · exact h
  | stop =>
    simp only [step, stop] at h
    repeat' split at h
    all_goals simpa [note, setStopper, setDelivery] using h

/-- As long as no handler was interrupted, nobody is stuck. -/
theorem Inv.nobodyStuck (h : Inv s) (hnone : ∀ n, .ended n .interrupt ∉ s.log) :
    NobodyStuck s := by
  have hnone' : ∀ n, .ended n .interrupt ∉ s.story n := fun n hmem =>
    hnone n ((mem_story rfl).mp hmem)
  refine ⟨fun houtside n hsettled => ?_, fun n hwait => ?_⟩
  · have hheld : s.consumer.held n = .no := by rw [houtside]; rfl
    exact (hheld ▸ h.consistent n).done_of_settled ((mem_story rfl).mpr hsettled) (hnone' n)
  · exact (hwait ▸ h.consistent n).done_or_held (hnone' n)

/-- A handler that is interrupted leaves its delivery unfinished. -/
theorem not_nobodyStuck_step (h : Inv s) (hcaught : ¬s.Caught move) :
    ¬NobodyStuck (s.step move) := by
  obtain ⟨n, received, hphase, rfl⟩ :
      ∃ n received, s.consumer = .handling n received ∧ move = .handlerEnds .interrupt := by
    simpa [Caught] using hcaught
  have hheld : s.consumer.held n = .handling := by
    rw [hphase]
    exact if_pos rfl
  obtain ⟨hsettled, hdone⟩ := (hheld ▸ h.consistent n).settled_of_handling
  have hstep : s.step (.handlerEnds .interrupt)
      = (s.note (.ended n .interrupt)).setConsumer .outside := by
    rw [step, handlerEnds, hphase]
  rw [hstep]
  intro hstuck
  have hmem : .settled .consumer n ∈ s.log ++ [.ended n .interrupt] :=
    List.mem_append_left _ ((mem_story rfl).mp hsettled)
  have hset : (s.delivery n).done = true := hstuck.left rfl n hmem
  simp [hdone] at hset

/-- **Nobody gets stuck in a run exactly when `consume` catches whatever its handler raises.** -/
theorem always_nobodyStuck_iff (notification : ℕ → Option (List Event)) (moves : List Move) :
    Always (fun done => NobodyStuck (run step { notification := notification } done)) moves
      ↔ EveryMove (fun done => (run step { notification := notification } done).Caught) moves := by
  refine always_iff_everyMove
    (I := fun done => ∀ n, .ended n .interrupt ∉
      (run step { notification := notification } done).log)
    (by simp) ?_ ?_ ?_
  · intro done move _ _ hnone hcaught n hmem
    rw [run_concat] at hmem
    exact hnone n (ended_interrupt_step hcaught hmem)
  · intro done _ _ hnone
    exact (inv_of_run (inv_new notification) done).nobodyStuck hnone
  · intro done move _ _ _ hcaught
    rw [run_concat]
    exact not_nobodyStuck_step (inv_of_run (inv_new notification) done) hcaught

/-- `KeyboardInterrupt` while the handler runs, and then the endpoint's timed wait gives up:
`stop` finds nothing to release, and the endpoint waits on. -/
theorem interrupt_strands_endpoint :
    let s := run step { notification := fun _ => some [heartbeat 1] }
      [.info 0, .info 0, .consume, .consume, .consume, .consume, .handlerEnds .interrupt,
        .giveUp 0, .info 0, .stop, .stop]
    s.consumer = .outside ∧ s.stopper = .outside ∧ s.pending = [] ∧ s.endpoint 0 = .wait
      ∧ ¬NobodyStuck s := by
  refine ⟨by decide, by decide, by decide, by decide, fun hstuck => ?_⟩
  have hheld := hstuck.waits 0 (by decide)
  revert hheld
  decide

end OsloMessagingSubscriber

end OsloMessaging

end TaskflowMeter
