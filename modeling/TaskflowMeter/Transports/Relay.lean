import TaskflowMeter.Collect.Receivers
import TaskflowMeter.Transports.Collecting

/-!
# From an engine to a client, by way of a broker

The receivers of an attachment number events, its pipeline offers them to a publisher in batches,
the publisher puts the batches on a queue, and collectors store what they are brought from there.
On this way an event may lose its turn, and a batch may get to the broker more than once or not at
all, and may be stored more than once.

## Main definitions

* `Relay` — an attachment, and the broker and collectors that it publishes to.
* `Relay.step` — what any of them does.
* `Relay.arrived`, `Relay.missed` — the batches that have reached the broker, and the others.

## Main results

* `Relays` — **the broker and the attachment agree about what was handed over.**
* `relayed_complete_iff` — **what reached the broker is stored once, and a client's view is complete
  exactly when nothing that got lost on the way lies between two events that are stored.**
-/

namespace TaskflowMeter

open Amqp Amqp.Deployment Consecutive Runs

/-- An attachment, and the broker and collectors that it publishes to. -/
structure Relay (config : PipelineConfig) where
  session : Session config := {}
  broker : Deployment SQLADataSource Event
  /-- What has got onto the queue. -/
  sent : List (List Event) := []

namespace Relay

variable {config : PipelineConfig}

inductive Step where
  /-- A receiver is told something, or the pipeline goes on. -/
  | watch (st : Session.Step)
  /-- A message is published, or a collector goes on. -/
  | broker (m : Move)

/-- The batches that the pipeline has offered to its publishers. -/
def offered (s : Relay config) : List (List Event) := s.session.collecting.pipeline.offered

/-- A message gets onto the queue: a batch that was offered, which is read back as it was, and
perhaps not for the first time; or something else that does not concern the run. -/
def publish (runId : String) (s : Relay config) (n : ℕ) : Relay config :=
  if s.broker.events n ∈ s.offered ∨ ofRun runId (s.broker.events n) = [] then
    { s with broker := s.broker.publish n, sent := s.sent ++ [s.broker.events n] }
  else s

def step (bookId : Option String) (runId : String) (s : Relay config) : Step → Relay config
  | .watch st => { s with session := s.session.step bookId st }
  | .broker (.publish n) => s.publish runId n
  | .broker m => { s with broker := s.broker.step SQLADataSource.applyMany m }

/-- The batches that have reached the broker. -/
def arrived (s : Relay config) : List (List Event) := s.offered.filter (· ∈ s.sent)

/-- The batches that have not. -/
def missed (s : Relay config) : List (List Event) := s.offered.filter (· ∉ s.sent)

/-- Nothing is on its way in the pipeline, and the collectors have acknowledged whatever concerns
the run. -/
structure Settled (runId : String) (s : Relay config) : Prop where
  session : s.session.collecting.Settled
  acked : ∀ n, s.broker.place n ≠ .unpublished → ofRun runId (s.broker.events n) ≠ [] →
    s.broker.place n = .acked

/-! ### What is offered stays offered -/

theorem subset_offered_send (p : EventPipeline config) (raises : ℕ → Option String) :
    p.offered ⊆ (p.send raises).offered := by
  have hsame : p.offered ⊆ p.offered := fun _ h => h
  rw [EventPipeline.send]
  split
  · split <;> exact hsame
  · split
    · split <;> exact hsame
    · exact hsame
  · rw [EventPipeline.deliver]
    split
    · exact hsame
    · exact List.subset_append_left _ _
  · split <;> exact hsame
  · exact hsame
  · split <;> exact hsame
  · exact hsame
  · exact hsame

theorem subset_offered_work (p : EventPipeline config) (m : EventPipeline.Work) :
    p.offered ⊆ (p.work m).offered := by
  have hsame : p.offered ⊆ p.offered := fun _ h => h
  cases m with
  | advance i =>
    rw [EventPipeline.work]
    cases p.calls[i]? with
    | none => exact hsame
    | some c =>
      cases c <;> simp only [EventPipeline.advance] <;> first | exact hsame | (split <;> exact hsame)
  | send raises => exact subset_offered_send p raises
  | stop =>
    rw [EventPipeline.work]
    split <;> exact hsame

/-- A receiver offers nothing itself. -/
theorem subset_offered_step (bookId : Option String) (s : Session config) (st : Session.Step) :
    s.collecting.pipeline.offered ⊆ (s.step bookId st).collecting.pipeline.offered := by
  cases st with
  | work m => exact subset_offered_work _ m
  | receive said calls =>
    have hcases := receive_cases bookId calls said s.collecting
    show _ ⊆ ((receive bookId calls said).run s.collecting).2.pipeline.offered
    generalize ((receive bookId calls said).run s.collecting).2 = w at hcases
    cases hcases <;> exact fun _ h => h

/-! ### What was handed over -/

/-- The broker and the attachment agree about what was handed over. -/
structure Relays (runId : String) (s : Relay config) : Prop where
  published : ∀ n, s.broker.place n ≠ .unpublished → s.broker.events n ∈ s.sent
    ∧ (s.broker.events n ∈ s.offered ∨ ofRun runId (s.broker.events n) = [])
  sent : ∀ batch ∈ s.sent, ∃ n, s.broker.place n ≠ .unpublished ∧ s.broker.events n = batch

variable {runId : String} {s : Relay config}

/-- The message of a number never changes. -/
theorem events_step (b : Deployment SQLADataSource Event) (m : Move) (n : ℕ) :
    (b.step SQLADataSource.applyMany m).events n = b.events n := by
  have hdoes : ∀ {b' : Deployment SQLADataSource Event}, Does SQLADataSource.applyMany b b' →
      b'.events n = b.events n := by
    intro b' hd
    cases hd <;> rfl
  rcases step_cases SQLADataSource.applyMany b m with heq | hd
  · rw [heq]
  · exact hdoes hd

theorem Relays.watch (h : Relays runId s) (bookId : Option String) (st : Session.Step) :
    Relays runId (s.step bookId runId (.watch st)) where
  published n hn := by
    obtain ⟨hsent, hof⟩ := h.published n hn
    exact ⟨hsent, hof.imp_left fun hof => subset_offered_step bookId s.session st hof⟩
  sent := h.sent

theorem Relays.publish (h : Relays runId s) (n : ℕ) : Relays runId (s.publish runId n) := by
  rw [Relay.publish]
  split
  · next hof =>
    have hplace : ∀ m, (s.broker.publish n).place m ≠ .unpublished
        ↔ m = n ∨ s.broker.place m ≠ .unpublished := by
      intro m
      rw [Deployment.publish]
      split
      · show Function.update s.broker.place n .ready m ≠ _ ↔ _
        by_cases hm : m = n
        · simp [hm]
        · simp [hm]
      · next hn =>
        constructor
        · exact .inr
        · rintro (rfl | hm)
          · exact hn
          · exact hm
    have hevents : ∀ m, (s.broker.publish n).events m = s.broker.events m :=
      events_step s.broker (.publish n)
    refine ⟨fun m hm => ?_, fun batch hbatch => ?_⟩
    · rw [hevents]
      rcases (hplace m).mp hm with rfl | hm
      · exact ⟨List.mem_append_right _ (List.mem_singleton_self _), hof⟩
      · exact ⟨List.mem_append_left _ (h.published m hm).1, (h.published m hm).2⟩
    · rcases List.mem_append.mp hbatch with hbatch | hbatch
      · obtain ⟨m, hm, heq⟩ := h.sent batch hbatch
        exact ⟨m, (hplace m).mpr (.inr hm), by rw [hevents, heq]⟩
      · exact ⟨n, (hplace n).mpr (.inl rfl), by rw [hevents, List.mem_singleton.mp hbatch]⟩
  · exact h

theorem Relays.collect (h : Relays runId s) {m : Move} (hm : ∀ n, m ≠ .publish n) :
    Relays runId { s with broker := s.broker.step SQLADataSource.applyMany m } where
  published n hn := by
    rw [events_step]
    exact h.published n fun hunpublished => hn (step_unpublished hm hunpublished)
  sent batch hbatch := by
    obtain ⟨n, hn, heq⟩ := h.sent batch hbatch
    refine ⟨n, ?_, by rw [events_step, heq]⟩
    rcases step_cases SQLADataSource.applyMany s.broker m with hsame | hd
    · rwa [hsame]
    · exact hd.published hn

/-- What is not published is up to the collectors. -/
theorem step_broker (bookId : Option String) (s : Relay config) {m : Move}
    (hm : ∀ n, m ≠ .publish n) : s.step bookId runId (.broker m)
      = { s with broker := s.broker.step SQLADataSource.applyMany m } := by
  cases m with
  | publish n => exact absurd rfl (hm n)
  | _ => rfl

theorem Relays.step (h : Relays runId s) (bookId : Option String) (st : Step) :
    Relays runId (s.step bookId runId st) := by
  cases st with
  | watch st => exact h.watch bookId st
  | broker m =>
    by_cases hm : ∃ n, m = .publish n
    · obtain ⟨n, rfl⟩ := hm
      exact h.publish n
    · rw [not_exists] at hm
      rw [step_broker bookId s hm]
      exact h.collect hm

section

variable (bookId : Option String) (runId : String) (db : SQLADataSource)
  (message : ℕ → Except DecodeError (List Event)) (steps : List Step)

theorem relays_run :
    Relays runId (run (step bookId runId) ({ broker := .new message db } : Relay config) steps) := by
  induction steps using List.reverseRecOn with
  | nil =>
    exact ⟨fun n hn => absurd rfl hn, by simp⟩
  | append_singleton steps st ih =>
    rw [run_concat]
    exact ih.step bookId st

/-- The attachment knows nothing of the broker. -/
theorem exists_session_run : ∃ sts, (run (step bookId runId) ({ broker := .new message db } : Relay config)
    steps).session = run (Session.step bookId) {} sts := by
  induction steps using List.reverseRecOn with
  | nil => exact ⟨[], rfl⟩
  | append_singleton steps st ih =>
    obtain ⟨sts, hsts⟩ := ih
    rw [run_concat]
    cases st with
    | watch st => exact ⟨sts ++ [st], by rw [run_concat, ← hsts]; rfl⟩
    | broker m =>
      refine ⟨sts, hsts ▸ ?_⟩
      by_cases hm : ∃ n, m = .publish n
      · obtain ⟨n, rfl⟩ := hm
        rw [step, Relay.publish]
        split <;> rfl
      · rw [step_broker bookId _ (not_exists.mp hm)]

/-- The broker and the collectors do what they do anywhere. -/
theorem exists_broker_run : ∃ moves, (run (step bookId runId) ({ broker := .new message db } : Relay config)
    steps).broker = collecting db message moves := by
  induction steps using List.reverseRecOn with
  | nil => exact ⟨[], rfl⟩
  | append_singleton steps st ih =>
    obtain ⟨moves, hmoves⟩ := ih
    rw [run_concat]
    have hmove : ∀ m, (collecting db message moves).step SQLADataSource.applyMany m
        = collecting db message (moves ++ [m]) := fun m => (run_concat ..).symm
    cases st with
    | watch st => exact ⟨moves, hmoves⟩
    | broker m =>
      by_cases hm : ∃ n, m = .publish n
      · obtain ⟨n, rfl⟩ := hm
        rw [step, Relay.publish]
        split
        · exact ⟨moves ++ [.publish n], by rw [← hmove, ← hmoves]; rfl⟩
        · exact ⟨moves, hmoves⟩
      · exact ⟨moves ++ [m], by rw [step_broker bookId _ (not_exists.mp hm), ← hmove, ← hmoves]⟩

end

/-! ### What is stored -/

variable {db : SQLADataSource} {message : ℕ → Except DecodeError (List Event)} {moves : List Move}

/-- What the store holds of a new run has reached the broker. -/
theorem Relays.mem_of_mem_held (h : Relays runId s) (hnew : db.held runId = [])
    (hbroker : s.broker = collecting db message moves) {e : Event}
    (he : e ∈ s.broker.store.held runId) : e ∈ ofRun runId s.arrived.flatten := by
  have hsettled := settled_collecting db message moves
  have hpublished : StoresPublished s.broker := hbroker ▸ storesPublished_run message db moves
  rw [← hbroker] at hsettled
  rw [hsettled.store, SQLADataSource.held_foldl_applyMany, hnew] at he
  rcases SQLADataSource.mem_foldl_keepFirst he with he | he
  · simp at he
  · obtain ⟨hmem, hrun⟩ := List.mem_filter.mp he
    obtain ⟨batch, hbatch, hmem⟩ := List.mem_flatten.mp hmem
    obtain ⟨n, hn, rfl⟩ := List.mem_map.mp hbatch
    obtain ⟨hsent, hoffered | hother⟩ := h.published n (hpublished n hn)
    · refine List.mem_filter.mpr ⟨List.mem_flatten.mpr ⟨_, ?_, hmem⟩, hrun⟩
      exact List.mem_filter.mpr ⟨hoffered, decide_eq_true hsent⟩
    · have hof : e ∈ ofRun runId (s.broker.events n) := List.mem_filter.mpr ⟨hmem, hrun⟩
      simp [hother] at hof

/-- Once all is acknowledged, what has reached the broker is stored. -/
theorem Relays.hasSeq_held (h : Relays runId s) (hsettled : s.Settled runId)
    (hbroker : s.broker = collecting db message moves) {e : Event}
    (he : e ∈ ofRun runId s.arrived.flatten) : HasSeq (s.broker.store.held runId) e.seq := by
  obtain ⟨hmem, hrun⟩ := List.mem_filter.mp he
  obtain ⟨batch, hbatch, hmem⟩ := List.mem_flatten.mp hmem
  obtain ⟨n, hn, rfl⟩ := h.sent batch (of_decide_eq_true (List.mem_filter.mp hbatch).2)
  have hne : ofRun runId (s.broker.events n) ≠ [] :=
    List.ne_nil_of_mem (List.mem_filter.mpr ⟨hmem, hrun⟩)
  have hfits := (settled_collecting db message moves).place n
  rw [← hbroker, hsettled.acked n hn hne, PlaceFits] at hfits
  rw [hbroker] at hfits hmem ⊢
  rw [held_collecting]
  exact (sink_takes runId _).holds_of_mem (Idempotent.mem_firsts.mpr hfits) _ e hmem
    (of_decide_eq_true hrun)

/-- A batch has reached the broker or not. -/
theorem perm_offered (s : Relay config) :
    s.offered.flatten.Perm (s.arrived.flatten ++ s.missed.flatten) := by
  rw [← List.flatten_append]
  have hperm := (List.filter_append_perm (fun batch => decide (batch ∈ s.sent)) s.offered).symm
  simpa [arrived, missed] using hperm.flatten

/-- The events of a run were lost, discarded or missed, or have arrived. -/
theorem exists_numbered {bookId : Option String} {sts : List Session.Step}
    (hsession : s.session = run (Session.step bookId) {} sts) (hsettled : s.Settled runId) :
    ∃ n, Numbered runId n
      (ofRun runId (s.session.lost ++ s.session.collecting.pipeline.discarded ++ s.missed.flatten)
        ++ ofRun runId s.arrived.flatten) := by
  obtain ⟨all, hall⟩ := Session.numbers_run config bookId sts
  rw [← hsession] at hall
  have hnumbered := hall.numbered hsettled.session runId
  refine ⟨(ofRun runId all).length, ?_⟩
  have hperm : (ofRun runId (s.session.lost ++ s.session.collecting.pipeline.discarded)
        ++ ofRun runId s.offered.flatten).Perm
      (ofRun runId (s.session.lost ++ s.session.collecting.pipeline.discarded ++ s.missed.flatten)
        ++ ofRun runId s.arrived.flatten) := by
    simp only [ofRun_append, List.append_assoc]
    refine List.Perm.append_left _ (List.Perm.append_left _ ?_)
    rw [← ofRun_append]
    exact (s.perm_offered.trans List.perm_append_comm).filter _
  exact ⟨fun e he => hnumbered.ofRun e (hperm.mem_iff.mpr he),
    (hperm.symm.map _).trans hnumbered.perm⟩

/-- What has reached the broker is stored, once. -/
theorem Relays.perm_held (h : Relays runId s) (hsettled : s.Settled runId)
    (hnew : db.held runId = []) (hbroker : s.broker = collecting db message moves) {n : ℕ}
    {gone : List Event} (hnumbered : Numbered runId n (gone ++ ofRun runId s.arrived.flatten)) :
    (s.broker.store.held runId).Perm (ofRun runId s.arrived.flatten) := by
  have hheld : (s.broker.store.held runId).Nodup :=
    .of_map Event.seq (s.broker.store.nodup_seq_held runId)
  have harrived : (ofRun runId s.arrived.flatten).Nodup :=
    .of_append_right (.of_map Event.seq hnumbered.nodup)
  rw [List.perm_ext_iff_of_nodup hheld harrived]
  intro e
  constructor
  · exact h.mem_of_mem_held hnew hbroker
  · intro he
    obtain ⟨x, hx, hseq⟩ := h.hasSeq_held hsettled hbroker he
    have hxe : x = e := hnumbered.eq_of_seq
      (List.mem_append_right _ (h.mem_of_mem_held hnew hbroker hx))
      (List.mem_append_right _ he) hseq
    rwa [← hxe]

/-- **What reached the broker is stored once, and a client's view is complete exactly when nothing
that got lost on the way lies between two events that are stored.**  At any time, nothing else of a
new run is stored.  And when nothing is on its way any more, what is missing was lost by a receiver,
discarded by the pipeline or never published; a client walks from the beginning, with any limits. -/
theorem relayed_complete_iff {bookId : Option String} {runId : String} {db : SQLADataSource}
    (hnew : db.held runId = []) (message : ℕ → Except DecodeError (List Event))
    {steps : List Step} {s : Relay config}
    (hs : s = run (step bookId runId) { broker := .new message db } steps) :
    (∀ e ∈ s.broker.store.held runId, e ∈ s.arrived.flatten)
      ∧ (s.Settled runId →
        (s.broker.store.held runId).Perm (ofRun runId s.arrived.flatten)
          ∧ ∀ limits : List ℤ, (∀ limit ∈ limits, 1 ≤ limit) → limits ≠ [] →
            (s.broker.store.held runId).length ≤ limits.length →
            (Complete (s.broker.store.held runId)
                (Client.walk (.sqlalchemy s.broker.store) runId 0 limits)
              ↔ NotBetween (s.broker.store.held runId) (ofRun runId
                (s.session.lost ++ s.session.collecting.pipeline.discarded ++ s.missed.flatten))
                0)) := by
  have hrelays : Relays runId s := hs ▸ relays_run bookId runId db message steps
  obtain ⟨sts, hsession⟩ := @exists_session_run config bookId runId db message steps
  obtain ⟨moves, hbroker⟩ := @exists_broker_run config bookId runId db message steps
  rw [← hs] at hsession hbroker
  refine ⟨fun e he => (List.mem_filter.mp (hrelays.mem_of_mem_held hnew hbroker he)).1,
    fun hsettled => ?_⟩
  obtain ⟨n, hnumbered⟩ := exists_numbered hsession hsettled
  have hperm := hrelays.perm_held hsettled hnew hbroker hnumbered
  refine ⟨hperm, fun limits hlimits hne henough => ?_⟩
  have hheld : Numbered runId n
      (ofRun runId (s.session.lost ++ s.session.collecting.pipeline.discarded ++ s.missed.flatten)
        ++ (WritableDataSource.sqlalchemy s.broker.store).held runId) :=
    ⟨fun e he => hnumbered.ofRun e (((hperm.append_left _).mem_iff).mp he),
      ((hperm.append_left _).map _).trans hnumbered.perm⟩
  exact complete_walk_iff hheld hlimits hne henough

/-- The flow is started, and its state is stored twice. -/
def relayedTwice : List Step :=
  [.watch (.receive (.flow "RUNNING" none none) { flowUuid := .ok "run-1", clock := .ok 1 }),
    .watch (.work (.advance 0)), .watch (.work (.advance 0))]
    ++ List.replicate 4 (.watch (.work (.send fun _ => none))) ++ twice.map .broker

theorem relayed_complete_twice :
    let s := run (step none "run-1")
      ({ broker := .new (fun _ => .ok [flowEvent 1 "RUNNING"]) (SQLADataSource.filled []) } : Relay {})
      relayedTwice
    s.broker.stores = [0, 0] ∧ (s.broker.store.held "run-1").Perm [flowEvent 1 "RUNNING"]
      ∧ Complete (s.broker.store.held "run-1")
        (Client.walk (.sqlalchemy s.broker.store) "run-1" 0 [10]) := by
  intro s
  have hrelayed := @relayed_complete_iff {} none "run-1" (SQLADataSource.filled []) rfl
    (fun _ => .ok [flowEvent 1 "RUNNING"]) relayedTwice s rfl
  have hsettled : s.Settled "run-1" := by
    refine ⟨rfl, fun n hn _ => ?_⟩
    cases n with
    | zero => rfl
    | succ n => exact absurd rfl hn
  obtain ⟨hperm, hcomplete⟩ := hrelayed.2 hsettled
  exact ⟨rfl, hperm, (hcomplete [10] (by decide) (by decide) (by decide)).mpr (by decide)⟩

end Relay

end TaskflowMeter
