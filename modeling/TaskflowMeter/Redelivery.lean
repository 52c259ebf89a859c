import TaskflowMeter.Datasource.Sqlalchemy

/-!
# Redelivery to the SQL store

A broker may deliver again what a collector has already stored.  The events table is
keyed so that nothing is written twice; the flow's row is made by folding, which is
done again.

## Main definitions

* `Covered` — a flow has taken an event in: it was observed no earlier, and has the
  event's atom.
* `SaysNothingNew` — field by field, what a batch says last is what the row holds.

## Main results

* `events_redelivered` — the events table does not change.
* `redelivery_iff` — **a redelivered batch changes nothing exactly when, for every field,
  the last of its events that says something of the field says what the row holds.**
-/

namespace TaskflowMeter

open LastWrite

/-! ### What an event says of an atom -/

def sayUuid (event : Event) : Option (Option String) :=
  if event.atomUuid = none then none else some event.atomUuid

def sayIntention (event : Event) : Option (Option String) :=
  if event.intention = none then none else some event.intention

def sayAtomState (event : Event) : Option (Option String) :=
  if event.kind = .atomState then some event.state else none

/-- A detail that a state event carries, unless it is absent. -/
def sayDetail (key : String) (event : Event) : Option Json :=
  if event.kind = .atomState ∧ event.detail key ≠ .null then some (event.detail key) else none

def sayHasResult (event : Event) : Option Bool :=
  if event.kind = .atomState ∧ (event.detail "has_result").truthy then some true else none

/-- A progress event says the details even if they are absent. -/
def sayProgressDetails (event : Event) : Option Json :=
  if event.kind = .atomProgress then some (event.detail "progress_details") else none

section

variable (a : AtomSnapshot) (e : Event) (name : String)

theorem uuid_foldAtom : (foldAtom (some a) e name).uuid = (sayUuid e).getD a.uuid := by
  unfold foldAtom sayUuid
  cases e.kind <;> cases e.atomUuid <;> rfl

theorem intention_foldAtom :
    (foldAtom (some a) e name).intention = (sayIntention e).getD a.intention := by
  unfold foldAtom sayIntention
  cases e.kind <;> cases e.intention <;> rfl

theorem atomType_foldAtom : (foldAtom (some a) e name).atomType = e.atomType.getD a.atomType := by
  unfold foldAtom
  cases e.kind <;> rfl

theorem progress_foldAtom : (foldAtom (some a) e name).progress = e.progress.getD a.progress := by
  unfold foldAtom
  cases e.kind <;> rfl

theorem state_foldAtom : (foldAtom (some a) e name).state = (sayAtomState e).getD a.state := by
  unfold foldAtom sayAtomState
  cases e.kind <;> rfl

theorem failure_foldAtom :
    (foldAtom (some a) e name).failure = (sayDetail "failure" e).getD a.failure := by
  unfold foldAtom sayDetail
  cases e.kind <;> simp
  split <;> simp_all

theorem revertFailure_foldAtom :
    (foldAtom (some a) e name).revertFailure
      = (sayDetail "revert_failure" e).getD a.revertFailure := by
  unfold foldAtom sayDetail
  cases e.kind <;> simp
  split <;> simp_all

theorem hasResult_foldAtom :
    (foldAtom (some a) e name).hasResult = (sayHasResult e).getD a.hasResult := by
  unfold foldAtom sayHasResult
  cases e.kind <;> simp
  split <;> simp_all

theorem progressDetails_foldAtom :
    (foldAtom (some a) e name).progressDetails = (sayProgressDetails e).getD a.progressDetails := by
  unfold foldAtom sayProgressDetails
  cases e.kind <;> rfl

theorem name_foldAtom : (foldAtom (some a) e name).name = a.name := by
  unfold foldAtom
  cases e.kind <;> rfl

theorem meta_foldAtom : (foldAtom (some a) e name).«meta» = a.«meta» := by
  unfold foldAtom
  cases e.kind <;> rfl

end

/-- What a list of events says last of an atom's fields is what the atom holds. -/
@[mk_iff]
structure AtomSaysNothingNew (a : AtomSnapshot) (es : List Event) : Prop where
  uuid : Repeats sayUuid es a.uuid
  atomType : Repeats Event.atomType es a.atomType
  state : Repeats sayAtomState es a.state
  intention : Repeats sayIntention es a.intention
  progress : Repeats Event.progress es a.progress
  progressDetails : Repeats sayProgressDetails es a.progressDetails
  failure : Repeats (sayDetail "failure") es a.failure
  revertFailure : Repeats (sayDetail "revert_failure") es a.revertFailure
  hasResult : Repeats sayHasResult es a.hasResult

theorem foldl_foldAtom?_some (name : String) (a : AtomSnapshot) (es : List Event) :
    es.foldl (foldAtom? name) (some a)
      = some (es.foldl (fun a e => foldAtom (some a) e name) a) := by
  induction es generalizing a with
  | nil => rfl
  | cons e es ih => rw [List.foldl_cons, foldAtom?, ih, List.foldl_cons]

/-- Two lists of events say the same last of an atom's fields. -/
@[mk_iff]
structure AtomSaidAlike (a : AtomSnapshot) (es es' : List Event) : Prop where
  uuid : SaidAlike sayUuid es es' a.uuid
  atomType : SaidAlike Event.atomType es es' a.atomType
  state : SaidAlike sayAtomState es es' a.state
  intention : SaidAlike sayIntention es es' a.intention
  progress : SaidAlike Event.progress es es' a.progress
  progressDetails : SaidAlike sayProgressDetails es es' a.progressDetails
  failure : SaidAlike (sayDetail "failure") es es' a.failure
  revertFailure : SaidAlike (sayDetail "revert_failure") es es' a.revertFailure
  hasResult : SaidAlike sayHasResult es es' a.hasResult

/-- **Two lists of events make the same of an atom** exactly when they say the same of each
field. -/
theorem foldl_foldAtom_eq_foldl_iff (name : String) (a : AtomSnapshot) (es es' : List Event) :
    es.foldl (fun a e => foldAtom (some a) e name) a
        = es'.foldl (fun a e => foldAtom (some a) e name) a
      ↔ AtomSaidAlike a es es' := by
  have hname : ∀ (es : List Event) (a : AtomSnapshot),
      (es.foldl (fun a e => foldAtom (some a) e name) a).name = a.name
        ∧ (es.foldl (fun a e => foldAtom (some a) e name) a).«meta» = a.«meta» := by
    intro es
    induction es with
    | nil => intro a; exact ⟨rfl, rfl⟩
    | cons e es ih =>
      intro a
      obtain ⟨hn, hm⟩ := ih (foldAtom (some a) e name)
      exact ⟨hn.trans (name_foldAtom a e name), hm.trans (meta_foldAtom a e name)⟩
  -- one register for each of the other fields
  rw [atomSaidAlike_iff,
    ← get_foldl_eq_get_foldl_iff (fun a e => uuid_foldAtom a e name),
    ← get_foldl_eq_get_foldl_iff (fun a e => atomType_foldAtom a e name),
    ← get_foldl_eq_get_foldl_iff (fun a e => state_foldAtom a e name),
    ← get_foldl_eq_get_foldl_iff (fun a e => intention_foldAtom a e name),
    ← get_foldl_eq_get_foldl_iff (fun a e => progress_foldAtom a e name),
    ← get_foldl_eq_get_foldl_iff (fun a e => progressDetails_foldAtom a e name),
    ← get_foldl_eq_get_foldl_iff (fun a e => failure_foldAtom a e name),
    ← get_foldl_eq_get_foldl_iff (fun a e => revertFailure_foldAtom a e name),
    ← get_foldl_eq_get_foldl_iff (fun a e => hasResult_foldAtom a e name)]
  have hsame : (es.foldl (fun a e => foldAtom (some a) e name) a).name
        = (es'.foldl (fun a e => foldAtom (some a) e name) a).name
      ∧ (es.foldl (fun a e => foldAtom (some a) e name) a).«meta»
        = (es'.foldl (fun a e => foldAtom (some a) e name) a).«meta» :=
    ⟨(hname es a).1.trans (hname es' a).1.symm, (hname es a).2.trans (hname es' a).2.symm⟩
  generalize es.foldl (fun a e => foldAtom (some a) e name) a = b at *
  generalize es'.foldl (fun a e => foldAtom (some a) e name) a = b' at *
  cases b
  cases b'
  simp only [AtomSnapshot.mk.injEq] at hsame ⊢
  tauto

/-- **An atom is left as it is** exactly when nothing new is said of any field. -/
theorem foldl_foldAtom_eq_iff (name : String) (a : AtomSnapshot) (es : List Event) :
    es.foldl (fun a e => foldAtom (some a) e name) a = a ↔ AtomSaysNothingNew a es := by
  have halike := foldl_foldAtom_eq_foldl_iff name a es []
  rw [atomSaidAlike_iff] at halike
  simp only [saidAlike_nil_iff, ← atomSaysNothingNew_iff] at halike
  exact halike

/-! ### A flow and a batch -/

/-- A flow has taken an event in: it was observed no earlier, and has its atom. -/
structure Covered (f : FlowSnapshot) (e : Event) : Prop where
  ts_le : e.ts ≤ f.observedAt
  mem_atoms : ∀ name, ofAtom name e = true → name ∈ f.atoms.keys

theorem mem_keys_atoms_fold {f : FlowSnapshot} {e : Event} {name : String} :
    name ∈ (fold f e).atoms.keys ↔ ofAtom name e = true ∨ name ∈ f.atoms.keys := by
  rw [Dict.mem_keys_iff_isSome, get?_atoms_fold, Dict.mem_keys_iff_isSome]
  split <;> simp_all

theorem covered_fold (f : FlowSnapshot) (e : Event) : Covered (fold f e) e where
  ts_le := by
    rw [observedAt_fold]
    exact le_max_right _ _
  mem_atoms := fun _ h => mem_keys_atoms_fold.mpr (Or.inl h)

theorem Covered.fold {f : FlowSnapshot} {e : Event} (h : Covered f e) (e' : Event) :
    Covered (fold f e') e where
  ts_le := by
    rw [observedAt_fold]
    exact le_max_of_le_left h.ts_le
  mem_atoms := fun name hname => mem_keys_atoms_fold.mpr (Or.inr (h.mem_atoms name hname))

theorem Covered.foldl {f : FlowSnapshot} {e : Event} (h : Covered f e) (es : List Event) :
    Covered (es.foldl TaskflowMeter.fold f) e := by
  induction es generalizing f with
  | nil => exact h
  | cons e' es ih => exact ih (h.fold e')

/-- A fold takes in every event it goes through. -/
theorem covered_foldl (f : FlowSnapshot) (es : List Event) :
    ∀ e ∈ es, Covered (es.foldl fold f) e := by
  induction es generalizing f with
  | nil => simp
  | cons x es ih =>
    intro e he
    rw [List.foldl_cons]
    rcases List.mem_cons.mp he with rfl | he
    · exact (covered_fold f e).foldl es
    · exact ih (fold f x) e he

/-- Events that have been taken in leave the observation time and the set of atoms alone. -/
theorem observedAt_foldl_of_covered {f : FlowSnapshot} {es : List Event}
    (h : ∀ e ∈ es, Covered f e) : (es.foldl fold f).observedAt = f.observedAt := by
  induction es generalizing f with
  | nil => rfl
  | cons e es ih =>
    have hmax : (fold f e).observedAt = f.observedAt := by
      rw [observedAt_fold]
      exact max_eq_left (h e List.mem_cons_self).ts_le
    rw [List.foldl_cons, ih, hmax]
    intro x hx
    exact (h x (List.mem_cons_of_mem e hx)).fold e

theorem keys_atoms_fold_of_covered {f : FlowSnapshot} {e : Event} (h : Covered f e) :
    (fold f e).atoms.keys = f.atoms.keys := by
  have hmem := h.mem_atoms
  have hset : ∀ (name : String) (a : AtomSnapshot), name ∈ f.atoms.keys →
      (f.atoms.set name a).keys = f.atoms.keys := by
    intro name a hname
    rw [Dict.keys_set, if_pos hname]
  unfold fold
  cases hk : e.kind <;> simp only
  all_goals
    cases hn : e.atomName with
    | none => rfl
    | some name => exact hset name _ (hmem name (by simp [ofAtom, hk, hn]))

theorem keys_atoms_foldl_of_covered {f : FlowSnapshot} {es : List Event}
    (h : ∀ e ∈ es, Covered f e) : (es.foldl fold f).atoms.keys = f.atoms.keys := by
  induction es generalizing f with
  | nil => rfl
  | cons e es ih =>
    rw [List.foldl_cons, ih fun x hx => (h x (List.mem_cons_of_mem e hx)).fold e,
      keys_atoms_fold_of_covered (h e List.mem_cons_self)]

/-- What a list of events says last of a flow's fields, and of its atoms', is what the
flow holds. -/
structure SaysNothingNew (f : FlowSnapshot) (es : List Event) : Prop where
  state : Repeats sayState es f.state
  name : Repeats sayName es f.name
  atoms : ∀ name a, f.atoms.get? name = some a →
    AtomSaysNothingNew a (es.filter (ofAtom name))

/-- No event says nothing new. -/
theorem saysNothingNew_nil (f : FlowSnapshot) : SaysNothingNew f [] where
  state := repeats_nil _ _
  name := repeats_nil _ _
  atoms := by
    intro name a _
    rw [List.filter_nil, atomSaysNothingNew_iff]
    simp

/-- **A flow is left as it is** by events it has taken in exactly when they say nothing
new of it. -/
theorem foldl_fold_eq_iff {f : FlowSnapshot} {es : List Event} (h : ∀ e ∈ es, Covered f e) :
    es.foldl fold f = f ↔ SaysNothingNew f es := by
  have hatom : ∀ name a, f.atoms.get? name = some a →
      ((es.foldl fold f).atoms.get? name = some a
        ↔ AtomSaysNothingNew a (es.filter (ofAtom name))) := by
    intro name a ha
    rw [get?_atoms_foldl, ha, foldl_foldAtom?_some, Option.some.injEq, foldl_foldAtom_eq_iff]
  constructor
  · intro heq
    refine ⟨?_, ?_, ?_⟩
    · rw [← get_foldl_eq_iff state_fold, heq]
    · rw [← get_foldl_eq_iff name_fold, heq]
    · intro name a ha
      rw [← hatom name a ha, heq, ha]
  · rintro ⟨hstate, hname, hatoms⟩
    rw [← get_foldl_eq_iff state_fold] at hstate
    rw [← get_foldl_eq_iff name_fold] at hname
    have hdict : (es.foldl fold f).atoms = f.atoms := by
      refine Dict.ext_get? (keys_atoms_foldl_of_covered h) ?_
      intro name
      cases ha : f.atoms.get? name with
      | some a => exact (hatom name a ha).mpr (hatoms name a ha)
      | none =>
        rw [Dict.get?_eq_none_iff, keys_atoms_foldl_of_covered h]
        exact Dict.get?_eq_none_iff.mp ha
    -- the other fields: one is a maximum, the others no event changes
    have hobs := observedAt_foldl_of_covered h
    have hrun := runId_foldl f es
    have hbook := bookId_foldl f es
    have hbookName := bookName_foldl f es
    have hmeta := meta_foldl f es
    generalize es.foldl fold f = g at *
    cases f
    cases g
    simp_all

/-! ### The store -/

namespace SQLADataSource

/-- A store after a list of batches. -/
def filled (batches : List (List Event)) : SQLADataSource := batches.foldl applyMany {}

theorem mem_foldl_keepFirst {stored es : List Event} {e : Event}
    (h : e ∈ es.foldl keepFirst stored) : e ∈ stored ∨ e ∈ es := by
  induction es generalizing stored with
  | nil => exact Or.inl h
  | cons x es ih =>
    rcases ih h with h | h
    · rw [keepFirst] at h
      split at h
      · exact Or.inl h
      · rcases List.mem_append.mp h with h | h
        · exact Or.inl h
        · rw [List.mem_singleton.mp h]
          exact Or.inr List.mem_cons_self
    · exact Or.inr (List.mem_cons_of_mem x h)

/-- The flow of every stored event is there, and has taken the event in. -/
def Folded (db : SQLADataSource) : Prop :=
  ∀ r, ∀ e ∈ db.held r, ∃ f, db.getFlow r = some f ∧ Covered f e

/-- **One batch** keeps every stored event folded into its flow. -/
theorem Folded.applyMany {db : SQLADataSource} (h : db.Folded) (batch : List Event) :
    (db.applyMany batch).Folded := by
  intro r e he
  rw [held_applyMany] at he
  rw [getFlow_applyMany]
  rcases mem_foldl_keepFirst he with he | he
  · -- stored before: its flow goes on from there
    obtain ⟨f, hf, hcov⟩ := h r e he
    rw [hf, applyEvents_some]
    exact ⟨_, rfl, hcov.foldl _⟩
  · cases hf : db.getFlow r with
    | some f =>
      rw [applyEvents_some]
      exact ⟨_, rfl, covered_foldl f _ e he⟩
    | none =>
      -- the first event of the run seeds its flow, and is then folded like the others
      obtain ⟨x, es, hes⟩ := List.exists_cons_of_ne_nil (List.ne_nil_of_mem he)
      rw [hes] at he ⊢
      rw [applyEvents_none_cons]
      exact ⟨_, rfl, covered_foldl _ _ e he⟩

theorem folded_filled (batches : List (List Event)) : (filled batches).Folded := by
  induction batches using List.reverseRecOn with
  | nil => intro r e he; simp [filled, held, rowsOf] at he
  | append_singleton batches batch ih =>
    rw [filled, List.foldl_append]
    exact ih.applyMany batch

/-- A batch that was stored before. -/
def Stored (db : SQLADataSource) (batch : List Event) : Prop := ∀ e ∈ batch, e ∈ db.held e.runId

/-- A run's part of a stored batch, whatever happened to other runs before it: the events
and the runs stay. -/
theorem applyRun_of_stored {db : SQLADataSource} {r : String} {es : List Event} (hne : es ≠ [])
    (hrun : ∀ e ∈ es, e.runId = r) (hkeys : ∀ e ∈ es, (e.runId, e.seq) ∈ db.events.keys)
    (hflow : r ∈ db.flows.keys) :
    (db.applyRun r es).events = db.events ∧ (db.applyRun r es).flows.keys = db.flows.keys := by
  obtain ⟨f, -, hid, heq⟩ := db.applyRun_eq hne hrun
  -- every key is taken, so that no event is inserted
  have hinsert : ∀ (es : List Event) (db : SQLADataSource),
      (∀ e ∈ es, (e.runId, e.seq) ∈ db.events.keys) → es.foldl insertEvent db = db := by
    intro es
    induction es with
    | nil => intros; rfl
    | cons e es ih =>
      intro db hmem
      have hsame : db.insertEvent e = db := by rw [insertEvent, if_pos (hmem e List.mem_cons_self)]
      rw [List.foldl_cons, hsame]
      exact ih db fun x hx => hmem x (List.mem_cons_of_mem e hx)
  rw [heq, hinsert es (db.saveFlow f) hkeys]
  refine ⟨rfl, ?_⟩
  show (db.flows.set f.runId (flowRow f)).keys = db.flows.keys
  rw [Dict.keys_set, hid, if_pos hflow]

/-- **Nothing is written twice**: a stored batch leaves the events table as it is, and
adds no run. -/
theorem events_redelivered {db : SQLADataSource} (hdb : db.Folded) {batch : List Event}
    (h : db.Stored batch) :
    (db.applyMany batch).events = db.events
      ∧ (db.applyMany batch).flows.keys = db.flows.keys := by
  have hgroup : ∀ p ∈ (Dict.groupBy Event.runId batch).entries,
      p.2 ≠ [] ∧ (∀ e ∈ p.2, e.runId = p.1) ∧ ∀ e ∈ p.2, e ∈ batch := by
    intro p hp
    have hget := Dict.get?_eq_some_iff.mpr hp
    obtain ⟨hne, hrun⟩ := Dict.mem_of_get?_groupBy hget
    refine ⟨hne, hrun, fun e he => ?_⟩
    rw [Dict.get?_groupBy] at hget
    split at hget
    · simp at hget
    · rw [← Option.some.inj hget] at he
      exact List.mem_of_mem_filter he
  have hkeys : ∀ e ∈ batch, (e.runId, e.seq) ∈ db.events.keys := fun e he =>
    hasSeq_held_iff.mp ⟨e, h e he, rfl⟩
  have hflows : ∀ e ∈ batch, e.runId ∈ db.flows.keys := by
    intro e he
    obtain ⟨f, hf, -⟩ := hdb e.runId e (h e he)
    obtain ⟨row, hrow, -⟩ := Option.map_eq_some_iff.mp hf
    exact Dict.mem_keys_of_get? hrow
  -- run by run, with the events and the set of runs as invariants
  have hruns : ∀ (l : List (String × List Event)) (db' : SQLADataSource),
      (∀ p ∈ l, p ∈ (Dict.groupBy Event.runId batch).entries) → db'.events = db.events →
      db'.flows.keys = db.flows.keys →
      (l.foldl (fun db p => db.applyRun p.1 p.2) db').events = db.events
        ∧ (l.foldl (fun db p => db.applyRun p.1 p.2) db').flows.keys = db.flows.keys := by
    intro l
    induction l with
    | nil => intro db' _ he hf; exact ⟨he, hf⟩
    | cons p l ih =>
      intro db' hsub he hf
      obtain ⟨hne, hrun, hmem⟩ := hgroup p (hsub p List.mem_cons_self)
      have hk : ∀ e ∈ p.2, (e.runId, e.seq) ∈ db'.events.keys := by
        intro e hep
        rw [he]
        exact hkeys e (hmem e hep)
      have hr : p.1 ∈ db'.flows.keys := by
        obtain ⟨e, hep⟩ := List.exists_mem_of_ne_nil _ hne
        rw [hf, ← hrun e hep]
        exact hflows e (hmem e hep)
      obtain ⟨he', hf'⟩ := applyRun_of_stored hne hrun hk hr
      rw [List.foldl_cons]
      exact ih (db'.applyRun p.1 p.2) (fun q hq => hsub q (List.mem_cons_of_mem p hq))
        (he'.trans he) (hf'.trans hf)
  exact hruns _ db (fun p hp => hp) rfl rfl

/-- The flow rows are the same when every run's flow is. -/
theorem flows_eq_iff {db db' : SQLADataSource} (hkeys : db'.flows.keys = db.flows.keys) :
    db'.flows = db.flows ↔ ∀ r, db'.getFlow r = db.getFlow r := by
  constructor
  · intro h r
    rw [getFlow, getFlow, loadFlow, loadFlow, h]
  · intro h
    refine Dict.ext_get? hkeys fun r => ?_
    have hrow : ∀ d : SQLADataSource, d.flows.get? r = (d.getFlow r).map flowRow := by
      intro d
      rw [getFlow, loadFlow, Option.map_map]
      cases d.flows.get? r <;> simp
    rw [hrow, hrow, h]

/-- **A redelivered batch changes nothing a reader can see exactly when it says nothing
new**: for every run and every field of its flow and of its atoms, the last event of the
batch that says something of the field says what the row holds. -/
theorem redelivery_iff (batches : List (List Event)) {batch : List Event}
    (h : (filled batches).Stored batch) :
    (((filled batches).applyMany batch).events = (filled batches).events
        ∧ ((filled batches).applyMany batch).flows = (filled batches).flows)
      ↔ ∀ r f, (filled batches).getFlow r = some f →
          SaysNothingNew f (batch.filter (·.runId = r)) := by
  have hdb := folded_filled batches
  obtain ⟨hevents, hkeys⟩ := events_redelivered hdb h
  rw [and_iff_right hevents, flows_eq_iff hkeys]
  refine forall_congr' fun r => ?_
  have hpart : ∀ e ∈ batch.filter (·.runId = r), e ∈ (filled batches).held r := by
    intro e he
    obtain ⟨hmem, hr⟩ := List.mem_filter.mp he
    rw [← of_decide_eq_true hr]
    exact h e hmem
  rw [getFlow_applyMany]
  cases hf : (filled batches).getFlow r with
  | none =>
    -- a run without a row has no stored events
    have hnil : batch.filter (·.runId = r) = [] := by
      rw [List.eq_nil_iff_forall_not_mem]
      intro e he
      obtain ⟨f, hsome, -⟩ := hdb r e (hpart e he)
      rw [hf] at hsome
      simp at hsome
    rw [hnil]
    simp [applyEvents]
  | some f =>
    have hcov : ∀ e ∈ batch.filter (·.runId = r), Covered f e := by
      intro e he
      obtain ⟨g, hg, hcov⟩ := hdb r e (hpart e he)
      obtain rfl := Option.some.inj (hf.symm.trans hg)
      exact hcov
    rw [applyEvents_some, Option.some.injEq, foldl_fold_eq_iff hcov]
    simp

/-- A run has started. -/
def started : Event where
  runId := "run-1"
  seq := 1
  ts := 1
  kind := .flowState
  state := some States.RUNNING

/-- The run has ended. -/
def ended : Event where
  runId := "run-1"
  seq := 2
  ts := 2
  kind := .flowState
  state := some States.SUCCESS

/-- The first event of a finished run comes again, and the run is running again. -/
theorem redelivery_reopens_run :
    (filled [[started, ended]]).Stored [started]
      ∧ ((filled [[started, ended]]).applyMany [started]).flows ≠
        (filled [[started, ended]]).flows := by
  refine ⟨by unfold Stored; decide, ?_⟩
  intro h
  have hstate := congrArg (fun flows => (flows.get? "run-1").map (·.state)) h
  revert hstate
  decide

/-- The whole run comes again, and nothing changes. -/
theorem redelivery_of_everything :
    ((filled [[started, ended]]).applyMany [started, ended]).events
        = (filled [[started, ended]]).events
      ∧ ((filled [[started, ended]]).applyMany [started, ended]).flows
        = (filled [[started, ended]]).flows := by
  have hstored : (filled [[started, ended]]).Stored [started, ended] := by
    unfold Stored
    decide
  have hrow : ∀ f, (filled [[started, ended]]).getFlow "run-1" = some f →
      f.state = some States.SUCCESS ∧ f.name = "" ∧ f.atoms = ∅ := by
    intro f hf
    obtain rfl := Option.some.inj (hf.symm.trans rfl)
    decide
  refine (redelivery_iff [[started, ended]] hstored).mpr ?_
  intro r f hf
  by_cases hr : r = "run-1"
  · subst hr
    obtain ⟨hstate, hname, hatoms⟩ := hrow f hf
    refine ⟨?_, ?_, ?_⟩
    · rw [hstate]
      unfold Repeats
      decide
    · rw [hname]
      unfold Repeats
      decide
    · intro name a ha
      rw [hatoms] at ha
      simp at ha
  · have hnil : [started, ended].filter (·.runId = r) = [] := by
      simp [started, ended, Ne.symm hr]
    rw [hnil]
    exact saysNothingNew_nil f

end SQLADataSource

end TaskflowMeter
