import TaskflowMeter.Fold

/-!
# Folding a diff back

The law the fold exists to keep: applying the events a diff produced reproduces
the snapshots the diff came from.  A poller watches one run through a list of
snapshots; what a store that folds its events then holds is compared with the
last of them.

## Main definitions

* `Watch`, `storedAfter` — successive diffs of one run, folded into a fresh store.
* `Timeline` — the snapshots of one run, whose atoms never disappear.

## Main results

* `storedAfter_concat` — one more poll folds its diff onto what was stored.
* `get?_atoms_foldl_pollEvents` — an atom after a poll.
-/

namespace TaskflowMeter

open LastWrite

/-! ### Watching one run -/

/-- A poller's memory of one run, and what the store it feeds holds of it. -/
structure Watch where
  previous : Option FlowSnapshot
  allocator : SequenceAllocator
  stored : Option FlowSnapshot
  deriving DecidableEq

/-- Diff a snapshot against the last one and fold the events into the store. -/
def Watch.observe (w : Watch) (snapshot : FlowSnapshot) : Except String Watch := do
  let diff ← diffFlow w.previous snapshot w.allocator
  return ⟨some snapshot, diff.2, applyEvents w.stored diff.1⟩

/-- Watch a run from its first observation, with a store that had never seen it. -/
def watch (allocator : SequenceAllocator) (snapshots : List FlowSnapshot) : Except String Watch :=
  snapshots.foldlM Watch.observe ⟨none, allocator, none⟩

/-- What the store holds of the run after the last of the snapshots. -/
def storedAfter (allocator : SequenceAllocator) (snapshots : List FlowSnapshot) :
    Option FlowSnapshot :=
  (watch allocator snapshots).toOption.bind (·.stored)

/-- The snapshots are of the run `runId`. -/
def OfRun (runId : String) (snapshots : List FlowSnapshot) : Prop :=
  ∀ s ∈ snapshots, s.runId = runId

/-- The snapshots of one run: atoms are keyed by their own name, and an atom once
present stays present in every later snapshot. -/
@[mk_iff]
structure Timeline (runId : String) (snapshots : List FlowSnapshot) : Prop where
  ofRun : OfRun runId snapshots
  keyed : ∀ s ∈ snapshots, s.Keyed
  persists : snapshots.Pairwise fun old new => ∀ name ∈ old.atoms.keys, name ∈ new.atoms.keys

instance (runId : String) (snapshots : List FlowSnapshot) : Decidable (OfRun runId snapshots) :=
  inferInstanceAs (Decidable (∀ s ∈ snapshots, s.runId = runId))

instance (runId : String) (snapshots : List FlowSnapshot) :
    Decidable (Timeline runId snapshots) :=
  decidable_of_iff _ (timeline_iff runId snapshots).symm

theorem Timeline.of_append_left {runId : String} {l l' : List FlowSnapshot}
    (h : Timeline runId (l ++ l')) : Timeline runId l where
  ofRun := fun s hs => h.ofRun s (List.mem_append_left _ hs)
  keyed := fun s hs => h.keyed s (List.mem_append_left _ hs)
  persists := (List.pairwise_append.mp h.persists).1

/-- A run up to one of its polls. -/
theorem Timeline.upTo {runId : String} {snapshots l post : List FlowSnapshot} {s : FlowSnapshot}
    (h : Timeline runId snapshots) (hsplit : snapshots = l ++ s :: post) :
    Timeline runId (l ++ [s]) := by
  have hfull : Timeline runId ((l ++ [s]) ++ post) := by
    rwa [List.append_assoc, List.singleton_append, ← hsplit]
  exact hfull.of_append_left

theorem Timeline.persists_last {runId : String} {l : List FlowSnapshot} {s : FlowSnapshot}
    (h : Timeline runId (l ++ [s])) :
    ∀ o ∈ l.getLast?, ∀ name ∈ o.atoms.keys, name ∈ s.atoms.keys := fun o ho =>
  (List.pairwise_append.mp h.persists).2.2 o (List.mem_of_getLast? ho) s
    (List.mem_singleton_self s)

/-- The events a poll of `new` emits when `old` was seen last. -/
def pollEvents (old : Option FlowSnapshot) (new : FlowSnapshot) (allocator : SequenceAllocator) :
    List Event :=
  (stampAll new.runId new.observedAt allocator (diffEvents old new)).1

theorem watch_concat {runId : String} {allocator a : SequenceAllocator} {l : List FlowSnapshot}
    {s : FlowSnapshot} {stored : Option FlowSnapshot} (h : OfRun runId (l ++ [s]))
    (hl : watch allocator l = .ok ⟨l.getLast?, a, stored⟩) :
    watch allocator (l ++ [s])
      = .ok ⟨some s, (stampAll s.runId s.observedAt a (diffEvents l.getLast? s)).2,
          applyEvents stored (pollEvents l.getLast? s a)⟩ := by
  have hrun : ∀ o ∈ l.getLast?, o.runId = s.runId := by
    intro o ho
    have ho' : o.runId = runId := h o (List.mem_append_left _ (List.mem_of_getLast? ho))
    have hs' : s.runId = runId := h s (List.mem_append_right _ (List.mem_singleton_self s))
    rw [ho', hs']
  rw [watch] at hl ⊢
  rw [List.foldlM_append, hl]
  show List.foldlM Watch.observe _ [s] = _
  rw [List.foldlM_cons, Watch.observe, diffFlow_eq_ok hrun]
  rfl

/-- Within one run a watch never fails, and remembers the last snapshot. -/
theorem watch_eq_ok {runId : String} (allocator : SequenceAllocator) {l : List FlowSnapshot}
    (h : OfRun runId l) :
    ∃ a, watch allocator l = .ok ⟨l.getLast?, a, storedAfter allocator l⟩ := by
  induction l using List.reverseRecOn with
  | nil => exact ⟨allocator, rfl⟩
  | append_singleton l s ih =>
    obtain ⟨a, ha⟩ := ih fun s hs => h s (List.mem_append_left _ hs)
    have hstep := watch_concat h ha
    refine ⟨(stampAll s.runId s.observedAt a (diffEvents l.getLast? s)).2, ?_⟩
    rw [storedAfter, hstep, List.getLast?_concat]
    rfl

/-- One more poll folds its diff onto what was stored. -/
theorem storedAfter_concat {runId : String} (allocator : SequenceAllocator)
    {l : List FlowSnapshot} {s : FlowSnapshot} (h : OfRun runId (l ++ [s])) :
    ∃ a, storedAfter allocator (l ++ [s])
      = applyEvents (storedAfter allocator l) (pollEvents l.getLast? s a) := by
  obtain ⟨a, ha⟩ := watch_eq_ok allocator fun s hs => h s (List.mem_append_left _ hs)
  exact ⟨a, by rw [storedAfter, watch_concat h ha]; rfl⟩

/-! ### One poll -/

/-- What a poll's events are folded onto: what was stored, or the seed that the
first of them makes. -/
def foldBase (stored : Option FlowSnapshot) (events : List Event) : FlowSnapshot :=
  stored.getD ((events.head?.map flowFromEvent).getD default)

theorem applyEvents_eq {stored : Option FlowSnapshot} {events : List Event}
    (h : stored = none → events ≠ []) :
    applyEvents stored events = some (events.foldl fold (foldBase stored events)) := by
  cases stored with
  | some f => exact applyEvents_some f events
  | none =>
    cases events with
    | nil => exact absurd rfl (h rfl)
    | cons e es => exact applyEvents_none_cons e es

theorem pollEvents_none_ne_nil (s : FlowSnapshot) (a : SequenceAllocator) :
    pollEvents none s a ≠ [] := by
  intro h
  have hlen := length_stampAll s.runId s.observedAt a (diffEvents none s)
  rw [pollEvents] at h
  rw [h] at hlen
  exact diffEvents_none_ne_nil s (List.eq_nil_of_length_eq_zero hlen.symm)

/-- What the last flow-state event of a diff says. -/
theorem lastSaid_sayState_diffEvents (old : Option FlowSnapshot) (new : FlowSnapshot) :
    lastSaid sayState (diffEvents old new)
      = if old.any (fun o => o.state = new.state) then none else some new.state := by
  have hatom : (atomEvents old new).filterMap sayState = [] := by
    rw [List.filterMap_eq_nil_iff]
    intro e he
    rcases (kind_of_mem_atomEvents he).1 with hk | hk <;> simp [sayState, hk]
  have hflow : (flowEvents old new).filterMap sayState
      = if old.any (fun o => o.state = new.state) then [] else [new.state] := by
    rw [flowEvents]
    split <;> rfl
  rw [lastSaid, diffEvents]
  split <;> rw [List.filterMap_append, hatom, hflow] <;> split <;> rfl

/-- Of a list of distinct items, only one contributes. -/
theorem flatMap_eq_of_nodup {α β : Type} {l : List α} {f : α → List β} {a : α} (hl : l.Nodup)
    (ha : a ∈ l) (hf : ∀ b ∈ l, b ≠ a → f b = []) : l.flatMap f = f a := by
  induction l with
  | nil => simp at ha
  | cons b l ih =>
    rw [List.nodup_cons] at hl
    rw [List.flatMap_cons]
    by_cases hb : b = a
    · subst hb
      have htail : l.flatMap f = [] := by
        rw [List.flatMap_eq_nil_iff]
        intro c hc
        exact hf c (List.mem_cons_of_mem _ hc) fun h => hl.1 (h ▸ hc)
      rw [htail, List.append_nil]
    · have ha' : a ∈ l := (List.mem_cons.mp ha).resolve_left (Ne.symm hb)
      rw [hf b List.mem_cons_self hb, List.nil_append,
        ih hl.2 ha' fun c hc => hf c (List.mem_cons_of_mem _ hc)]

theorem filter_ofAtom_atomChange (new : FlowSnapshot) (before : Option AtomSnapshot)
    (current : AtomSnapshot) (name : String) :
    (atomChange new before current).filter (ofAtom name)
      = if current.name = name then atomChange new before current else [] := by
  have hof : ∀ e ∈ atomChange new before current, ofAtom name e = decide (current.name = name) := by
    intro e he
    rcases mem_atomChange he with rfl | rfl <;>
      simp [ofAtom, atomStateEvent, atomProgressEvent, newEvent]
  rw [List.filter_congr hof]
  split <;> simp_all

/-- The events of a diff that are about one atom. -/
theorem filter_ofAtom_diffEvents {old : Option FlowSnapshot} {new : FlowSnapshot}
    (hkeyed : new.Keyed) (name : String) :
    (diffEvents old new).filter (ofAtom name)
      = ((new.atoms.get? name).map fun current =>
          atomChange new (old.bind fun o => o.atoms.get? name) current).getD [] := by
  have hflow : (flowEvents old new).filter (ofAtom name) = [] := by
    rw [List.filter_eq_nil_iff]
    intro e he
    simp [ofAtom, (mem_flowEvents he).1]
  have hatom : (atomEvents old new).filter (ofAtom name)
      = ((new.atoms.get? name).map fun current =>
          atomChange new (old.bind fun o => o.atoms.get? name) current).getD [] := by
    rw [atomEvents, List.filter_flatMap]
    -- only the atom kept under `name` has events about `name`
    have hother : ∀ n ∈ new.atomNames, n ≠ name →
        (((new.atoms.get? n).map fun current =>
          atomChange new (old.bind fun o => o.atoms.get? n) current).getD []).filter
            (ofAtom name) = [] := by
      intro n _ hne
      cases hc : new.atoms.get? n with
      | none => rfl
      | some current =>
        have hn : current.name ≠ name := by rw [hkeyed n current hc]; exact hne
        simp only [Option.map_some, Option.getD_some]
        rw [filter_ofAtom_atomChange, if_neg hn]
    cases hc : new.atoms.get? name with
    | none =>
      rw [List.flatMap_eq_nil_iff.mpr]
      · rfl
      · intro n hn
        by_cases hne : n = name
        · subst hne; rw [hc]; rfl
        · exact hother n hn hne
    | some current =>
      have hmem : name ∈ new.atomNames := FlowSnapshot.mem_atomNames.mpr (Dict.mem_keys_of_get? hc)
      rw [flatMap_eq_of_nodup (FlowSnapshot.nodup_atomNames new) hmem hother, hc]
      simp only [Option.map_some, Option.getD_some]
      rw [filter_ofAtom_atomChange, if_pos (hkeyed name current hc)]
  rw [diffEvents]
  split <;> rw [List.filter_append, hflow, hatom] <;> simp

/-- An atom after a poll. -/
theorem get?_atoms_foldl_pollEvents {old : Option FlowSnapshot} {new : FlowSnapshot}
    (hkeyed : new.Keyed) (a : SequenceAllocator) (f : FlowSnapshot) (name : String) :
    ((pollEvents old new a).foldl fold f).atoms.get? name
      = (((new.atoms.get? name).map fun current =>
          atomChange new (old.bind fun o => o.atoms.get? name) current).getD []).foldl
            (foldAtom? name) (f.atoms.get? name) := by
  rw [get?_atoms_foldl, pollEvents, foldl_ofAtom_stampAll, filter_ofAtom_diffEvents hkeyed]

end TaskflowMeter
