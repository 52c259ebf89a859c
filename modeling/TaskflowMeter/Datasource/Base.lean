import TaskflowMeter.Contiguous

/-!
# What every datasource answers

## Main definitions

* `EventPage`, `FlowPage` — one page of a run's events, and of the flows.
* `sortedBySeq` — `sorted(events, key=lambda event: event.seq)`.
* `eventPage` — the page a store makes of the events it holds for a run: both stores
  share this rule.

## Main results

* `find?_sortedBySeq` — of the events of one number the first to arrive stays the first.
* `eventPage_events` — the page is the unbroken run from its first number on.
* `mem_eventPage_iff` — what it holds.
* `truncated_eventPage_iff` — when the page says that there is a hole before it.
-/

namespace TaskflowMeter

open Consecutive

/-- One page of a run's event stream.  `truncated` says that the caller asked for
events that have already been evicted. -/
structure EventPage where
  events : List Event := []
  nextSeq : ℤ := 0
  oldestSeq : Option ℤ := none
  truncated : Bool := false
  deriving DecidableEq, Repr, Inhabited

/-- One page of flows. -/
structure FlowPage where
  items : List FlowSnapshot := []
  nextMarker : Option String := none
  deriving DecidableEq, Repr, Inhabited

def FlowPage.hasMore (page : FlowPage) : Bool := page.nextMarker.isSome

/-- The events of a run in sequence order; events of one number stay in the order
in which they arrived. -/
def sortedBySeq (events : List Event) : List Event := events.insertionSort fun a b => a.seq ≤ b.seq

/-- The page made of the events `stored`, which are in sequence order: it starts at
the number after `since`, or at the oldest one stored if that is further up. -/
def eventPage (stored : List Event) (since limit : ℤ) : EventPage :=
  let oldest := stored.head?.map (·.seq)
  let truncated := oldest.any fun o => since + 1 < o
  let expected := if truncated then oldest.getD (since + 1) else since + 1
  let selected := contiguousFrom stored expected limit
  { events := selected
    nextSeq := (selected.getLast?.map (·.seq)).getD since
    oldestSeq := oldest
    truncated := truncated }

/-- Keep an event unless there is one of its number already. -/
def keepFirst (stored : List Event) (event : Event) : List Event :=
  if ∃ e ∈ stored, e.seq = event.seq then stored else stored ++ [event]

/-! ### Sorting -/

theorem perm_sortedBySeq (events : List Event) : (sortedBySeq events).Perm events :=
  List.perm_insertionSort _ _

theorem mem_sortedBySeq {events : List Event} {e : Event} : e ∈ sortedBySeq events ↔ e ∈ events :=
  (perm_sortedBySeq events).mem_iff

theorem seqSorted_sortedBySeq (events : List Event) : SeqSorted (sortedBySeq events) := by
  have : Std.Total fun a b : Event => a.seq ≤ b.seq := ⟨fun a b => le_total a.seq b.seq⟩
  have : IsTrans Event fun a b => a.seq ≤ b.seq := ⟨fun _ _ _ => le_trans⟩
  exact List.pairwise_insertionSort _ _

theorem hasSeq_sortedBySeq {events : List Event} {m : ℤ} :
    HasSeq (sortedBySeq events) m ↔ HasSeq events m := by
  simp only [HasSeq, mem_sortedBySeq]

/-- Sorting leaves events alone that are in order. -/
theorem sortedBySeq_of_sorted {events : List Event} (h : SeqSorted events) :
    sortedBySeq events = events :=
  List.Pairwise.insertionSort_eq h

/-- **Sorting is stable**: of the events of one number the first stays the first. -/
theorem find?_sortedBySeq (events : List Event) (m : ℤ) :
    (sortedBySeq events).find? (fun x => x.seq = m) = events.find? (fun x => x.seq = m) := by
  have hinsert : ∀ (e : Event) (l : List Event),
      (l.orderedInsert (fun a b => a.seq ≤ b.seq) e).find? (fun x => x.seq = m)
        = (e :: l).find? fun x => x.seq = m := by
    intro e l
    induction l with
    | nil => rfl
    | cons x l ih =>
      rw [List.orderedInsert]
      split
      · rfl
      · next hlt =>
        -- `e` moves past `x`, whose number is another one
        rw [List.find?_cons, ih, List.find?_cons, List.find?_cons, List.find?_cons]
        by_cases hx : x.seq = m
        · have he : e.seq ≠ m := by omega
          simp [hx, he]
        · simp [hx]
  induction events with
  | nil => rfl
  | cons e events ih =>
    rw [sortedBySeq, List.insertionSort_cons, hinsert, List.find?_cons, List.find?_cons, ← ih]
    rfl

/-- Without repeated numbers the order of arrival does not show. -/
theorem seqStrict_sortedBySeq {events : List Event} (h : (events.map Event.seq).Nodup) :
    SeqStrict (sortedBySeq events) := by
  have hnodup : ((sortedBySeq events).map Event.seq).Nodup :=
    ((perm_sortedBySeq events).map Event.seq).nodup_iff.mpr h
  have hne : (sortedBySeq events).Pairwise fun a b => a.seq ≠ b.seq := List.pairwise_map.mp hnodup
  exact (seqSorted_sortedBySeq events).imp₂ (fun a b hle hne => lt_of_le_of_ne hle hne) hne

/-- Events in strict order are determined by which events they are. -/
theorem eq_of_seqStrict_of_perm {l l' : List Event} (h : SeqStrict l) (h' : SeqStrict l')
    (hperm : l.Perm l') : l = l' :=
  List.Perm.eq_of_pairwise (fun _ _ _ _ hab hba => absurd hba (lt_asymm hab)) h h' hperm

/-! ### The page -/

/-- The lowest number stored. -/
def oldestOf (stored : List Event) : Option ℤ := stored.head?.map (·.seq)

/-- The number a page starts at. -/
def startOf (stored : List Event) (since : ℤ) : ℤ :=
  max (since + 1) ((oldestOf stored).getD (since + 1))

theorem oldestOf_le {stored : List Event} (h : SeqSorted stored) {o : ℤ}
    (ho : oldestOf stored = some o) {e : Event} (he : e ∈ stored) : o ≤ e.seq := by
  cases stored with
  | nil => simp at he
  | cons x l =>
    obtain rfl : x.seq = o := by simpa [oldestOf] using ho
    rcases List.mem_cons.mp he with rfl | he
    · exact le_rfl
    · exact (List.pairwise_cons.mp h).1 e he

/-- The lowest number stored, as a minimum over the events in any order. -/
theorem oldestOf_sortedBySeq (events : List Event) :
    oldestOf (sortedBySeq events) = (events.map Event.seq).min? := by
  cases hs : sortedBySeq events with
  | nil =>
    have hnil : events = [] := List.Perm.nil_eq (hs ▸ perm_sortedBySeq events) |>.symm
    rw [hnil]
    rfl
  | cons x l =>
    have hmem : x ∈ events := mem_sortedBySeq.mp (hs ▸ List.mem_cons_self)
    refine (List.min?_eq_some_iff.mpr ⟨List.mem_map_of_mem hmem, ?_⟩).symm
    intro m hm
    obtain ⟨e, he, rfl⟩ := List.mem_map.mp hm
    exact oldestOf_le (hs ▸ seqSorted_sortedBySeq events) rfl (hs ▸ mem_sortedBySeq.mpr he)

theorem oldestOf_sorted_le {events : List Event} {o : ℤ}
    (ho : oldestOf (sortedBySeq events) = some o)
    {e : Event} (he : e ∈ events) : o ≤ e.seq :=
  oldestOf_le (seqSorted_sortedBySeq events) ho (mem_sortedBySeq.mpr he)

theorem exists_oldestOf {events : List Event} {e : Event} (he : e ∈ events) :
    ∃ o, oldestOf (sortedBySeq events) = some o ∧ ∃ x ∈ events, x.seq = o := by
  cases hs : sortedBySeq events with
  | nil =>
    have hmem := mem_sortedBySeq.mpr he
    rw [hs] at hmem
    simp at hmem
  | cons x l =>
    exact ⟨x.seq, rfl, x, mem_sortedBySeq.mp (hs ▸ List.mem_cons_self), rfl⟩

@[simp] theorem oldestSeq_eventPage (stored : List Event) (since limit : ℤ) :
    (eventPage stored since limit).oldestSeq = oldestOf stored := rfl

/-- A page says that there is a hole before it exactly when the next number is below
everything stored. -/
theorem truncated_eventPage_iff {stored : List Event} {since limit : ℤ} :
    (eventPage stored since limit).truncated = true
      ↔ ∃ o, oldestOf stored = some o ∧ since + 1 < o := by
  show Option.any _ (oldestOf stored) = true ↔ _
  cases oldestOf stored <;> simp

/-- The two ways to say where a page starts. -/
theorem expected_eq_startOf (stored : List Event) (since : ℤ) :
    (if (oldestOf stored).any (fun o => since + 1 < o)
      then (oldestOf stored).getD (since + 1) else since + 1) = startOf stored since := by
  rw [startOf]
  cases ho : oldestOf stored with
  | none => simp
  | some o =>
    by_cases h : since + 1 < o
    · simp [h, max_eq_right h.le]
    · simp [h, max_eq_left (not_lt.mp h)]

theorem startOf_le {stored : List Event} (h : SeqSorted stored) {since : ℤ} {e : Event}
    (he : e ∈ stored) (hlt : since < e.seq) : startOf stored since ≤ e.seq := by
  apply max_le
  · omega
  · cases ho : oldestOf stored with
    | none => rw [Option.getD_none]; omega
    | some o => exact oldestOf_le h ho he

theorem events_eventPage (stored : List Event) (since limit : ℤ) :
    (eventPage stored since limit).events = contiguousFrom stored (startOf stored since) limit := by
  rw [← expected_eq_startOf]
  rfl

/-- **A page is the unbroken run of stored events from its first number on.** -/
theorem eventPage_events {stored : List Event} (h : SeqSorted stored) (since : ℤ) {limit : ℤ}
    (hlimit : 1 ≤ limit) :
    Contiguous stored (startOf stored since) limit (eventPage stored since limit).events := by
  rw [events_eventPage]
  exact contiguousFrom_spec h _ hlimit

/-- The next page continues after the last event of this one. -/
theorem nextSeq_eventPage {stored : List Event} (h : SeqSorted stored) (since : ℤ) {limit : ℤ}
    (hlimit : 1 ≤ limit) :
    (eventPage stored since limit).nextSeq
      = if (eventPage stored since limit).events = [] then since
        else startOf stored since + (eventPage stored since limit).events.length - 1 := by
  have hrun := (eventPage_events h since hlimit).isRun
  have hnext : (eventPage stored since limit).nextSeq
      = ((eventPage stored since limit).events.getLast?.map (·.seq)).getD since := rfl
  rw [hnext]
  split
  · next hnil => rw [hnil]; rfl
  · next hne =>
    have hlast := getLast?_eq hrun (by simpa using hne)
    rw [List.getLast?_map, List.length_map] at hlast
    rw [hlast, Option.getD_some]

/-- The position never goes back. -/
theorem le_nextSeq_eventPage (events : List Event) (since : ℤ) {limit : ℤ} (hlimit : 1 ≤ limit) :
    since ≤ (eventPage (sortedBySeq events) since limit).nextSeq := by
  have hstart : since + 1 ≤ startOf (sortedBySeq events) since := le_max_left _ _
  rw [nextSeq_eventPage (seqSorted_sortedBySeq events) since hlimit]
  split
  · exact le_rfl
  · next hne =>
    have hpos := List.length_pos_of_ne_nil hne
    omega

/-- **What a page holds**: of each number between the old position and the new one, the
event that was the first to arrive. -/
theorem mem_eventPage_iff {events : List Event} {since limit : ℤ} (hlimit : 1 ≤ limit) (e : Event) :
    e ∈ (eventPage (sortedBySeq events) since limit).events
      ↔ events.find? (fun x => x.seq = e.seq) = some e ∧ since < e.seq
        ∧ e.seq ≤ (eventPage (sortedBySeq events) since limit).nextSeq := by
  have hsorted := seqSorted_sortedBySeq events
  have hpage := eventPage_events hsorted since hlimit
  have hstart : since + 1 ≤ startOf (sortedBySeq events) since := le_max_left _ _
  rw [nextSeq_eventPage hsorted since hlimit]
  constructor
  · intro he
    have hseq := (mem_iff hpage.isRun e.seq).mp (List.mem_map_of_mem he)
    rw [List.length_map] at hseq
    rw [if_neg (List.ne_nil_of_mem he), ← find?_sortedBySeq]
    exact ⟨hpage.first e he, by omega, by omega⟩
  · rintro ⟨hfirst, hlt, hle⟩
    have hmem : e ∈ sortedBySeq events := mem_sortedBySeq.mpr (List.mem_of_find?_eq_some hfirst)
    have hge := startOf_le hsorted hmem hlt
    split at hle
    · omega
    · have hin := (mem_iff hpage.isRun e.seq).mpr ⟨hge, by rw [List.length_map]; omega⟩
      obtain ⟨x, hx, hseq⟩ := List.mem_map.mp hin
      have hxfirst := hpage.first x hx
      rw [find?_sortedBySeq, hseq, hfirst] at hxfirst
      exact Option.some.inj hxfirst ▸ hx

end TaskflowMeter
