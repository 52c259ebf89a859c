import TaskflowMeter.Datasource.Writable

/-!
# A client that pages through a run's events

A client asks for the events after a number and continues from the `next_seq` of the
page it is given.

## Main definitions

* `Client` — its position, and the pages it has been given.
* `Client.received`, `Client.Announced` — the events it has, and the numbers it has been
  told are gone.
* `Client.walk` — a walk over a store that nobody writes to.

## Main results

* `walked_walk` — **a walk over a resting store is one unbroken run**, whatever the
  limits.
* `hasSeq_received_walk_iff` — after enough calls, the numbers it has.
* `announced_walk_iff` — and the numbers it has been told are gone.
-/

namespace TaskflowMeter

open Consecutive

/-- A client's position in a run's stream, and what it has been given so far: each page
with the number it was asked from. -/
structure Client where
  sinceSeq : ℤ := 0
  pages : List (ℤ × EventPage) := []
  deriving DecidableEq

namespace Client

/-- Take a page, and continue after it. -/
def take (c : Client) (page : EventPage) : Client where
  sinceSeq := page.nextSeq
  pages := c.pages ++ [(c.sinceSeq, page)]

/-- Ask for the next page.  A call that is refused leaves the client where it was. -/
def call (c : Client) (eventsSince : ℤ → ℤ → Except String EventPage) (limit : ℤ) : Client :=
  match eventsSince c.sinceSeq limit with
  | .ok page => c.take page
  | .error _ => c

/-- The events received, in the order of the pages. -/
def received (c : Client) : List Event := c.pages.flatMap fun p => p.2.events

/-- The number `m` lies in a hole that a page has announced: after the number the page
was asked from, and before the oldest one there is. -/
def Announced (c : Client) (m : ℤ) : Prop :=
  ∃ p ∈ c.pages, p.2.truncated = true ∧ p.1 < m ∧ ∃ o ∈ p.2.oldestSeq, m < o

/-- No page has announced a hole. -/
def Unwarned (c : Client) : Prop := ∀ p ∈ c.pages, p.2.truncated = false

@[simp] theorem sinceSeq_take (c : Client) (page : EventPage) :
    (c.take page).sinceSeq = page.nextSeq := rfl

@[simp] theorem pages_take (c : Client) (page : EventPage) :
    (c.take page).pages = c.pages ++ [(c.sinceSeq, page)] := rfl

theorem received_take (c : Client) (page : EventPage) :
    (c.take page).received = c.received ++ page.events := by
  rw [received, pages_take, List.flatMap_append, ← received]
  simp

theorem announced_take {c : Client} {page : EventPage} {m : ℤ} :
    (c.take page).Announced m
      ↔ c.Announced m ∨ (page.truncated = true ∧ c.sinceSeq < m ∧ ∃ o ∈ page.oldestSeq, m < o) := by
  simp only [Announced, pages_take, List.mem_append, List.mem_singleton, or_and_right, exists_or,
    exists_eq_left]

/-- The calls of a client on a store that nobody writes to. -/
def walk (s : WritableDataSource) (runId : String) (since : ℤ) (limits : List ℤ) : Client :=
  limits.foldl (fun c limit => c.call (s.eventsSince runId) limit) { sinceSeq := since }

/-! ### A walk over a list of events -/

/-- What a client has after some pages of `stored`, asked for from `since` on: an
unbroken run, of which it knows the end. -/
structure Walked (stored : List Event) (since total : ℤ) (c : Client) : Prop where
  run : Contiguous stored (startOf stored since) total c.received
  sinceSeq : c.sinceSeq
    = if c.received = [] then since else startOf stored since + c.received.length - 1

/-- A run and the run that follows it. -/
theorem contiguous_append {stored l l' : List Event} {expected limit limit' : ℤ}
    (h : Contiguous stored expected limit l)
    (h' : Contiguous stored (expected + l.length) limit' l') :
    Contiguous stored expected (limit + limit') (l ++ l') where
  isRun := by
    rw [List.map_append, isRun_append, List.length_map]
    exact ⟨h.isRun, h'.isRun⟩
  first := by
    intro e he
    rcases List.mem_append.mp he with he | he
    · exact h.first e he
    · exact h'.first e he
  length_le := by
    have hlen := h.length_le
    have hlen' := h'.length_le
    rw [List.length_append]
    push_cast
    omega
  full := by
    rw [List.length_append]
    push_cast
    rcases h'.full with hfull' | hmissing
    · rcases h.full with hfull | hmissing
      · exact Or.inl (by omega)
      · -- nothing follows a run that has ended
        have hnil : l' = [] := by
          by_contra hne
          obtain ⟨e, t, rfl⟩ := List.exists_cons_of_ne_nil hne
          exact hmissing ⟨e, h'.mem List.mem_cons_self, h'.isRun.1⟩
        right
        simpa [hnil] using hmissing
    · exact Or.inr (by rwa [← add_assoc])

/-- Past the oldest number there is, the next page starts right after the last one. -/
theorem startOf_next (stored l : List Event) (since : ℤ) :
    startOf stored (if l = [] then since else startOf stored since + l.length - 1)
      = startOf stored since + l.length := by
  split
  · next hnil => rw [hnil]; simp
  · next hne =>
    have hpos : 0 < l.length := List.length_pos_of_ne_nil hne
    have hle : (oldestOf stored).getD 0 ≤ startOf stored since ∨ oldestOf stored = none := by
      cases ho : oldestOf stored with
      | none => exact Or.inr rfl
      | some o => left; rw [startOf, ho]; exact le_max_right _ _
    rw [startOf]
    cases ho : oldestOf stored with
    | none => rw [Option.getD_none]; omega
    | some o =>
      rw [ho] at hle
      simp only [Option.getD_some, reduceCtorEq, or_false] at hle ⊢
      omega

/-- **One call**: the page continues the run. -/
theorem Walked.take {stored : List Event} {since total limit : ℤ} {c : Client}
    (hsorted : SeqSorted stored) (h : Walked stored since total c) (hlimit : 1 ≤ limit) :
    Walked stored since (total + limit) (c.take (eventPage stored c.sinceSeq limit)) := by
  have hstart : startOf stored c.sinceSeq = startOf stored since + c.received.length := by
    rw [h.sinceSeq]
    exact startOf_next stored c.received since
  have hpage := eventPage_events hsorted c.sinceSeq hlimit
  have hnext := nextSeq_eventPage hsorted c.sinceSeq hlimit
  rw [hstart] at hpage hnext
  refine ⟨?_, ?_⟩
  · rw [received_take]
    exact contiguous_append h.run hpage
  · -- an empty page leaves the position as it was
    rw [sinceSeq_take, received_take, hnext]
    by_cases hnil : (eventPage stored c.sinceSeq limit).events = []
    · rw [if_pos hnil, hnil, List.append_nil]
      exact h.sinceSeq
    · rw [if_neg hnil, if_neg (by simp [hnil]), List.length_append]
      push_cast
      ring

/-- A client that has not asked yet. -/
theorem walked_new (stored : List Event) (since : ℤ) :
    Walked stored since 0 { sinceSeq := since } :=
  ⟨⟨trivial, by simp [received], by simp [received], Or.inl (by simp [received])⟩, rfl⟩

theorem call_eq {s : WritableDataSource} {runId : String} {limit : ℤ} (hlimit : 1 ≤ limit)
    (c : Client) :
    c.call (s.eventsSince runId) limit
      = c.take (eventPage (sortedBySeq (s.held runId)) c.sinceSeq limit) := by
  rw [call, WritableDataSource.eventsSince_eq s runId _ hlimit]

theorem walk_concat (s : WritableDataSource) (runId : String) (since : ℤ) (limits : List ℤ)
    (limit : ℤ) :
    walk s runId since (limits ++ [limit])
      = (walk s runId since limits).call (s.eventsSince runId) limit := by
  rw [walk, List.foldl_append]
  rfl

/-- **A walk over a resting store is one unbroken run**, whatever the limits. -/
theorem walked_walk (s : WritableDataSource) (runId : String) (since : ℤ) {limits : List ℤ}
    (hlimits : ∀ limit ∈ limits, 1 ≤ limit) :
    Walked (sortedBySeq (s.held runId)) since limits.sum (walk s runId since limits) := by
  induction limits using List.reverseRecOn with
  | nil => exact walked_new _ since
  | append_singleton limits limit ih =>
    have hlimit : 1 ≤ limit := hlimits limit (by simp)
    have hprev := ih fun l hl => hlimits l (List.mem_append_left _ hl)
    rw [walk_concat, call_eq hlimit, List.sum_append, List.sum_singleton]
    exact hprev.take (seqSorted_sortedBySeq _) hlimit

/-! ### What the client ends up with -/

theorem length_le_sum {limits : List ℤ} (h : ∀ limit ∈ limits, 1 ≤ limit) :
    (limits.length : ℤ) ≤ limits.sum := by
  induction limits with
  | nil => simp
  | cons limit limits ih =>
    have hlimit := h limit List.mem_cons_self
    have hrest := ih fun l hl => h l (List.mem_cons_of_mem _ hl)
    rw [List.length_cons, List.sum_cons]
    push_cast
    omega

/-- **After enough calls** the client has exactly the numbers that follow on from the
first page's without a break. -/
theorem hasSeq_received_walk_iff (s : WritableDataSource) (runId : String) (since : ℤ)
    {limits : List ℤ} (hlimits : ∀ limit ∈ limits, 1 ≤ limit)
    (henough : (s.held runId).length ≤ limits.length) (m : ℤ) :
    HasSeq (walk s runId since limits).received m
      ↔ Unbroken {k | HasSeq (s.held runId) k} (startOf (sortedBySeq (s.held runId)) since) m := by
  have hset : {k | HasSeq (sortedBySeq (s.held runId)) k} = {k | HasSeq (s.held runId) k} := by
    ext k
    exact hasSeq_sortedBySeq
  rw [(walked_walk s runId since hlimits).run.mem_seq_iff, hset, and_iff_left_iff_imp]
  intro h
  -- the stretch is no longer than the history, and so no longer than what the limits allow
  have hlist : {k | HasSeq (s.held runId) k} = {k | k ∈ (s.held runId).map Event.seq} := by
    ext k
    simp [HasSeq]
  rw [hlist] at h
  have hlt := h.lt_add_length
  have hsum := length_le_sum hlimits
  rw [List.length_map] at hlt
  omega

/-- However many calls: the client is never past a number that is missing. -/
theorem hasSeq_held_of_received (s : WritableDataSource) (runId : String) (since : ℤ)
    {limits : List ℤ} (hlimits : ∀ limit ∈ limits, 1 ≤ limit) {m k : ℤ}
    (hm : HasSeq (walk s runId since limits).received m)
    (hk : startOf (sortedBySeq (s.held runId)) since ≤ k) (hkm : k ≤ m) :
    HasSeq (s.held runId) k := by
  obtain ⟨hunbroken, -⟩ := ((walked_walk s runId since hlimits).run.mem_seq_iff m).mp hm
  exact hasSeq_sortedBySeq.mp (hunbroken.2 k hk hkm)

/-- The client never goes back. -/
theorem Walked.since_le {stored : List Event} {since total : ℤ} {c : Client}
    (h : Walked stored since total c) : since ≤ c.sinceSeq := by
  have hstart : since + 1 ≤ startOf stored since := le_max_left _ _
  rw [h.sinceSeq]
  split
  · exact le_rfl
  · next hne =>
    have hpos : 0 < c.received.length := List.length_pos_of_ne_nil hne
    omega

/-- Where the pages of a walk come from: the first is asked for from `since`, and none
from further down. -/
theorem pages_walk (s : WritableDataSource) (runId : String) (since : ℤ) {limits : List ℤ}
    (hlimits : ∀ limit ∈ limits, 1 ≤ limit) :
    (∀ p ∈ (walk s runId since limits).pages, since ≤ p.1
        ∧ ∃ limit, p.2 = eventPage (sortedBySeq (s.held runId)) p.1 limit)
      ∧ (limits ≠ [] → ∃ limit,
          (since, eventPage (sortedBySeq (s.held runId)) since limit)
            ∈ (walk s runId since limits).pages) := by
  induction limits using List.reverseRecOn with
  | nil => exact ⟨by simp [walk], fun h => absurd rfl h⟩
  | append_singleton limits limit ih =>
    have hlimits' : ∀ l ∈ limits, 1 ≤ l := fun l hl => hlimits l (List.mem_append_left _ hl)
    obtain ⟨hall, hfirst⟩ := ih hlimits'
    have hwalked := walked_walk s runId since hlimits'
    rw [walk_concat, call_eq (hlimits limit (by simp)), pages_take]
    constructor
    · intro p hp
      rcases List.mem_append.mp hp with hp | hp
      · exact hall p hp
      · rw [List.mem_singleton.mp hp]
        exact ⟨hwalked.since_le, limit, rfl⟩
    · intro _
      by_cases hnil : limits = []
      · subst hnil
        exact ⟨limit, List.mem_append_right _ (List.mem_singleton_self _)⟩
      · obtain ⟨l, hl⟩ := hfirst hnil
        exact ⟨l, List.mem_append_left _ hl⟩

/-- **What a walk announces**: the numbers between the one it starts from and the oldest
one there is. -/
theorem announced_walk_iff (s : WritableDataSource) (runId : String) (since : ℤ)
    {limits : List ℤ} (hlimits : ∀ limit ∈ limits, 1 ≤ limit) (hne : limits ≠ []) (m : ℤ) :
    (walk s runId since limits).Announced m
      ↔ since < m ∧ ∃ o, oldestOf (sortedBySeq (s.held runId)) = some o ∧ m < o := by
  obtain ⟨hall, hfirst⟩ := pages_walk s runId since hlimits
  constructor
  · rintro ⟨p, hp, -, hlt, o, ho, hm⟩
    obtain ⟨hle, limit, hpage⟩ := hall p hp
    rw [hpage] at ho
    exact ⟨by omega, o, ho, hm⟩
  · rintro ⟨hlt, o, ho, hm⟩
    obtain ⟨limit, hpage⟩ := hfirst hne
    refine ⟨_, hpage, ?_, hlt, o, ho, hm⟩
    exact truncated_eventPage_iff.mpr ⟨o, ho, by omega⟩

end Client

end TaskflowMeter
