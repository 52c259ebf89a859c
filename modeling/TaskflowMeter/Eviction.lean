import TaskflowMeter.Remnant

/-!
# What a client learns of evicted events

The history evicts in order of arrival, and a client pages in order of sequence.  The
two agree only if the events arrive in sequence order; here the events `1, …, n` of a
run arrive in any order, and a client then walks through what is left.

## Main definitions

* `retainedOf`, `evictedOf` — the last `c` to arrive, and those before.
* `ObtainsRetained`, `MissingAnnounced`, `EvictedAnnounced` — what the client should get
  and be told.

## Main results

* `walk_after_eviction_iff` — **the client gets everything, or is told what it misses,
  exactly when no evicted number lies between two retained ones; and it is told of
  every eviction exactly when the evicted numbers are the lowest.**
-/

namespace TaskflowMeter

open Consecutive

/-- The events that a history of size `c` retains: the last to arrive. -/
def retainedOf (c : ℕ) (arrivals : List Event) : List Event := arrivals.rtake c

/-- The events that it evicts. -/
def evictedOf (c : ℕ) (arrivals : List Event) : List Event := arrivals.rdrop c

theorem evictedOf_append_retainedOf (c : ℕ) (arrivals : List Event) :
    evictedOf c arrivals ++ retainedOf c arrivals = arrivals :=
  List.take_append_drop _ _

/-! ### What the client should get and be told -/

/-- The client has every retained event above the number it started from. -/
def ObtainsRetained (c : ℕ) (arrivals : List Event) (since : ℤ) (client : Client) : Prop :=
  ∀ e ∈ retainedOf c arrivals, since < e.seq → e ∈ client.received

/-- Every number above that it does not have was announced to be gone. -/
def MissingAnnounced (n : ℕ) (since : ℤ) (client : Client) : Prop :=
  ∀ m, since < m → m ≤ n → ¬HasSeq client.received m → client.Announced m

/-- Every evicted number above that was announced to be gone. -/
def EvictedAnnounced (c : ℕ) (arrivals : List Event) (since : ℤ) (client : Client) : Prop :=
  ∀ e ∈ evictedOf c arrivals, since < e.seq → client.Announced e.seq

/-- No evicted number above `since` lies between two retained ones. -/
def EvictedNotBetween (c : ℕ) (arrivals : List Event) (since : ℤ) : Prop :=
  ∀ e ∈ evictedOf c arrivals, since < e.seq →
    ∀ a ∈ retainedOf c arrivals, a.seq < e.seq → ∀ b ∈ retainedOf c arrivals, b.seq < e.seq

/-- Every evicted number above `since` is below every retained one. -/
def EvictedBelow (c : ℕ) (arrivals : List Event) (since : ℤ) : Prop :=
  ∀ e ∈ evictedOf c arrivals, since < e.seq → ∀ a ∈ retainedOf c arrivals, e.seq < a.seq

/-! ### After a walk -/

section

variable {runId : String} {n c : ℕ} {arrivals : List Event} {since : ℤ} {client : Client}

/-- The client gets every retained event exactly when none is cut off. -/
theorem obtainsRetained_iff (hwalk : WalkedThrough (retainedOf c arrivals) since client)
    (h : Numbered runId n arrivals) (hsince : 0 ≤ since) :
    ObtainsRetained c arrivals since client ↔ EvictedNotBetween c arrivals since := by
  rw [← evictedOf_append_retainedOf c arrivals] at h
  exact hwalk.obtains_iff h hsince

/-- A missing number that is announced is not a retained one. -/
theorem obtainsRetained_of_missingAnnounced
    (hwalk : WalkedThrough (retainedOf c arrivals) since client) (h : Numbered runId n arrivals)
    (hmissing : MissingAnnounced n since client) : ObtainsRetained c arrivals since client := by
  rw [← evictedOf_append_retainedOf c arrivals] at h
  intro e he hlt
  by_contra hnot
  have hen : e.seq ≤ n := ((h.hasSeq_iff e.seq).mp ⟨e, List.mem_append_right _ he, rfl⟩).2
  have hann := hmissing e.seq hlt hen fun hseq => hnot ((hwalk.mem_received_iff h he).mpr hseq)
  obtain ⟨-, o, ho, hlt⟩ := (hwalk.announced e.seq).mp hann
  have hle := oldestOf_sorted_le ho he
  omega

/-- **Evictions are announced exactly when they are below everything retained.** -/
theorem evictedAnnounced_iff (hwalk : WalkedThrough (retainedOf c arrivals) since client)
    (hne : retainedOf c arrivals ≠ []) :
    EvictedAnnounced c arrivals since client ↔ EvictedBelow c arrivals since := by
  constructor
  · intro hann x hx hlt a ha
    obtain ⟨-, o, ho, hxo⟩ := (hwalk.announced x.seq).mp (hann x hx hlt)
    exact hxo.trans_le (oldestOf_sorted_le ho ha)
  · intro hbelow x hx hlt
    obtain ⟨a, ha⟩ := List.exists_mem_of_ne_nil _ hne
    obtain ⟨o, ho, y, hy, rfl⟩ := exists_oldestOf ha
    exact (hwalk.announced x.seq).mpr ⟨hlt, y.seq, ho, hbelow x hx hlt y hy⟩

theorem EvictedBelow.notBetween (h : EvictedBelow c arrivals since) :
    EvictedNotBetween c arrivals since := by
  intro e he hlt a ha hae b _
  have := h e he hlt a ha
  omega

end

/-- What the store has left once the events have arrived. -/
theorem held_applyMany_eq_retainedOf {s : MemoryDataSource} {runId : String} {n : ℕ}
    {arrivals : List Event} (hstore : s.maxRuns = none ∨ s.runs = ∅) (hnew : s.held runId = [])
    (h : Numbered runId n arrivals) :
    (WritableDataSource.memory (s.applyMany arrivals)).held runId
      = retainedOf s.maxEventsPerRun arrivals := by
  have hspares : s.Spares arrivals := by
    refine hstore.imp_right fun hnone => ⟨runId, ?_, h.ofRun⟩
    rw [hnone]
    simp
  have heq := MemoryDataSource.held_applyMany hspares runId
  rw [hnew, h.filter_eq, List.nil_append] at heq
  exact heq

/-- **What a client is told of evictions.**  The events `1, …, n` of a run have arrived in
any order at a store that keeps the last `c`; a client walks from `since`, with any limits.
It obtains every retained event, or is told of each number it misses, exactly when no
evicted number above `since` lies between two retained ones.  It is told of every eviction
besides exactly when every evicted number above `since` is below every retained one. -/
theorem walk_after_eviction_iff {s : MemoryDataSource} {runId : String} {n : ℕ}
    {arrivals : List Event} (hstore : s.maxRuns = none ∨ s.runs = ∅) (hnew : s.held runId = [])
    (h : Numbered runId n arrivals) {since : ℤ} (hsince : 0 ≤ since) (hlt : since < n)
    {limits : List ℤ} (hlimits : ∀ limit ∈ limits, 1 ≤ limit)
    (henough : s.maxEventsPerRun ≤ limits.length) (client : Client)
    (hclient : client = Client.walk (.memory (s.applyMany arrivals)) runId since limits) :
    ((ObtainsRetained s.maxEventsPerRun arrivals since client ∨ MissingAnnounced n since client)
        ↔ EvictedNotBetween s.maxEventsPerRun arrivals since)
      ∧ ((ObtainsRetained s.maxEventsPerRun arrivals since client
            ∨ MissingAnnounced n since client)
          ∧ EvictedAnnounced s.maxEventsPerRun arrivals since client
        ↔ EvictedBelow s.maxEventsPerRun arrivals since) := by
  subst hclient
  have hheld := held_applyMany_eq_retainedOf hstore hnew h
  have hpos := s.one_le_maxEventsPerRun
  have hcalls : limits ≠ [] := by
    rintro rfl
    simp at henough
    omega
  have hwalked := walkedThrough_walk (.memory (s.applyMany arrivals)) runId since hlimits hcalls
    ((s.applyMany arrivals).length_held_le runId |>.trans (by simpa using henough))
  rw [hheld] at hwalked
  have hfirst : (ObtainsRetained s.maxEventsPerRun arrivals since
      (Client.walk (.memory (s.applyMany arrivals)) runId since limits)
      ∨ MissingAnnounced n since
        (Client.walk (.memory (s.applyMany arrivals)) runId since limits))
        ↔ EvictedNotBetween s.maxEventsPerRun arrivals since := by
    rw [← obtainsRetained_iff hwalked h hsince, or_iff_left_iff_imp]
    exact obtainsRetained_of_missingAnnounced hwalked h
  have hne : retainedOf s.maxEventsPerRun arrivals ≠ [] := by
    have hlen := h.perm.length_eq
    simp only [List.length_map, List.length_range] at hlen
    intro hnil
    have hzero := congrArg List.length hnil
    rw [retainedOf, List.rtake, List.length_drop] at hzero
    simp only [List.length_nil] at hzero
    omega
  refine ⟨hfirst, ?_⟩
  rw [hfirst, evictedAnnounced_iff hwalked hne, and_iff_right_iff_imp]
  exact EvictedBelow.notBetween

/-! ### A history of two -/

/-- A store that keeps two events of each run. -/
def keepsTwo : MemoryDataSource where
  maxEventsPerRun := 2

/-- Event 1 was overtaken by event 2, which is the one that event 3 then evicts: the client
gets event 1, waits for event 2 for ever and is never told. -/
theorem hole_not_announced :
    Numbered "run-1" 3 [heartbeat 2, heartbeat 1, heartbeat 3]
      ∧ ¬(ObtainsRetained 2 [heartbeat 2, heartbeat 1, heartbeat 3] 0
            (Client.walk (.memory (keepsTwo.applyMany [heartbeat 2, heartbeat 1, heartbeat 3]))
              "run-1" 0 [500, 500])
          ∨ MissingAnnounced 3 0
            (Client.walk (.memory (keepsTwo.applyMany [heartbeat 2, heartbeat 1, heartbeat 3]))
              "run-1" 0 [500, 500])) := by
  have hreceived : (Client.walk
      (.memory (keepsTwo.applyMany [heartbeat 2, heartbeat 1, heartbeat 3])) "run-1" 0
      [500, 500]).received = [heartbeat 1] := by decide
  have hunwarned : ∀ p ∈ (Client.walk
      (.memory (keepsTwo.applyMany [heartbeat 2, heartbeat 1, heartbeat 3])) "run-1" 0
      [500, 500]).pages, p.2.truncated = false := by decide
  refine ⟨⟨by decide, by decide⟩, ?_⟩
  rintro (hobtains | hmissing)
  · have hmem := hobtains (heartbeat 3) (by decide) (by decide)
    rw [hreceived] at hmem
    revert hmem
    decide
  · -- nor does any page say so
    obtain ⟨p, hp, htrunc, -⟩ := hmissing 3 (by decide) (by decide) (by
      rw [hreceived]
      rintro ⟨e, he, hseq⟩
      rw [List.mem_singleton.mp he] at hseq
      exact absurd hseq (by decide))
    rw [hunwarned p hp] at htrunc
    exact absurd htrunc (by decide)

/-- Where the events arrive in order, the client is told that event 1 is gone. -/
theorem walk_after_eviction_in_order :
    EvictedAnnounced 2 [heartbeat 1, heartbeat 2, heartbeat 3] 0
      (Client.walk (.memory (keepsTwo.applyMany [heartbeat 1, heartbeat 2, heartbeat 3]))
        "run-1" 0 [1, 1]) := by
  have hnumbered : Numbered "run-1" 3 [heartbeat 1, heartbeat 2, heartbeat 3] :=
    ⟨by decide, by decide⟩
  have hbelow : EvictedBelow 2 [heartbeat 1, heartbeat 2, heartbeat 3] 0 := by
    unfold EvictedBelow
    decide
  have hlt : (0 : ℤ) < (3 : ℕ) := by decide
  have hlimits : ∀ limit ∈ [(1 : ℤ), 1], 1 ≤ limit := by decide
  have henough : keepsTwo.maxEventsPerRun ≤ [(1 : ℤ), 1].length := by decide
  have hiff := walk_after_eviction_iff (Or.inl rfl) rfl hnumbered le_rfl hlt hlimits henough _ rfl
  exact (hiff.2.mpr hbelow).2

end TaskflowMeter
