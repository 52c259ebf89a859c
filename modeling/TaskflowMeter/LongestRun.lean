import TaskflowMeter.Datasource.Base

/-!
# The longest unbroken run

The events that a reader can ever be given from a number on, and `contiguousFrom` as a way to
read them in parts.

## Main definitions

* `firsts` — the first event of each of `n` numbers.
* `longestRun` — the longest unbroken run.
* `IsLongestRun` — what makes it that.
* `successive` — calls one after the other, each from where the last one ended.

## Main results

* `contiguousFrom_eq_take` — **one call takes the beginning of the longest run.**
* `contiguousFrom_drop` — the next one takes the next part.
* `flatten_successive` — **calls with any limits concatenate to it.**
-/

namespace TaskflowMeter

open Consecutive

instance (events : List Event) (m : ℤ) : Decidable (HasSeq events m) :=
  inferInstanceAs (Decidable (∃ e ∈ events, e.seq = m))

/-- The first event of each of the numbers `expected, …, expected + n - 1`. -/
def firsts (events : List Event) (expected : ℤ) (n : ℕ) : List Event :=
  (List.range n).filterMap fun i : ℕ => events.find? fun x => x.seq = expected + i

/-- How many numbers from `expected` on are there without one missing. -/
def runLength (events : List Event) (expected : ℤ) : ℕ :=
  Nat.findGreatest (fun n => ∀ i < n, HasSeq events (expected + (i : ℕ))) events.length

/-- The longest unbroken run from `expected` on. -/
def longestRun (events : List Event) (expected : ℤ) : List Event :=
  firsts events expected (runLength events expected)

/-- `run` counts up from `expected`, each event the first of its number, and no longer run has
all of its numbers in the list. -/
structure IsLongestRun (events : List Event) (expected : ℤ) (run : List Event) : Prop where
  isRun : IsRun expected (run.map Event.seq)
  first : ∀ e ∈ run, events.find? (fun x => x.seq = e.seq) = some e
  greatest : IsGreatest {n : ℕ | ∀ i < n, HasSeq events (expected + (i : ℕ))} run.length

/-- Calls of `contiguousFrom` on the same events, each from the number after the last one
taken. -/
def successive (events : List Event) : ℤ → List ℤ → List (List Event)
  | _, [] => []
  | expected, limit :: limits =>
      let taken := contiguousFrom events expected limit
      taken :: successive events (expected + taken.length) limits

/-! ### The longest run -/

theorem find?_of_hasSeq {events : List Event} {m : ℤ} (h : HasSeq events m) :
    ∃ e, events.find? (fun x => x.seq = m) = some e ∧ e.seq = m := by
  obtain ⟨x, hx, hseq⟩ := h
  have hsome : (events.find? fun x => x.seq = m).isSome := by
    rw [List.find?_isSome]
    exact ⟨x, hx, decide_eq_true hseq⟩
  obtain ⟨e, he⟩ := Option.isSome_iff_exists.mp hsome
  exact ⟨e, he, by simpa using List.find?_some he⟩

theorem firsts_succ {events : List Event} {expected : ℤ} {n : ℕ} {e : Event}
    (he : events.find? (fun x => x.seq = expected + n) = some e) :
    firsts events expected (n + 1) = firsts events expected n ++ [e] := by
  simp [firsts, List.range_succ, he]

/-- With none of the numbers missing, there is one event for each. -/
theorem firsts_spec {events : List Event} {expected : ℤ} {n : ℕ}
    (h : ∀ i < n, HasSeq events (expected + (i : ℕ))) :
    (firsts events expected n).length = n
      ∧ IsRun expected ((firsts events expected n).map Event.seq)
      ∧ ∀ e ∈ firsts events expected n, events.find? (fun x => x.seq = e.seq) = some e := by
  induction n with
  | zero => simp [firsts]
  | succ n ih =>
    obtain ⟨hlength, hrun, hfirst⟩ := ih fun i hi => h i (by omega)
    obtain ⟨e, he, hseq⟩ := find?_of_hasSeq (h n (by omega))
    rw [firsts_succ he]
    refine ⟨by simp [hlength], ?_, ?_⟩
    · rw [List.map_append, isRun_append, List.length_map, hlength]
      exact ⟨hrun, hseq, trivial⟩
    · intro x hx
      rcases List.mem_append.mp hx with hx | hx
      · exact hfirst x hx
      · obtain rfl := List.mem_singleton.mp hx
        rw [hseq, he]

/-- A run is no longer than the list that has its numbers. -/
theorem le_length_of_hasSeq {events : List Event} {expected : ℤ} {n : ℕ}
    (h : ∀ i < n, HasSeq events (expected + (i : ℕ))) : n ≤ events.length := by
  rcases Nat.eq_zero_or_pos n with rfl | hpos
  · exact Nat.zero_le _
  · have hunbroken : Unbroken {k | k ∈ events.map Event.seq} expected (expected + n - 1) := by
      refine ⟨by omega, fun k hk hkn => ?_⟩
      obtain ⟨e, he, hseq⟩ := h (k - expected).toNat (by omega)
      exact List.mem_map.mpr ⟨e, he, by omega⟩
    have hlt := hunbroken.lt_add_length
    rw [List.length_map] at hlt
    omega

theorem isGreatest_runLength (events : List Event) (expected : ℤ) :
    IsGreatest {n : ℕ | ∀ i < n, HasSeq events (expected + (i : ℕ))}
      (runLength events expected) := by
  constructor
  · exact Nat.findGreatest_spec (P := fun n => ∀ i < n, HasSeq events (expected + (i : ℕ)))
      (Nat.zero_le _) fun i hi => absurd hi (Nat.not_lt_zero i)
  · intro n hn
    exact Nat.le_findGreatest (le_length_of_hasSeq hn) hn

theorem longestRun_spec (events : List Event) (expected : ℤ) :
    IsLongestRun events expected (longestRun events expected) := by
  have hgreatest := isGreatest_runLength events expected
  obtain ⟨hlength, hrun, hfirst⟩ := firsts_spec hgreatest.1
  exact ⟨hrun, hfirst, by rwa [longestRun, hlength]⟩

/-! ### One call -/

/-- Two runs of firsts from one number agree as far as the shorter one goes. -/
theorem eq_take_of_isRun {events : List Event} {taken : List Event} :
    ∀ {expected : ℤ} {run : List Event}, IsRun expected (taken.map Event.seq) →
      (∀ e ∈ taken, events.find? (fun x => x.seq = e.seq) = some e) →
      IsRun expected (run.map Event.seq) →
      (∀ e ∈ run, events.find? (fun x => x.seq = e.seq) = some e) →
      taken.length ≤ run.length → taken = run.take taken.length := by
  induction taken with
  | nil => simp
  | cons e taken ih =>
    intro expected run htaken hfirst hrun hfirst' hle
    cases run with
    | nil => simp at hle
    | cons e' run =>
      obtain ⟨hseq, htaken⟩ := htaken
      obtain ⟨hseq', hrun⟩ := hrun
      have heq : e = e' := by
        have he := hfirst e List.mem_cons_self
        have he' := hfirst' e' List.mem_cons_self
        rw [hseq] at he
        rw [hseq', he] at he'
        exact Option.some.inj he'
      subst heq
      have hrest := ih htaken (fun x hx => hfirst x (List.mem_cons_of_mem e hx)) hrun
        (fun x hx => hfirst' x (List.mem_cons_of_mem e hx)) (by simpa using hle)
      rw [List.length_cons, List.take_succ_cons, ← hrest]

/-- What is taken is as long as the limit and the longest run let it be. -/
theorem Contiguous.length_eq {events taken run : List Event} {expected limit : ℤ}
    (h : Contiguous events expected limit taken) (hrun : IsLongestRun events expected run) :
    (taken.length : ℤ) = min limit run.length := by
  have hle : taken.length ≤ run.length := by
    apply hrun.greatest.2
    intro i hi
    have hmem : expected + i ∈ taken.map Event.seq := by
      rw [mem_iff h.isRun, List.length_map]
      omega
    obtain ⟨e, he, hseq⟩ := List.mem_map.mp hmem
    exact ⟨e, h.mem he, hseq⟩
  have hlimit := h.length_le
  rcases h.full with hfull | hmissing
  · omega
  · have hge : run.length ≤ taken.length := by
      by_contra hlt
      exact hmissing (hrun.greatest.1 taken.length (by omega))
    omega

/-- **One call takes the beginning of the longest run.** -/
theorem contiguousFrom_eq_take {events : List Event} (hsorted : SeqSorted events) (expected : ℤ)
    {limit : ℤ} (hlimit : 1 ≤ limit) :
    contiguousFrom events expected limit = (longestRun events expected).take limit.toNat := by
  have htaken := contiguousFrom_spec hsorted expected hlimit
  have hrun := longestRun_spec events expected
  have hlength := htaken.length_eq hrun
  refine (eq_take_of_isRun htaken.isRun htaken.first hrun.isRun hrun.first (by omega)).trans ?_
  rw [List.take_eq_take_iff]
  omega

/-! ### Calls one after the other -/

/-- What is left of the longest run is the longest run from there on. -/
theorem longestRun_add (events : List Event) (expected : ℤ) {n : ℕ}
    (hn : n ≤ (longestRun events expected).length) :
    longestRun events (expected + n) = (longestRun events expected).drop n := by
  have hrun := longestRun_spec events expected
  have hrest := longestRun_spec events (expected + n)
  have hsplit := hrun.isRun
  rw [← List.take_append_drop n (longestRun events expected), List.map_append, isRun_append,
    List.length_map, List.length_take, Nat.min_eq_left hn] at hsplit
  have hlength : (longestRun events (expected + n)).length
      = ((longestRun events expected).drop n).length := by
    refine hrest.greatest.unique ⟨?_, ?_⟩
    · intro i hi
      rw [List.length_drop] at hi
      have hseq := hrun.greatest.1 (n + i) (by omega)
      rwa [Nat.cast_add, ← add_assoc] at hseq
    · intro m hm
      -- together with the numbers before it, such a run starts at `expected`
      have hle : n + m ≤ (longestRun events expected).length := by
        apply hrun.greatest.2
        intro i hi
        by_cases hin : i < n
        · exact hrun.greatest.1 i (by omega)
        · have hseq := hm (i - n) (by omega)
          rwa [add_assoc, ← Nat.cast_add, Nat.add_sub_cancel' (not_lt.mp hin)] at hseq
      rw [List.length_drop]
      omega
  have htake := eq_take_of_isRun hrest.isRun hrest.first hsplit.2
    (fun e he => hrun.first e (List.mem_of_mem_drop he)) hlength.le
  rw [htake, hlength, List.take_length]

theorem contiguousFrom_drop {events : List Event} (hsorted : SeqSorted events) (expected : ℤ)
    {n : ℕ} (hn : n ≤ (longestRun events expected).length) {limit : ℤ} (hlimit : 1 ≤ limit) :
    contiguousFrom events (expected + n) limit
      = ((longestRun events expected).drop n).take limit.toNat := by
  rw [contiguousFrom_eq_take hsorted _ hlimit, longestRun_add events expected hn]

/-- **Calls with any limits concatenate to the longest run**, as far as the limits reach. -/
theorem flatten_successive {events : List Event} (hsorted : SeqSorted events) {limits : List ℤ}
    (hlimits : ∀ limit ∈ limits, 1 ≤ limit) :
    ∀ expected : ℤ, (successive events expected limits).flatten
      = (longestRun events expected).take (limits.map Int.toNat).sum := by
  induction limits with
  | nil => simp [successive]
  | cons limit limits ih =>
    intro expected
    have htake := contiguousFrom_eq_take hsorted expected (hlimits limit List.mem_cons_self)
    have hlength : (contiguousFrom events expected limit).length
        ≤ (longestRun events expected).length := by
      rw [htake]
      exact List.length_take_le' _ _
    have hrest := ih (fun x hx => hlimits x (List.mem_cons_of_mem limit hx))
      (expected + (contiguousFrom events expected limit).length)
    have hdrop : (longestRun events expected).drop (contiguousFrom events expected limit).length
        = (longestRun events expected).drop limit.toNat := by
      rw [htake, List.length_take, List.drop_eq_drop_iff]
      omega
    rw [longestRun_add events expected hlength, hdrop] at hrest
    rw [successive, List.flatten_cons, List.map_cons, List.sum_cons, List.take_add, hrest, htake]

theorem length_le_sum_toNat {limits : List ℤ} (h : ∀ limit ∈ limits, 1 ≤ limit) :
    limits.length ≤ (limits.map Int.toNat).sum := by
  induction limits with
  | nil => simp
  | cons limit limits ih =>
    have hhead := h limit List.mem_cons_self
    have hrest := ih fun x hx => h x (List.mem_cons_of_mem limit hx)
    simp only [List.length_cons, List.map_cons, List.sum_cons]
    omega

/-- **Reading an unbroken run in parts.**  A call gives the events numbered from `expected` on,
each the first of its number, as many as the limit and the longest run allow; the next call gives
the next part; and all calls together give the longest run, whatever the limits. -/
theorem contiguousFrom_in_parts {events : List Event} (hsorted : SeqSorted events) (expected : ℤ)
    {limit next : ℤ} (hlimit : 1 ≤ limit) (hnext : 1 ≤ next) {limits : List ℤ}
    (hlimits : ∀ limit ∈ limits, 1 ≤ limit) :
    let run := longestRun events expected
    let taken := contiguousFrom events expected limit
    IsLongestRun events expected run
      ∧ ((taken.length : ℤ) = min limit run.length
        ∧ IsRun expected (taken.map Event.seq)
        ∧ ∀ e ∈ taken, events.find? (fun x => x.seq = e.seq) = some e)
      ∧ contiguousFrom events (expected + taken.length) next
          = (run.drop taken.length).take next.toNat
      ∧ (successive events expected limits).flatten = run.take (limits.map Int.toNat).sum
      ∧ (run.length ≤ limits.length → (successive events expected limits).flatten = run) := by
  intro run taken
  have hrun : IsLongestRun events expected run := longestRun_spec events expected
  have htaken : Contiguous events expected limit taken :=
    contiguousFrom_spec hsorted expected hlimit
  have hlength : (taken.length : ℤ) = min limit run.length := htaken.length_eq hrun
  have hflatten : (successive events expected limits).flatten
      = run.take (limits.map Int.toNat).sum := flatten_successive hsorted hlimits expected
  refine ⟨hrun, ⟨hlength, htaken.isRun, htaken.first⟩, ?_, hflatten, fun hle => ?_⟩
  · have hle : taken.length ≤ run.length := by omega
    exact contiguousFrom_drop hsorted expected hle hnext
  · have hsum := length_le_sum_toNat hlimits
    rw [hflatten, List.take_of_length_le (by omega)]

theorem contiguousFrom_in_parts_two :
    (successive [heartbeat 2, heartbeat 2, heartbeat 3, heartbeat 5] 2 [1, 4]).flatten
      = longestRun [heartbeat 2, heartbeat 2, heartbeat 3, heartbeat 5] 2 :=
  (@contiguousFrom_in_parts [heartbeat 2, heartbeat 2, heartbeat 3, heartbeat 5]
    (by simp [SeqSorted, heartbeat]) 2 1 4 (by decide) (by decide) [1, 4] (by decide)).2.2.2.2
    (by decide)

end TaskflowMeter
