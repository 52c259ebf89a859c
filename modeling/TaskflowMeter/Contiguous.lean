import TaskflowMeter.Fold

/-!
# The unbroken run of events from a number on

What `contiguousFrom` takes out of a list that is sorted by number: the events
numbered `expected`, `expected + 1`, …, each the first of its number, until the
limit is reached or a number is missing.

## Main definitions

* `SeqSorted` — events in sequence order, repeated numbers allowed.
* `Contiguous` — what is taken, as a relation.
* `Numbered` — the events `1, …, n` of one run, in some order.

## Main results

* `contiguousFrom_spec` — **`contiguousFrom` takes the unbroken run.**
* `Contiguous.mem_seq_iff` — the numbers it takes.
* `contiguousFrom_filter`, `contiguousFrom_take` — events below `expected`, and events
  too far up to be reached, may be left out beforehand.
-/

namespace TaskflowMeter

open Consecutive

/-- Events in sequence order. -/
def SeqSorted (events : List Event) : Prop := events.Pairwise fun a b => a.seq ≤ b.seq

/-- Events in sequence order, no number repeated. -/
def SeqStrict (events : List Event) : Prop := events.Pairwise fun a b => a.seq < b.seq

/-- Some event of the list has the number `m`. -/
def HasSeq (events : List Event) (m : ℤ) : Prop := ∃ e ∈ events, e.seq = m

/-- What is taken of `events` from `expected` on: a run of at most `limit` numbers,
each event the first of its number, which ends only at the limit or at a number
that is missing. -/
structure Contiguous (events : List Event) (expected limit : ℤ) (taken : List Event) : Prop where
  isRun : IsRun expected (taken.map Event.seq)
  first : ∀ e ∈ taken, events.find? (fun x => x.seq = e.seq) = some e
  length_le : taken.length ≤ limit
  full : taken.length = limit ∨ ¬HasSeq events (expected + taken.length)

theorem Contiguous.mem {events taken : List Event} {expected limit : ℤ}
    (h : Contiguous events expected limit taken) {e : Event} (he : e ∈ taken) : e ∈ events :=
  List.mem_of_find?_eq_some (h.first e he)

theorem Contiguous.le_seq {events taken : List Event} {expected limit : ℤ}
    (h : Contiguous events expected limit taken) {e : Event} (he : e ∈ taken) :
    expected ≤ e.seq :=
  ((mem_iff h.isRun e.seq).mp (List.mem_map_of_mem he)).1

/-- An event below the run does not matter to it. -/
theorem Contiguous.cons_of_lt {events taken : List Event} {expected limit : ℤ} {e : Event}
    (h : Contiguous events expected limit taken) (he : e.seq < expected) :
    Contiguous (e :: events) expected limit taken where
  isRun := h.isRun
  first := by
    intro x hx
    have hle : expected ≤ x.seq := h.le_seq hx
    rw [List.find?_cons_of_neg (by simp; omega)]
    exact h.first x hx
  length_le := h.length_le
  full := h.full.imp_right fun hnot ⟨x, hx, hseq⟩ => by
    rcases List.mem_cons.mp hx with rfl | hx
    · omega
    · exact hnot ⟨x, hx, hseq⟩

/-- The first event of the run, and the run from the next number on. -/
theorem Contiguous.cons_of_eq {events taken : List Event} {limit : ℤ} {e : Event}
    (h : Contiguous events (e.seq + 1) (limit - 1) taken) :
    Contiguous (e :: events) e.seq limit (e :: taken) where
  isRun := ⟨rfl, h.isRun⟩
  first := by
    intro x hx
    rcases List.mem_cons.mp hx with rfl | hx
    · rw [List.find?_cons_of_pos (by simp)]
    · have hle : e.seq + 1 ≤ x.seq := h.le_seq hx
      rw [List.find?_cons_of_neg (by simp; omega)]
      exact h.first x hx
  length_le := by
    have hlen := h.length_le
    rw [List.length_cons]
    push_cast
    omega
  full := by
    rw [List.length_cons]
    push_cast
    refine h.full.imp (fun heq => by omega) fun hnot ⟨x, hx, hseq⟩ => ?_
    rcases List.mem_cons.mp hx with rfl | hx
    · omega
    · exact hnot ⟨x, hx, by omega⟩

/-- **One pass of the loop**: what it appends to `taken` is the unbroken run. -/
theorem contiguousLoop_spec {events : List Event} (hsorted : SeqSorted events) (limit : ℤ) :
    ∀ (expected : ℤ) (taken : List Event), taken.length < limit →
      ∃ more, contiguousLoop limit events expected taken = taken ++ more
        ∧ Contiguous events expected (limit - taken.length) more := by
  induction events with
  | nil =>
    intro expected taken hlt
    refine ⟨[], (List.append_nil taken).symm, ⟨trivial, by simp, ?_, Or.inr ?_⟩⟩
    · simp only [List.length_nil, Nat.cast_zero]; omega
    · rintro ⟨e, he, -⟩; simp at he
  | cons e events ih =>
    intro expected taken hlt
    obtain ⟨hhead, htail⟩ := List.pairwise_cons.mp hsorted
    rw [contiguousLoop]
    split
    · -- already passed: skipped
      next hpassed =>
      obtain ⟨more, hmore, hcont⟩ := ih htail expected taken hlt
      exact ⟨more, hmore, hcont.cons_of_lt hpassed⟩
    · next hge =>
      split
      · -- a gap: everything from here on is held back
        next hgap =>
        refine ⟨[], (List.append_nil taken).symm, ⟨trivial, by simp, ?_, Or.inr ?_⟩⟩
        · simp only [List.length_nil, Nat.cast_zero]; omega
        · rintro ⟨x, hx, hseq⟩
          simp only [List.length_nil, Nat.cast_zero, add_zero] at hseq
          rcases List.mem_cons.mp hx with rfl | hx
          · exact hgap hseq
          · have := hhead x hx; omega
      · next heq =>
        obtain rfl : e.seq = expected := not_not.mp heq
        dsimp only
        rw [List.length_append, List.length_singleton]
        split
        · -- the limit is reached
          next hlimit =>
          refine ⟨[e], rfl, ⟨⟨rfl, trivial⟩, by simp, ?_, Or.inl ?_⟩⟩ <;>
            · simp only [List.length_singleton]; push_cast at hlimit ⊢; omega
        · next hroom =>
          obtain ⟨more, hmore, hcont⟩ := ih htail (e.seq + 1) (taken ++ [e])
            (by rw [List.length_append, List.length_singleton]; push_cast at hroom ⊢; omega)
          refine ⟨e :: more, by rw [hmore, List.append_assoc]; rfl, Contiguous.cons_of_eq ?_⟩
          rw [List.length_append, List.length_singleton] at hcont
          push_cast at hcont
          rwa [sub_sub]

/-- **`contiguousFrom` takes the unbroken run of events starting at `expected`.** -/
theorem contiguousFrom_spec {events : List Event} (hsorted : SeqSorted events) (expected : ℤ)
    {limit : ℤ} (hlimit : 1 ≤ limit) :
    Contiguous events expected limit (contiguousFrom events expected limit) := by
  obtain ⟨more, hmore, hcont⟩ := contiguousLoop_spec hsorted limit expected []
    (by simp only [List.length_nil, Nat.cast_zero]; omega)
  rw [contiguousFrom, hmore, List.nil_append]
  simpa using hcont

/-- The numbers that are taken: those the run reaches, as far as the limit lets it. -/
theorem Contiguous.mem_seq_iff {events taken : List Event} {expected limit : ℤ}
    (h : Contiguous events expected limit taken) (m : ℤ) :
    HasSeq taken m ↔ Unbroken {k | HasSeq events k} expected m ∧ m < expected + limit := by
  have hmem : HasSeq taken m ↔ m ∈ taken.map Event.seq := by simp [HasSeq]
  have hlen := h.length_le
  rw [hmem, mem_iff h.isRun, List.length_map]
  constructor
  · rintro ⟨hle, hlt⟩
    refine ⟨⟨hle, fun k hk hkm => ?_⟩, by omega⟩
    have hk' : k ∈ taken.map Event.seq := by
      rw [mem_iff h.isRun, List.length_map]
      omega
    obtain ⟨e, he, rfl⟩ := List.mem_map.mp hk'
    exact ⟨e, h.mem he, rfl⟩
  · rintro ⟨⟨hle, hall⟩, hlt⟩
    refine ⟨hle, ?_⟩
    by_contra hge
    rcases h.full with hfull | hmissing
    · omega
    · exact hmissing (hall _ (by omega) (by omega))

/-- Nothing is taken exactly when the expected number is missing. -/
theorem Contiguous.eq_nil_iff {events taken : List Event} {expected limit : ℤ}
    (h : Contiguous events expected limit taken) (hlimit : 1 ≤ limit) :
    taken = [] ↔ ¬HasSeq events expected := by
  constructor
  · rintro rfl
    rcases h.full with hfull | hmissing
    · simp only [List.length_nil, Nat.cast_zero] at hfull; omega
    · simpa using hmissing
  · intro hnot
    by_contra hne
    obtain ⟨e, l, rfl⟩ := List.exists_cons_of_ne_nil hne
    exact hnot ⟨e, h.mem List.mem_cons_self, h.isRun.1⟩

/-! ### What the list may leave out -/

/-- Events below the expected number may be left out. -/
theorem contiguousLoop_filter {p : Event → Bool} (limit : ℤ) (events : List Event) :
    ∀ (expected : ℤ) (taken : List Event), (∀ e ∈ events, p e = false → e.seq < expected) →
      contiguousLoop limit (events.filter p) expected taken
        = contiguousLoop limit events expected taken := by
  induction events with
  | nil => intros; rfl
  | cons e events ih =>
    intro expected taken hp
    have hp' : ∀ x ∈ events, p x = false → x.seq < expected := fun x hx =>
      hp x (List.mem_cons_of_mem e hx)
    rw [List.filter_cons]
    cases hpe : p e with
    | true =>
      rw [if_pos rfl]
      simp only [contiguousLoop]
      rw [ih expected taken hp', ih (expected + 1) (taken ++ [e]) fun x hx hpx => by
        have := hp' x hx hpx; omega]
    | false =>
      have hlt : e.seq < expected := hp e List.mem_cons_self hpe
      rw [if_neg (by simp), contiguousLoop, if_pos hlt]
      exact ih expected taken hp'

theorem contiguousFrom_filter {p : Event → Bool} {events : List Event} {expected limit : ℤ}
    (hp : ∀ e ∈ events, p e = false → e.seq < expected) :
    contiguousFrom (events.filter p) expected limit = contiguousFrom events expected limit :=
  contiguousLoop_filter limit events expected [] hp

/-- So may events beyond the first `limit` ones, if no number is repeated and none is
below the expected one. -/
theorem contiguousLoop_take (limit : ℤ) {events : List Event} (hstrict : SeqStrict events) :
    ∀ (n : ℕ) (expected : ℤ) (taken : List Event), (∀ e ∈ events, expected ≤ e.seq) →
      taken.length < limit → limit ≤ taken.length + n →
      contiguousLoop limit (events.take n) expected taken
        = contiguousLoop limit events expected taken := by
  induction events with
  | nil => intros; rw [List.take_nil]
  | cons e events ih =>
    intro n expected taken hge hlt hn
    obtain ⟨hhead, htail⟩ := List.pairwise_cons.mp hstrict
    obtain ⟨n, rfl⟩ : ∃ k, n = k + 1 := ⟨n - 1, by omega⟩
    have hle : expected ≤ e.seq := hge e List.mem_cons_self
    have hlen : ((taken ++ [e]).length : ℤ) = taken.length + 1 := by simp
    rw [List.take_succ_cons]
    simp only [contiguousLoop, if_neg (not_lt.mpr hle), hlen]
    by_cases heq : e.seq = expected
    · by_cases hroom : limit ≤ taken.length + 1
      -- with the limit reached, nothing after `e` matters
      · simp only [if_pos hroom]
      · have hnext := ih htail n (expected + 1) (taken ++ [e])
          (fun x hx => by have := hhead x hx; omega) (by omega) (by push_cast at hn; omega)
        simp only [if_neg hroom, hnext]
    · simp only [if_pos heq]

theorem contiguousFrom_take {events : List Event} (hstrict : SeqStrict events) {expected limit : ℤ}
    (hge : ∀ e ∈ events, expected ≤ e.seq) (hlimit : 1 ≤ limit) :
    contiguousFrom (events.take limit.toNat) expected limit
      = contiguousFrom events expected limit :=
  contiguousLoop_take limit hstrict limit.toNat expected [] hge
    (by simp only [List.length_nil, Nat.cast_zero]; omega)
    (by simp only [List.length_nil, Nat.cast_zero]; omega)

/-! ### The events of a run -/

/-- The events `1, …, n` of a run, in some order. -/
structure Numbered (runId : String) (n : ℕ) (events : List Event) : Prop where
  ofRun : ∀ e ∈ events, e.runId = runId
  perm : (events.map Event.seq).Perm ((List.range n).map fun i : ℕ => (i : ℤ) + 1)

namespace Numbered

variable {runId : String} {n : ℕ} {events : List Event}

theorem hasSeq_iff (h : Numbered runId n events) (m : ℤ) : HasSeq events m ↔ 1 ≤ m ∧ m ≤ n := by
  have hmem : HasSeq events m ↔ m ∈ events.map Event.seq := by simp [HasSeq]
  rw [hmem, h.perm.mem_iff, List.mem_map]
  constructor
  · rintro ⟨i, hi, rfl⟩
    rw [List.mem_range] at hi
    omega
  · rintro ⟨hpos, hle⟩
    exact ⟨(m - 1).toNat, List.mem_range.mpr (by omega), by omega⟩

theorem nodup (h : Numbered runId n events) : (events.map Event.seq).Nodup := by
  rw [h.perm.nodup_iff]
  refine List.nodup_range.map ?_
  intro i j hij
  simpa using hij

theorem filter_eq (h : Numbered runId n events) : events.filter (·.runId = runId) = events := by
  rw [List.filter_eq_self]
  intro e he
  exact decide_eq_true (h.ofRun e he)

/-- An event is determined by its number. -/
theorem eq_of_seq (h : Numbered runId n events) {a b : Event} (ha : a ∈ events) (hb : b ∈ events)
    (hseq : a.seq = b.seq) : a = b :=
  List.inj_on_of_nodup_map h.nodup ha hb hseq

end Numbered

/-- The same events in another order. -/
theorem numbered_of_isRun {runId : String} {events : List Event}
    (h : IsRun 1 ((ofRun runId events).map Event.seq)) {events' : List Event}
    (hperm : (ofRun runId events).Perm events') :
    Numbered runId (ofRun runId events).length events' where
  ofRun := fun e he => of_decide_eq_true (List.mem_filter.mp (hperm.mem_iff.mpr he)).2
  perm := by
    have heq := eq_map_range h
    rw [List.length_map] at heq
    refine (hperm.map Event.seq).symm.trans (List.Perm.of_eq (heq.trans ?_))
    exact List.map_congr_left fun i _ => add_comm _ _

end TaskflowMeter
