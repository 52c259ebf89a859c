import TaskflowMeter.Datasource.Persistence
import TaskflowMeter.Walk

/-!
# Walking a listing that is scanned anew for each page

The order of a page of the persistence datasource is that of the clock readings made for
it: flows scanned later come first, and flows scanned at one instant by run id.  The next
page interprets the marker in an order of its own.

## Main definitions

* `PersistenceDataSource.walk` — a walk, as the poller makes it.
* `PersistenceDataSource.WalkReturnsEach` — it ends, and returns every matching flow once.
* `PersistenceDataSource.Separated` — in a page's order, a flow stands between those
  scanned after it and those scanned before it.
* `PersistenceDataSource.SortedAtBoundaries` — so do the run ids at every page boundary.

## Main results

* `walkReturnsEach_of_separated` — a walk whose pages agree about their boundaries.
* `walkReturnsEach_of_strictMono` — a clock that never repeats a reading is harmless.
* `walkReturnsEach_iff` — **every clock is harmless exactly when the run ids are in
  order, against the scan, at every page boundary.**
-/

namespace TaskflowMeter

open Paging

namespace PersistenceDataSource

/-- A walk over the pages of a listing.  Each page reads the clock once for every flow
detail there is. -/
def walk (source : PersistenceDataSource) (clock : ℕ → ℚ) (filter : FlowFilter) (limit : ℤ) :
    ℕ → Walk :=
  walkPages fun page => source.listFlows clock (page * source.details.length) filter limit

/-- A flow detail, as a page shows it. -/
def shown (source : PersistenceDataSource) (clock : ℕ → ℚ) (page : ℕ)
    (p : (LogBook × FlowDetail) × ℕ) : FlowSnapshot :=
  shownAt p.1 (clock (page * source.details.length + p.2))

/-- A walk ends, and has returned every matching flow exactly once. -/
def WalkReturnsEach (source : PersistenceDataSource) (filter : FlowFilter) (limit : ℤ)
    (clock : ℕ → ℚ) : Prop :=
  ∃ n, (source.walk clock filter limit n).status = .finished
    ∧ ((source.walk clock filter limit n).flows.map (·.runId)).Perm
        ((source.matched filter).map idOf)

/-- In the order of a page, the first of `R` stands between the others, which were scanned
after it, and `A`, which was scanned before it. -/
def Separated (source : PersistenceDataSource) (clock : ℕ → ℚ) (page : ℕ)
    (A R : List ((LogBook × FlowDetail) × ℕ)) : Prop :=
  ∀ b B, R = b :: B →
    (∀ c ∈ B, listKey (source.shown clock page c) < listKey (source.shown clock page b))
      ∧ ∀ a ∈ A, listKey (source.shown clock page b) < listKey (source.shown clock page a)

/-- At every page boundary the run ids are in order, against the scan: that of the last
flow of the page is above those of all matching flows scanned after it, and below those of
all scanned before it. -/
def SortedAtBoundaries (source : PersistenceDataSource) (filter : FlowFilter) (limit : ℤ) : Prop :=
  ∀ A b B, source.matched filter = A ++ b :: B → A ≠ [] → limit.toNat ∣ B.length + 1 →
    (∀ c ∈ B, idOf c < idOf b) ∧ ∀ a ∈ A, idOf b < idOf a

variable {source : PersistenceDataSource} {clock : ℕ → ℚ} {filter : FlowFilter} {limit : ℤ}

theorem listFlows_eq (hlimit : 1 ≤ limit) (page : ℕ) (marker : Option String) :
    source.listFlows clock (page * source.details.length) filter limit marker
      = listPage (sortFlows ((source.matched filter).map (source.shown clock page)))
          limit.toNat marker := by
  rw [listFlows, if_neg (not_lt.mpr hlimit), scan_filter]
  rfl

/-- A page shows every flow detail under its own id. -/
theorem map_runId_shown (page : ℕ) (l : List ((LogBook × FlowDetail) × ℕ)) :
    (l.map (source.shown clock page)).map (·.runId) = l.map idOf := by
  rw [List.map_map]
  rfl

theorem perm_runId_sortFlows_shown (page : ℕ) (l : List ((LogBook × FlowDetail) × ℕ)) :
    ((sortFlows (l.map (source.shown clock page))).map (·.runId)).Perm (l.map idOf) :=
  ((perm_sortFlows _).map _).trans (List.Perm.of_eq (map_runId_shown page l))

theorem nodup_shown (page : ℕ) :
    (((source.matched filter).map (source.shown clock page)).map (·.runId)).Nodup := by
  rw [map_runId_shown]
  exact source.nodup_matched filter

/-- Where a walk is before a page: it has been given `R`, which was scanned last, and `A`
is left. -/
structure Reached (source : PersistenceDataSource) (clock : ℕ → ℚ) (filter : FlowFilter)
    (limit : ℤ) (page : ℕ) (A R : List ((LogBook × FlowDetail) × ℕ)) : Prop where
  matched_eq : source.matched filter = A ++ R
  length_eq : R.length = page * limit.toNat
  status_eq : (source.walk clock filter limit page).status = .walking
  marker_eq : (source.walk clock filter limit page).marker = R.head?.map idOf
  perm_flows : ((source.walk clock filter limit page).flows.map (·.runId)).Perm (R.map idOf)

variable {page : ℕ} {A R : List ((LogBook × FlowDetail) × ℕ)}

/-- A page in which a flow stands between two groups, once it is sorted. -/
theorem sortFlows_separated {b : (LogBook × FlowDetail) × ℕ}
    {B : List ((LogBook × FlowDetail) × ℕ)} (hsep : source.Separated clock page A (b :: B))
    (hnodup : (((A ++ b :: B).map (source.shown clock page)).map (·.runId)).Nodup) :
    sortFlows ((A ++ b :: B).map (source.shown clock page))
      = sortFlows (B.map (source.shown clock page))
        ++ source.shown clock page b :: sortFlows (A.map (source.shown clock page)) := by
  obtain ⟨hbelow, habove⟩ := hsep b B rfl
  rw [List.map_append, List.map_cons] at hnodup ⊢
  refine insertionSort_append_cons (nodup_listKey hnodup) ?_ ?_
  · intro f hf
    obtain ⟨c, hc, rfl⟩ := List.mem_map.mp hf
    exact hbelow c hc
  · intro f hf
    obtain ⟨a, ha, rfl⟩ := List.mem_map.mp hf
    exact habove a ha

/-- A page that agrees about where the walk is lists what is left. -/
theorem Reached.listFlows_eq_ok (h : source.Reached clock filter limit page A R)
    (hlimit : 1 ≤ limit)
    (hsep : source.Separated clock page A R) :
    source.listFlows clock (page * source.details.length) filter limit
        (source.walk clock filter limit page).marker
      = .ok (pageOf limit.toNat (sortFlows (A.map (source.shown clock page)))) := by
  have hnodup : (((source.matched filter).map (source.shown clock page)).map (·.runId)).Nodup :=
    nodup_shown page
  rw [listFlows_eq hlimit, h.marker_eq]
  cases R with
  | nil =>
    have hA : source.matched filter = A := by rw [h.matched_eq, List.append_nil]
    rw [hA]
    exact listPage_none _ _
  | cons b B =>
    have hmem : source.shown clock page b
        ∈ sortFlows ((source.matched filter).map (source.shown clock page)) := by
      rw [mem_sortFlows, h.matched_eq]
      exact List.mem_map_of_mem (List.mem_append_right A List.mem_cons_self)
    have hsorted := sortedBy_sortFlows hnodup
    have hnodup' : ((sortFlows ((source.matched filter).map
        (source.shown clock page))).map (·.runId)).Nodup :=
      ((perm_sortFlows _).map _).nodup_iff.mpr hnodup
    refine (listPage_some hsorted hnodup' _ hmem).trans ?_
    rw [h.matched_eq] at hnodup hsorted ⊢
    rw [sortFlows_separated hsep hnodup] at hsorted ⊢
    rw [after_append_cons hsorted]

/-- **One page** that is not the last takes the next of what is left, from the end of the
scan. -/
theorem Reached.next (h : source.Reached clock filter limit page A R) (hlimit : 1 ≤ limit)
    (hsep : source.Separated clock page A R) {A' R' : List ((LogBook × FlowDetail) × ℕ)}
    (hA : A = A' ++ R') (hne : A' ≠ []) (hlen : R'.length = limit.toNat)
    (hsep' : source.Separated clock page A' (R' ++ R)) :
    source.Reached clock filter limit (page + 1) A' (R' ++ R) := by
  have hpos : 1 ≤ limit.toNat := by omega
  obtain ⟨b, B, rfl⟩ := List.exists_cons_of_length_pos (hpos.trans_eq hlen.symm)
  have hsep'' : source.Separated clock page A' (b :: B) := by
    intro b' B' heq
    obtain ⟨rfl, rfl⟩ := List.cons.inj heq
    obtain ⟨hbelow, habove⟩ := hsep' b (B ++ R) rfl
    exact ⟨fun c hc => hbelow c (List.mem_append_left R hc), habove⟩
  have hnodup : (((A' ++ b :: B).map (source.shown clock page)).map (·.runId)).Nodup := by
    have hall : (((source.matched filter).map (source.shown clock page)).map (·.runId)).Nodup :=
      nodup_shown page
    rw [h.matched_eq, hA] at hall
    exact hall.sublist (((List.sublist_append_left _ R).map _).map _)
  have hsort := sortFlows_separated hsep'' hnodup
  have htake : (sortFlows ((A' ++ b :: B).map (source.shown clock page))).take limit.toNat
      = sortFlows (B.map (source.shown clock page)) ++ [source.shown clock page b] := by
    have hfront : (sortFlows (B.map (source.shown clock page))
        ++ [source.shown clock page b]).length = limit.toNat := by
      rw [List.length_append, (perm_sortFlows _).length_eq, List.length_map, ← hlen]
      rfl
    rw [hsort, List.append_cons, List.take_left' hfront]
  have hmore : limit.toNat < (sortFlows ((A' ++ b :: B).map (source.shown clock page))).length := by
    have hA' := List.length_pos_of_ne_nil hne
    rw [(perm_sortFlows _).length_eq, List.length_map, List.length_append, hlen]
    omega
  obtain ⟨c, hc, hpage⟩ := pageOf_of_lt hpos hmore
  rw [htake, List.getLast?_concat] at hc
  obtain rfl := Option.some.inj hc
  have hturn := Walk.turn_of_ok h.status_eq (h.listFlows_eq_ok hlimit hsep)
  rw [hA, hpage, htake] at hturn
  have hwalk : source.walk clock filter limit (page + 1) = _ := hturn
  refine ⟨?_, ?_, ?_, ?_, ?_⟩
  · rw [h.matched_eq, hA, List.append_assoc]
  · rw [List.length_append, hlen, h.length_eq, Nat.succ_mul, Nat.add_comm]
  · rw [hwalk]
    rfl
  · rw [hwalk]
    rfl
  · have hB : ((sortFlows (B.map (source.shown clock page))).map (·.runId)).Perm (B.map idOf) :=
      perm_runId_sortFlows_shown page B
    rw [hwalk, List.map_append, List.map_append, List.map_append]
    refine List.perm_append_comm.trans (List.Perm.append ?_ h.perm_flows)
    exact (hB.append_right [idOf b]).trans (List.perm_append_singleton (idOf b) (B.map idOf))

/-- **The last page** takes all that is left. -/
theorem Reached.last (h : source.Reached clock filter limit page A R) (hlimit : 1 ≤ limit)
    (hsep : source.Separated clock page A R) (hlen : A.length ≤ limit.toNat) :
    source.WalkReturnsEach filter limit clock := by
  have hturn := Walk.turn_of_ok h.status_eq (h.listFlows_eq_ok hlimit hsep)
  rw [pageOf_of_le ((perm_sortFlows _).length_eq.trans_le ((List.length_map _).trans_le hlen))]
    at hturn
  have hwalk : source.walk clock filter limit (page + 1) = _ := hturn
  refine ⟨page + 1, ?_, ?_⟩
  · rw [hwalk]
    rfl
  · rw [hwalk, h.matched_eq, List.map_append, List.map_append]
    exact (h.perm_flows.append (perm_runId_sortFlows_shown page A)).trans List.perm_append_comm

/-! ### Walks whose pages agree -/

theorem separated_nil (page : ℕ) (A : List ((LogBook × FlowDetail) × ℕ)) :
    source.Separated clock page A [] := by
  intro b B h
  simp at h

theorem reached_zero : source.Reached clock filter limit 0 (source.matched filter) [] where
  matched_eq := (List.append_nil _).symm
  length_eq := by simp
  status_eq := rfl
  marker_eq := rfl
  perm_flows := List.Perm.refl _

/-- As long as the pages agree about their boundaries, a walk takes the flows page by page
from the end of the scan. -/
theorem reached_of_separated (hlimit : 1 ≤ limit) {k : ℕ}
    (hsep : ∀ j < k, ∀ A R, source.matched filter = A ++ R → A ≠ [] → limit.toNat ∣ R.length →
      source.Separated clock j A R)
    (hsplit : source.matched filter = A ++ R) (hne : A ≠ []) (hlen : R.length = k * limit.toNat) :
    source.Reached clock filter limit k A R := by
  induction k generalizing A R with
  | zero =>
    rw [Nat.zero_mul, List.length_eq_zero_iff] at hlen
    rw [hlen, List.append_nil] at hsplit
    rw [hlen, ← hsplit]
    exact reached_zero
  | succ k ih =>
    have hR : R = R.take limit.toNat ++ R.drop limit.toNat := (List.take_append_drop _ R).symm
    have hdrop : (R.drop limit.toNat).length = k * limit.toNat := by
      rw [List.length_drop, hlen, Nat.succ_mul, Nat.add_sub_cancel]
    have htake : (R.take limit.toNat).length = limit.toNat := by
      rw [List.length_take, hlen, Nat.succ_mul, min_eq_left (Nat.le_add_left _ _)]
    have hsplit' : source.matched filter = A ++ R.take limit.toNat ++ R.drop limit.toNat := by
      rw [List.append_assoc, ← hR, hsplit]
    have hne' : A ++ R.take limit.toNat ≠ [] := List.append_ne_nil_of_left_ne_nil hne _
    have hprev := ih (fun j hj => hsep j (Nat.lt_succ_of_lt hj)) hsplit' hne' hdrop
    have hseparated :=
      hsep k (Nat.lt_succ_self k) A R hsplit hne ⟨k + 1, by rw [hlen, Nat.mul_comm]⟩
    have hnext := hprev.next hlimit
      (hsep k (Nat.lt_succ_self k) _ _ hsplit' hne' ⟨k, by rw [hdrop, Nat.mul_comm]⟩) rfl hne htake
      (by rw [← hR]; exact hseparated)
    rwa [← hR] at hnext

/-- **A walk whose pages agree about their boundaries** returns every matching flow once. -/
theorem walkReturnsEach_of_separated (hlimit : 1 ≤ limit)
    (hsep : ∀ j A R, source.matched filter = A ++ R → A ≠ [] → limit.toNat ∣ R.length →
      source.Separated clock j A R) : source.WalkReturnsEach filter limit clock := by
  have hpos : 0 < limit.toNat := by omega
  rcases List.eq_nil_or_concat' (source.matched filter) with hnil | hcons
  · have hzero : source.Reached clock filter limit 0 (source.matched filter) [] := reached_zero
    exact hzero.last hlimit (separated_nil 0 _) (by rw [hnil]; exact Nat.zero_le _)
  · -- the number of full pages before the last one
    have hlen : 0 < (source.matched filter).length := by
      obtain ⟨l, p, hl⟩ := hcons
      rw [hl, List.length_append]
      exact Nat.succ_pos _
    set m := (source.matched filter).length with hm
    set k := (m - 1) / limit.toNat with hk
    have hle : k * limit.toNat ≤ m - 1 := Nat.div_mul_le_self _ _
    have hlt : m - 1 < k * limit.toNat + limit.toNat := Nat.lt_div_mul_add hpos
    have hsplit : source.matched filter = (source.matched filter).take (m - k * limit.toNat)
        ++ (source.matched filter).drop (m - k * limit.toNat) := (List.take_append_drop _ _).symm
    have htake : ((source.matched filter).take (m - k * limit.toNat)).length
        = m - k * limit.toNat := by
      rw [List.length_take, ← hm]
      omega
    have hdrop : ((source.matched filter).drop (m - k * limit.toNat)).length
        = k * limit.toNat := by
      rw [List.length_drop, ← hm]
      omega
    have hne : (source.matched filter).take (m - k * limit.toNat) ≠ [] := by
      rw [← List.length_pos_iff, htake]
      omega
    have hreached := reached_of_separated hlimit (fun j _ => hsep j) hsplit hne hdrop
    exact hreached.last hlimit
      (hsep k _ _ hsplit hne ⟨k, by rw [hdrop, Nat.mul_comm]⟩) (by rw [htake]; omega)

/-- A page in which a flow scanned later comes before one scanned earlier, as long as it
does so for those of the boundary. -/
theorem separated_of_split {b : (LogBook × FlowDetail) × ℕ} {B : List ((LogBook × FlowDetail) × ℕ)}
    (hsplit : source.matched filter = A ++ b :: B)
    (hbelow : ∀ c ∈ B, b.2 < c.2 →
      listKey (source.shown clock page c) < listKey (source.shown clock page b))
    (habove : ∀ a ∈ A, a.2 < b.2 →
      listKey (source.shown clock page b) < listKey (source.shown clock page a)) :
    source.Separated clock page A (b :: B) := by
  have hpos := source.pairwise_matched filter
  rw [hsplit] at hpos
  obtain ⟨-, hright, hcross⟩ := List.pairwise_append.mp hpos
  intro b' B' heq
  obtain ⟨rfl, rfl⟩ := List.cons.inj heq
  exact ⟨fun c hc => hbelow c hc ((List.pairwise_cons.mp hright).1 c hc),
    fun a ha => habove a ha (hcross a ha b List.mem_cons_self)⟩

/-- Flows whose run ids are in order against the scan are listed in that order, whatever
the clock says. -/
theorem separated_of_sorted (hclock : Monotone clock) {b : (LogBook × FlowDetail) × ℕ}
    {B : List ((LogBook × FlowDetail) × ℕ)} (hsplit : source.matched filter = A ++ b :: B)
    (hbelow : ∀ c ∈ B, idOf c < idOf b) (habove : ∀ a ∈ A, idOf b < idOf a) (page : ℕ) :
    source.Separated clock page A (b :: B) := by
  have hkey : ∀ p q : (LogBook × FlowDetail) × ℕ, idOf p < idOf q → q.2 < p.2 →
      listKey (source.shown clock page p) < listKey (source.shown clock page q) := by
    intro p q hid hlt
    have hle : clock (page * source.details.length + q.2)
        ≤ clock (page * source.details.length + p.2) := hclock (by omega)
    rw [listKey_lt_iff]
    rcases hle.lt_or_eq with hlt | heq
    · exact Or.inl hlt
    · exact Or.inr ⟨heq.symm, hid⟩
  exact separated_of_split hsplit (fun c hc => hkey c b (hbelow c hc))
    fun a ha => hkey b a (habove a ha)

/-- As long as no reading is repeated, flows are listed in the order opposite to the scan. -/
theorem separated_of_strictMonoOn {k : ℕ}
    (hclock : StrictMonoOn clock (Set.Iio (k * source.details.length))) (hpage : page < k)
    (hsplit : source.matched filter = A ++ R) : source.Separated clock page A R := by
  have hbound : ∀ p ∈ source.matched filter,
      page * source.details.length + p.2 < k * source.details.length := by
    intro p hp
    have hmul := Nat.mul_le_mul_right source.details.length hpage
    have hlast := snd_lt_of_mem_matched hp
    rw [Nat.succ_mul] at hmul
    omega
  have hkey : ∀ p ∈ source.matched filter, ∀ q ∈ source.matched filter, q.2 < p.2 →
      listKey (source.shown clock page p) < listKey (source.shown clock page q) := by
    intro p hp q hq hlt
    exact listKey_lt_iff.mpr (Or.inl (hclock (hbound q hq) (hbound p hp) (by omega)))
  cases R with
  | nil => exact separated_nil page A
  | cons b B =>
    have hb : b ∈ source.matched filter := by
      rw [hsplit]
      exact List.mem_append_right A List.mem_cons_self
    refine separated_of_split hsplit (fun c hc => hkey c ?_ b hb) fun a ha => hkey b hb a ?_
    · rw [hsplit]
      exact List.mem_append_right A (List.mem_cons_of_mem b hc)
    · rw [hsplit]
      exact List.mem_append_left _ ha

/-- A clock that never repeats a reading is harmless. -/
theorem walkReturnsEach_of_strictMono (hlimit : 1 ≤ limit) (hclock : StrictMono clock) :
    source.WalkReturnsEach filter limit clock :=
  walkReturnsEach_of_separated hlimit fun j _ _ hsplit _ _ =>
    separated_of_strictMonoOn (k := j + 1) (hclock.strictMonoOn _) (Nat.lt_succ_self j) hsplit

/-! ### Every clock -/

/-- A clock that goes on until `k` readings, and then stands still. -/
def stopsAt (k t : ℕ) : ℚ := (min t k : ℕ)

theorem monotone_stopsAt (k : ℕ) : Monotone (stopsAt k) := by
  intro s t h
  exact Nat.cast_le.mpr (min_le_min_right k h)

theorem strictMonoOn_stopsAt (k : ℕ) : StrictMonoOn (stopsAt k) (Set.Iio k) := by
  intro s hs t ht hlt
  rw [Set.mem_Iio] at hs ht
  rw [stopsAt, stopsAt, Nat.cast_lt]
  omega

/-- Once the clock stands still, every page shows the same. -/
theorem shown_stopsAt {k j : ℕ} (hle : k ≤ j) (p : (LogBook × FlowDetail) × ℕ) :
    source.shown (stopsAt (k * source.details.length)) j p
      = shownAt p.1 ((k * source.details.length : ℕ) : ℚ) := by
  have hmul := Nat.mul_le_mul_right source.details.length hle
  rw [shown, stopsAt, min_eq_right (by omega)]

/-- Over pages that all show the same a walk returns whatever has a run id above that of
its marker, and ends. -/
theorem walk_stopsAt (hlimit : 1 ≤ limit) {k : ℕ} {b : (LogBook × FlowDetail) × ℕ}
    {B : List ((LogBook × FlowDetail) × ℕ)}
    (h : source.Reached (stopsAt (k * source.details.length)) filter limit k A (b :: B)) :
    ∃ n rest, source.walk (stopsAt (k * source.details.length)) filter limit n
        = { flows := (source.walk (stopsAt (k * source.details.length)) filter limit k).flows
          ++ rest
            status := .finished }
      ∧ ∀ r, r ∈ rest.map (·.runId) ↔ r ∈ (source.matched filter).map idOf ∧ idOf b < r := by
  have hpos : 1 ≤ limit.toNat := by omega
  set clock := stopsAt (k * source.details.length) with hclock
  set flows := sortFlows ((source.matched filter).map (source.shown clock k)) with hflows
  have hsame : ∀ j, k ≤ j → (source.matched filter).map (source.shown clock j)
      = (source.matched filter).map (source.shown clock k) := by
    intro j hj
    refine List.map_congr_left fun p _ => ?_
    rw [shown_stopsAt hj, shown_stopsAt le_rfl]
  have hsorted : SortedBy listKey flows := sortedBy_sortFlows (nodup_shown k)
  have hnodup : (flows.map (·.runId)).Nodup :=
    ((perm_sortFlows _).map _).nodup_iff.mpr (nodup_shown k)
  have hlists : ∀ j, k ≤ j → Lists
      (source.listFlows clock (j * source.details.length) filter limit) limit.toNat flows := by
    intro j hj
    refine ⟨?_, fun f hf => ?_⟩
    · rw [listFlows_eq hlimit, hsame j hj]
      exact listPage_none _ _
    · rw [listFlows_eq hlimit, hsame j hj]
      exact listPage_some hsorted hnodup _ hf
  have hb : source.shown clock k b ∈ flows := by
    rw [hflows, mem_sortFlows, h.matched_eq]
    exact List.mem_map_of_mem (List.mem_append_right A List.mem_cons_self)
  have hwalk : source.walk clock filter limit k
      = { marker := some (source.shown clock k b).runId
          flows := (source.walk clock filter limit k).flows } := by
    have hstatus := h.status_eq
    have hmarker := h.marker_eq
    cases hw : source.walk clock filter limit k with
    | mk marker returned status =>
      rw [hw] at hstatus hmarker
      dsimp only at hstatus hmarker
      rw [hstatus, hmarker]
      rfl
  obtain ⟨n, hn⟩ := walkPages_of_lists hpos hsorted hlists (Rest.afterFlow _ hb) hwalk
  refine ⟨n, _, hn, fun r => ?_⟩
  -- all flows show the same time, so that the keys are in the order of the run ids
  have hlt : ∀ p, listKey (source.shown clock k b) < listKey (source.shown clock k p)
      ↔ idOf b < idOf p := by
    intro p
    have htime : ∀ p, (source.shown clock k p).observedAt
        = ((k * source.details.length : ℕ) : ℚ) := by
      intro p
      rw [shown_stopsAt le_rfl]
      rfl
    rw [listKey_lt_iff, htime, htime]
    simp [idOf, shown, shownAt, flowSnapshot]
  constructor
  · intro hr
    obtain ⟨f, hf, rfl⟩ := List.mem_map.mp hr
    obtain ⟨hmem, hkey⟩ := mem_after.mp hf
    obtain ⟨p, hp, rfl⟩ := List.mem_map.mp (mem_sortFlows.mp hmem)
    exact ⟨List.mem_map_of_mem hp, (hlt p).mp hkey⟩
  · rintro ⟨hr, hid⟩
    obtain ⟨p, hp, rfl⟩ := List.mem_map.mp hr
    have hmem : source.shown clock k p ∈ flows := mem_sortFlows.mpr (List.mem_map_of_mem hp)
    exact List.mem_map_of_mem (f := (·.runId)) (mem_after.mpr ⟨hmem, (hlt p).mpr hid⟩)

/-- **Every clock is harmless exactly when the run ids are in order, against the scan, at
every page boundary.** -/
theorem walkReturnsEach_iff (source : PersistenceDataSource) (filter : FlowFilter) {limit : ℤ}
    (hlimit : 1 ≤ limit) :
    (∀ clock, Monotone clock → source.WalkReturnsEach filter limit clock)
      ↔ source.SortedAtBoundaries filter limit := by
  constructor
  · intro h A b B hsplit hne hdvd
    -- the clock goes on up to this boundary, and stands still from there
    obtain ⟨k, hk⟩ := hdvd
    have hreached : source.Reached (stopsAt (k * source.details.length)) filter limit k A
        (b :: B) :=
      reached_of_separated hlimit
        (fun j hj A R hAR _ _ => separated_of_strictMonoOn (strictMonoOn_stopsAt _) hj hAR) hsplit
        hne (by rw [List.length_cons, hk, Nat.mul_comm])
    obtain ⟨n, rest, hn, hrest⟩ := walk_stopsAt hlimit hreached
    obtain ⟨m, hstatus, hperm⟩ := h _ (monotone_stopsAt (k * source.details.length))
    have hended : (source.walk (stopsAt (k * source.details.length)) filter limit n).status
        = .finished := congrArg Walk.status hn
    have hsame : source.walk (stopsAt (k * source.details.length)) filter limit m
        = source.walk (stopsAt (k * source.details.length)) filter limit n :=
      walkPages_unique (hstatus.trans_ne (by decide)) (hended.trans_ne (by decide))
    -- so that what comes after `b` by run id is what was scanned before it
    have hleft : (rest.map (·.runId)).Perm (A.map idOf) := by
      rw [hsame, hn, List.map_append, hsplit, List.map_append] at hperm
      have hswap := hperm.trans (List.perm_append_comm.trans
        (hreached.perm_flows.symm.append_right (A.map idOf)))
      exact (List.perm_append_left_iff _).mp hswap
    have hmem : ∀ p ∈ source.matched filter, idOf p ∈ A.map idOf ↔ idOf b < idOf p := by
      intro p hp
      rw [← hleft.mem_iff, hrest, and_iff_right (List.mem_map_of_mem hp)]
    have hnodup := source.nodup_matched filter
    rw [hsplit, List.map_append, List.map_cons] at hnodup
    obtain ⟨-, hB, hdisjoint⟩ := List.nodup_append.mp hnodup
    refine ⟨fun c hc => ?_, fun a ha => ?_⟩
    · have hcmem : c ∈ source.matched filter := by
        rw [hsplit]
        exact List.mem_append_right A (List.mem_cons_of_mem b hc)
      have hcB : idOf c ∈ B.map idOf := List.mem_map_of_mem hc
      have hle : idOf c ≤ idOf b := by
        refine not_lt.mp fun hlt => ?_
        exact hdisjoint _ ((hmem c hcmem).mpr hlt) _ (List.mem_cons_of_mem _ hcB) rfl
      refine lt_of_le_of_ne hle fun heq => ?_
      exact (List.nodup_cons.mp hB).1 (heq ▸ hcB)
    · have hamem : a ∈ source.matched filter := by
        rw [hsplit]
        exact List.mem_append_left _ ha
      exact (hmem a hamem).mp (List.mem_map_of_mem ha)
  · intro h clock hclock
    refine walkReturnsEach_of_separated hlimit fun j A R hsplit hne hdvd => ?_
    cases R with
    | nil => exact separated_nil j A
    | cons b B =>
      obtain ⟨hbelow, habove⟩ := h A b B hsplit hne hdvd
      exact separated_of_sorted hclock hsplit hbelow habove j

/-- Two flows, of which the one scanned later has the higher run id. -/
def twoFlows : PersistenceDataSource where
  books := [{ uuid := "book-1", flows := [{ uuid := "a" }, { uuid := "b" }] }]

/-- One instant for the first page, and two for the second: the marker is last in the order
that the second page is in, and the other flow is never returned. -/
theorem flow_skipped :
    Monotone (fun t : ℕ => if t < 3 then (0 : ℚ) else 1)
      ∧ ¬twoFlows.WalkReturnsEach {} 1 fun t => if t < 3 then 0 else 1 := by
  refine ⟨?_, ?_⟩
  · intro s t hle
    dsimp only
    split
    · split <;> norm_num
    · rw [if_neg (by omega)]
  · rintro ⟨n, hstatus, hperm⟩
    have htwo : (twoFlows.walk (fun t => if t < 3 then 0 else 1) {} 1 2).status = .finished := by
      decide
    have hsame : twoFlows.walk (fun t => if t < 3 then 0 else 1) {} 1 n
        = twoFlows.walk (fun t => if t < 3 then 0 else 1) {} 1 2 :=
      walkPages_unique (hstatus.trans_ne (by decide)) (htwo.trans_ne (by decide))
    rw [hsame] at hperm
    exact absurd hperm.length_eq (by decide)

/-- Two flows with run ids in order against the scan. -/
def twoFlowsAgainst : PersistenceDataSource where
  books := [{ uuid := "book-1", flows := [{ uuid := "b" }, { uuid := "a" }] }]

theorem no_flow_skipped : twoFlowsAgainst.WalkReturnsEach {} 1 (stopsAt 2) := by
  refine (walkReturnsEach_iff twoFlowsAgainst {} (by decide)).mpr ?_ _ (monotone_stopsAt 2)
  intro A b B hsplit hne _
  obtain ⟨p, A, rfl⟩ := List.exists_cons_of_ne_nil hne
  have hmatched : twoFlowsAgainst.matched {} = [(_, 0), (_, 1)] := rfl
  rw [hmatched, List.cons_append] at hsplit
  obtain ⟨rfl, hrest⟩ := List.cons.inj hsplit
  cases A with
  | nil =>
    obtain ⟨rfl, rfl⟩ := List.cons.inj hrest
    exact ⟨by simp, by intro a ha; rw [List.mem_singleton.mp ha]; decide⟩
  | cons q A => simp at hrest

end PersistenceDataSource

end TaskflowMeter
