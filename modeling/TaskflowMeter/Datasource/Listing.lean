import TaskflowMeter.Datasource.Base
import TaskflowMeter.Lib.Paging

/-!
# Listing flows, page by page

The datasources list flows in one order: newest observation first, then by run id.  The
marker of a page is the run id of its last flow.

## Main definitions

* `FlowFilter`, `ListError` — what a listing is narrowed to, and what it raises.
* `listKey`, `sortFlows` — the order.
* `listPage` — a page of flows in order, by positions.
* `pageOf` — the page made of what is left to list.

## Main results

* `listPage_some` — **a marker leaves what has keys above its own.**
-/

namespace TaskflowMeter

open Paging

/-- What a listing is narrowed to. -/
structure FlowFilter where
  state : Option String := none
  bookId : Option String := none
  deriving DecidableEq, Repr, Inhabited

/-- Whether a flow in this state, of this book, is listed. -/
def FlowFilter.admits (filter : FlowFilter) (state bookId : Option String) : Bool :=
  (filter.state.all fun s => state = some s) && (filter.bookId.all fun b => bookId = some b)

/-- What a listing raises. -/
inductive ListError where
  | valueError (message : String)
  | unknownMarker (message : String)
  deriving DecidableEq, Repr

def limitTooLow : ListError := .valueError "limit must be at least 1"

/-- A paging marker refers to a flow that the datasource cannot place. -/
def unknownMarker (marker : String) : ListError :=
  .unknownMarker ("unknown paging marker: " ++ (Json.str marker).repr)

/-- Newest observation first; the run id breaks ties. -/
def listKey (flow : FlowSnapshot) : ℚ ×ₗ String := toLex (-flow.observedAt, flow.runId)

def sortFlows (flows : List FlowSnapshot) : List FlowSnapshot :=
  flows.insertionSort fun a b => listKey a ≤ listKey b

/-- `{flow.run_id: index for index, flow in enumerate(flows)}`. -/
def positions (flows : List FlowSnapshot) : Dict String ℕ :=
  flows.zipIdx.foldl (fun d p => d.set p.1.runId p.2) ∅

/-- The page that starts at a position. -/
def pageFrom (flows : List FlowSnapshot) (limit start : ℕ) : FlowPage :=
  let window := (flows.drop start).take limit
  let more := start + limit < flows.length
  { items := window, nextMarker := if more then window.getLast?.map (·.runId) else none }

/-- The page after a marker, of flows that are in order. -/
def listPage (flows : List FlowSnapshot) (limit : ℕ) : Option String → Except ListError FlowPage
  | none => .ok (pageFrom flows limit 0)
  | some marker =>
      match (positions flows).get? marker with
      | none => .error (unknownMarker marker)
      | some index => .ok (pageFrom flows limit (index + 1))

/-- The page made of what is left to list. -/
def pageOf (limit : ℕ) (rest : List FlowSnapshot) : FlowPage where
  items := rest.take limit
  nextMarker := if limit < rest.length then (rest.take limit).getLast?.map (·.runId) else none

/-- A page that is not the last is full, and names its last flow. -/
theorem pageOf_of_lt {limit : ℕ} (hlimit : 1 ≤ limit) {rest : List FlowSnapshot}
    (h : limit < rest.length) :
    ∃ b, (rest.take limit).getLast? = some b
      ∧ pageOf limit rest = { items := rest.take limit, nextMarker := some b.runId } := by
  have hne : rest.take limit ≠ [] := by
    rw [← List.length_pos_iff, List.length_take]
    omega
  have hlast := List.getLast?_eq_some_getLast hne
  refine ⟨_, hlast, ?_⟩
  rw [pageOf, if_pos h, hlast]
  rfl

/-- The marker of the next page is the run id of the last flow, if there is more to list. -/
theorem nextMarker_pageOf {limit : ℕ} (hlimit : 1 ≤ limit) {rest : List FlowSnapshot}
    {marker : String} : (pageOf limit rest).nextMarker = some marker
      ↔ limit < rest.length ∧ ∃ last, rest[limit - 1]? = some last ∧ last.runId = marker := by
  by_cases hmore : limit < rest.length
  · have hlast : (rest.take limit).getLast? = rest[limit - 1]? := by
      rw [List.getLast?_take, if_neg (by omega), List.getElem?_eq_getElem (by omega)]
      rfl
    rw [pageOf, if_pos hmore, hlast, and_iff_right hmore]
    exact Option.map_eq_some_iff
  · rw [pageOf, if_neg hmore]
    simp [hmore]

/-- The last page holds all that is left. -/
theorem pageOf_of_le {limit : ℕ} {rest : List FlowSnapshot} (h : rest.length ≤ limit) :
    pageOf limit rest = { items := rest } := by
  rw [pageOf, if_neg (not_lt.mpr h), List.take_of_length_le h]

/-! ### The order -/

theorem perm_sortFlows (flows : List FlowSnapshot) : (sortFlows flows).Perm flows :=
  List.perm_insertionSort _ _

@[simp] theorem mem_sortFlows {flows : List FlowSnapshot} {f : FlowSnapshot} :
    f ∈ sortFlows flows ↔ f ∈ flows :=
  (perm_sortFlows flows).mem_iff

theorem listKey_lt_iff {f g : FlowSnapshot} :
    listKey f < listKey g
      ↔ g.observedAt < f.observedAt ∨ f.observedAt = g.observedAt ∧ f.runId < g.runId := by
  rw [listKey, listKey, Prod.Lex.toLex_lt_toLex, neg_lt_neg_iff, neg_inj]

theorem listKey_le_iff {f g : FlowSnapshot} :
    listKey f ≤ listKey g
      ↔ g.observedAt < f.observedAt ∨ f.observedAt = g.observedAt ∧ f.runId ≤ g.runId := by
  rw [listKey, listKey, Prod.Lex.toLex_le_toLex, neg_lt_neg_iff, neg_inj]

/-- Flows of different runs have different keys. -/
theorem nodup_listKey {flows : List FlowSnapshot} (h : (flows.map (·.runId)).Nodup) :
    (flows.map listKey).Nodup := by
  refine List.Nodup.of_map (fun k : ℚ ×ₗ String => (ofLex k).2) ?_
  rwa [List.map_map]

theorem sortedBy_sortFlows {flows : List FlowSnapshot} (h : (flows.map (·.runId)).Nodup) :
    SortedBy listKey (sortFlows flows) :=
  sortedBy_insertionSort (nodup_listKey h)

/-- Leaving flows out before or after sorting is the same. -/
theorem sortFlows_after {flows : List FlowSnapshot} (h : (flows.map (·.runId)).Nodup)
    (k : ℚ ×ₗ String) : sortFlows (after listKey k flows) = after listKey k (sortFlows flows) := by
  have hnodup : ((after listKey k flows).map (·.runId)).Nodup :=
    h.sublist (List.filter_sublist.map _)
  exact (sortedBy_sortFlows hnodup).eq_of_perm ((sortedBy_sortFlows h).after k)
    ((perm_sortFlows _).trans ((perm_sortFlows flows).symm.filter _))

/-! ### Markers -/

/-- A run's position. -/
theorem get?_positions {flows : List FlowSnapshot} (h : (flows.map (·.runId)).Nodup) {m : String}
    {i : ℕ} : (positions flows).get? m = some i ↔ ∃ f, flows[i]? = some f ∧ f.runId = m := by
  induction flows using List.reverseRecOn generalizing i with
  | nil => simp [positions]
  | append_singleton flows f ih =>
    have hset : positions (flows ++ [f]) = (positions flows).set f.runId flows.length := by
      rw [positions, List.zipIdx_append, List.foldl_append, Nat.zero_add]
      rfl
    rw [List.map_append, List.nodup_append] at h
    obtain ⟨hflows, -, hnew⟩ := h
    rw [hset, Dict.get?_set]
    split
    · next hm =>
      subst hm
      constructor
      · intro hi
        obtain rfl := Option.some.inj hi
        exact ⟨f, List.getElem?_concat_length, rfl⟩
      · rintro ⟨g, hg, hid⟩
        -- an earlier flow of the same run would be another position
        rcases lt_or_ge i flows.length with hlt | hge
        · rw [List.getElem?_append_left hlt] at hg
          have hmem : g.runId ∈ flows.map (·.runId) :=
            List.mem_map_of_mem (List.mem_of_getElem? hg)
          exact absurd hid (hnew g.runId hmem f.runId List.mem_cons_self)
        · have hlt := (List.getElem?_eq_some_iff.mp hg).1
          rw [List.length_append, List.length_singleton] at hlt
          rw [le_antisymm hge (Nat.lt_succ_iff.mp hlt)]
    · next hm =>
      rw [ih hflows]
      refine exists_congr fun g => and_congr_left fun hid => ?_
      rcases lt_or_ge i flows.length with hlt | hge
      · rw [List.getElem?_append_left hlt]
      · -- past the end there is only `f`
        rw [List.getElem?_eq_none hge, List.getElem?_append_right hge]
        constructor
        · intro hnone
          simp at hnone
        · intro hg
          have hgf : g = f := by simpa using List.mem_of_getElem? hg
          exact absurd (hid.symm.trans (congrArg _ hgf)) hm

theorem pageFrom_eq (flows : List FlowSnapshot) (limit start : ℕ) :
    pageFrom flows limit start = pageOf limit (flows.drop start) := by
  have hmore : start + limit < flows.length ↔ limit < (flows.drop start).length := by
    rw [List.length_drop]
    omega
  simp only [pageFrom, pageOf, hmore]

@[simp] theorem listPage_none (flows : List FlowSnapshot) (limit : ℕ) :
    listPage flows limit none = .ok (pageOf limit flows) := by
  rw [listPage, pageFrom_eq, List.drop_zero]

/-- **A marker leaves what has keys above its own.** -/
theorem listPage_some {flows : List FlowSnapshot} (hsorted : SortedBy listKey flows)
    (hnodup : (flows.map (·.runId)).Nodup) (limit : ℕ) {f : FlowSnapshot} (hf : f ∈ flows) :
    listPage flows limit (some f.runId) = .ok (pageOf limit (after listKey (listKey f) flows)) := by
  obtain ⟨i, hi⟩ := List.mem_iff_getElem?.mp hf
  have hpos : (positions flows).get? f.runId = some i := (get?_positions hnodup).mpr ⟨f, hi, rfl⟩
  rw [listPage, hpos, ← drop_eq_after hsorted hi, ← pageFrom_eq]

/-- A marker leaves what follows its flow. -/
theorem listPage_of_mem {flows : List FlowSnapshot} (hnodup : (flows.map (·.runId)).Nodup)
    (limit : ℕ) {m : String} (h : ∃ f ∈ flows, f.runId = m) :
    listPage flows limit (some m)
      = .ok (pageOf limit (flows.dropWhile fun f => f.runId ≠ m).tail) := by
  obtain ⟨f, hf, rfl⟩ := h
  obtain ⟨i, hi⟩ := List.mem_iff_getElem?.mp hf
  have hpos : (positions flows).get? f.runId = some i := (get?_positions hnodup).mpr ⟨f, hi, rfl⟩
  obtain ⟨hlt, hget⟩ := List.getElem?_eq_some_iff.mp hi
  have hsplit : flows = flows.take i ++ f :: flows.drop (i + 1) := by
    conv_lhs => rw [← List.take_append_drop i flows, List.drop_eq_getElem_cons hlt, hget]
  have hbefore : ∀ g ∈ flows.take i, decide (g.runId ≠ f.runId) = true := by
    intro g hg
    rw [hsplit, List.map_append, List.nodup_append] at hnodup
    exact decide_eq_true (hnodup.2.2 _ (List.mem_map_of_mem hg) _ List.mem_cons_self)
  have hrest : (flows.dropWhile fun g => g.runId ≠ f.runId).tail = flows.drop (i + 1) := by
    conv_lhs => rw [hsplit, List.dropWhile_append_of_pos hbefore]
    rw [List.dropWhile_cons_of_neg (by simp)]
    rfl
  rw [listPage, hpos, hrest, ← pageFrom_eq]

theorem listPage_unknown {flows : List FlowSnapshot} (hnodup : (flows.map (·.runId)).Nodup)
    (limit : ℕ) {m : String} (h : ∀ f ∈ flows, f.runId ≠ m) :
    listPage flows limit (some m) = .error (unknownMarker m) := by
  have hpos : (positions flows).get? m = none := by
    rw [Option.eq_none_iff_forall_ne_some]
    intro i hi
    obtain ⟨f, hf, hm⟩ := (get?_positions hnodup).mp hi
    exact h f (List.mem_of_getElem? hf) hm
  rw [listPage, hpos]

end TaskflowMeter
