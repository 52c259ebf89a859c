import TaskflowMeter.Agreement

/-!
# Walking a listing

A walk asks for the first page, and then for the page after each marker it is given,
until a page has none.  What is stored may change while a walk is under way.

## Main definitions

* `Walk`, `Walk.turn` — how far a walk is, and what one page makes of it.
* `walkPages` — a walk over listings that may differ from page to page.
* `Lists` — a listing pages over a fixed list of flows.
* `LiveWalk`, `LiveWalk.step` — a walk over a store that is written to.

## Main results

* `walkPages_of_lists` — over a fixed list **a walk returns what was left, and ends.**
* `listFlows_agree` — the two stores list alike.
* `mem_flows_of_finished` — **no flow that is left alone is skipped.**
-/

namespace TaskflowMeter

open Paging Runs

inductive WalkStatus where
  | walking
  | finished
  | failed
  deriving DecidableEq, Repr, Inhabited

/-- How far a walk is: the marker it goes on from, and the flows it has been given. -/
structure Walk where
  marker : Option String := none
  flows : List FlowSnapshot := []
  status : WalkStatus := .walking
  deriving DecidableEq, Repr, Inhabited

/-- Ask for one page. -/
def Walk.turn (walk : Walk) (list : Option String → Except ListError FlowPage) : Walk :=
  match walk.status with
  | .walking =>
      match list walk.marker with
      | .error _ => { walk with status := .failed }
      | .ok page =>
          { marker := page.nextMarker
            flows := walk.flows ++ page.items
            status := if page.hasMore then .walking else .finished }
  | _ => walk

theorem Walk.turn_of_ok {walk : Walk} {list : Option String → Except ListError FlowPage}
    {page : FlowPage} (hstatus : walk.status = .walking) (hpage : list walk.marker = .ok page) :
    walk.turn list
      = { marker := page.nextMarker
          flows := walk.flows ++ page.items
          status := if page.hasMore then .walking else .finished } := by
  rw [turn, hstatus]
  dsimp only
  rw [hpage]

theorem Walk.turn_of_error {walk : Walk} {list : Option String → Except ListError FlowPage}
    {error : ListError} (hstatus : walk.status = .walking)
      (hpage : list walk.marker = .error error) :
    walk.turn list = { walk with status := .failed } := by
  rw [turn, hstatus]
  dsimp only
  rw [hpage]

/-- A walk that has ended asks for nothing. -/
theorem Walk.turn_of_ended {walk : Walk} (hstatus : walk.status ≠ .walking)
    (list : Option String → Except ListError FlowPage) : walk.turn list = walk := by
  rw [turn]
  split
  · next h => exact absurd h hstatus
  · rfl

/-- A walk after some pages, each of a listing of its own. -/
def walkPages (lists : ℕ → Option String → Except ListError FlowPage) : ℕ → Walk
  | 0 => {}
  | n + 1 => (walkPages lists n).turn (lists n)

/-- A walk that has ended stays as it is. -/
theorem walkPages_of_ended {lists : ℕ → Option String → Except ListError FlowPage} {n m : ℕ}
    (h : (walkPages lists n).status ≠ .walking) (hle : n ≤ m) :
    walkPages lists m = walkPages lists n := by
  induction m, hle using Nat.le_induction with
  | base => rfl
  | succ m _ ih => rw [walkPages, ih, Walk.turn_of_ended h]

/-- A walk ends in one way only. -/
theorem walkPages_unique {lists : ℕ → Option String → Except ListError FlowPage} {n m : ℕ}
    (hn : (walkPages lists n).status ≠ .walking) (hm : (walkPages lists m).status ≠ .walking) :
    walkPages lists n = walkPages lists m := by
  rcases le_total n m with h | h
  · exact (walkPages_of_ended hn h).symm
  · exact walkPages_of_ended hm h

/-- A listing pages over a fixed list of flows. -/
structure Lists (list : Option String → Except ListError FlowPage) (limit : ℕ)
    (flows : List FlowSnapshot) : Prop where
  first : list none = .ok (pageOf limit flows)
  next : ∀ f ∈ flows, list (some f.runId) = .ok (pageOf limit (after listKey (listKey f) flows))

/-- What is left of a list after a marker. -/
inductive Rest (flows : List FlowSnapshot) : Option String → List FlowSnapshot → Prop where
  | start : Rest flows none flows
  | afterFlow (f : FlowSnapshot) (hf : f ∈ flows) :
      Rest flows (some f.runId) (after listKey (listKey f) flows)

section

variable {flows rest : List FlowSnapshot} {marker : Option String} {limit : ℕ}

theorem Rest.sortedBy (h : Rest flows marker rest) (hsorted : SortedBy listKey flows) :
    SortedBy listKey rest := by
  cases h with
  | start => exact hsorted
  | afterFlow f _ => exact hsorted.after (listKey f)

theorem Rest.list_eq {list : Option String → Except ListError FlowPage}
    (h : Rest flows marker rest) (hlist : Lists list limit flows) :
    list marker = .ok (pageOf limit rest) := by
  cases h with
  | start => exact hlist.first
  | afterFlow f hf => exact hlist.next f hf

/-- A page leaves what is to come after its last flow. -/
theorem Rest.drop (h : Rest flows marker rest) (hsorted : SortedBy listKey flows) {b : FlowSnapshot}
    (hb : (rest.take limit).getLast? = some b) : Rest flows (some b.runId) (rest.drop limit) := by
  have hmem : b ∈ rest := List.mem_of_mem_take (List.mem_of_getLast? hb)
  rw [← after_getLast?_take (h.sortedBy hsorted) hb]
  cases h with
  | start => exact .afterFlow b hmem
  | afterFlow f _ =>
    obtain ⟨hb', hlt⟩ := mem_after.mp hmem
    rw [after_after hlt.le]
    exact .afterFlow b hb'

end

/-- **Over a fixed list** a walk returns what was left, and ends. -/
theorem walkPages_of_lists {lists : ℕ → Option String → Except ListError FlowPage} {limit : ℕ}
    (hlimit : 1 ≤ limit) {flows : List FlowSnapshot} (hsorted : SortedBy listKey flows) {k : ℕ}
    (hlists : ∀ j, k ≤ j → Lists (lists j) limit flows) {marker : Option String}
    {rest returned : List FlowSnapshot} (hrest : Rest flows marker rest)
    (hwalk : walkPages lists k = { marker := marker, flows := returned }) :
    ∃ n, walkPages lists n = { flows := returned ++ rest, status := .finished } := by
  -- the induction is on what is left: every page takes some of it
  induction hn : rest.length using Nat.strong_induction_on generalizing k marker rest returned with
  | _ n ih =>
    have hwalking : (walkPages lists k).status = .walking := by rw [hwalk]
    have hlist : lists k (walkPages lists k).marker = .ok (pageOf limit rest) := by
      rw [hwalk]
      exact hrest.list_eq (hlists k le_rfl)
    have hturn := Walk.turn_of_ok hwalking hlist
    by_cases hmore : limit < rest.length
    · obtain ⟨b, hb, hpage⟩ := pageOf_of_lt hlimit hmore
      have hnext : walkPages lists (k + 1)
          = { marker := some b.runId, flows := returned ++ rest.take limit } := by
        rw [walkPages, hturn, hwalk, hpage]
        rfl
      obtain ⟨m, hm⟩ := ih (rest.drop limit).length (by rw [List.length_drop]; omega)
        (fun j hj => hlists j (Nat.le_of_succ_le hj)) (hrest.drop hsorted hb) hnext rfl
      refine ⟨m, ?_⟩
      rw [hm, List.append_assoc, List.take_append_drop]
    · refine ⟨k + 1, ?_⟩
      rw [walkPages, hturn, hwalk, pageOf_of_le (not_lt.mp hmore)]
      rfl

/-! ### A store that is left alone -/

namespace WritableDataSource

theorem lists_listFlows (s : WritableDataSource) (filter : FlowFilter) {limit : ℤ}
    (hlimit : 1 ≤ limit) :
    Lists (s.listFlows filter limit) limit.toNat (s.listed filter) where
  first := listFlows_none hlimit
  next := fun _ hf => listFlows_some hlimit hf

/-- A walk over unchanged contents ends, and has returned exactly the matching flows, each
once and in order. -/
def WalkReturnsAll (s : WritableDataSource) (filter : FlowFilter) (limit : ℤ) : Prop :=
  ∃ n flows, walkPages (fun _ => s.listFlows filter limit) n
    = { flows := flows, status := .finished }
    ∧ (flows.Pairwise fun f g =>
        g.observedAt < f.observedAt ∨ f.observedAt = g.observedAt ∧ f.runId < g.runId)
    ∧ ∀ f, f ∈ flows ↔ s.getFlow f.runId = some f ∧ filter.admits f.state f.bookId = true

theorem walkReturnsAll (s : WritableDataSource) (filter : FlowFilter) {limit : ℤ}
    (hlimit : 1 ≤ limit) : s.WalkReturnsAll filter limit := by
  have hpos : 1 ≤ limit.toNat := by omega
  obtain ⟨n, hn⟩ := walkPages_of_lists (k := 0) hpos sortedBy_listed
    (fun _ _ => s.lists_listFlows filter hlimit) Rest.start rfl
  refine ⟨n, s.listed filter, hn, ?_, fun f => mem_listed⟩
  exact sortedBy_listed.imp fun hlt => listKey_lt_iff.mp hlt

/-- Stores that hold the same flows list them alike. -/
theorem listed_congr {s s' : WritableDataSource} (h : ∀ r, s.getFlow r = s'.getFlow r)
    (filter : FlowFilter) : s.listed filter = s'.listed filter := by
  refine sortedBy_listed.eq_of_perm sortedBy_listed ?_
  rw [List.perm_ext_iff_of_nodup sortedBy_listed.nodup sortedBy_listed.nodup]
  intro f
  rw [mem_listed, mem_listed, h]

end WritableDataSource

/-- **The two stores list alike** when they hold the same flows: the same first page, the
same page after a flow that is listed, the same refusal of a run that is not stored; and
over either of them a walk returns exactly the matching flows, in order. -/
theorem listFlows_agree {store : MemoryDataSource} {db : SQLADataSource}
    (h : ∀ r, store.getFlow r = db.getFlow r) (filter : FlowFilter) {limit : ℤ}
    (hlimit : 1 ≤ limit) :
    (∃ page, store.listFlows filter limit none = .ok page
      ∧ db.listFlows filter limit none = .ok page)
      ∧ (∀ m f, store.getFlow m = some f → filter.admits f.state f.bookId = true →
          ∃ page, store.listFlows filter limit (some m) = .ok page
            ∧ db.listFlows filter limit (some m) = .ok page)
      ∧ (∀ m, store.getFlow m = none →
          store.listFlows filter limit (some m) = .error (unknownMarker m)
            ∧ db.listFlows filter limit (some m) = .error (unknownMarker m))
      ∧ (WritableDataSource.memory store).WalkReturnsAll filter limit
      ∧ (WritableDataSource.sqlalchemy db).WalkReturnsAll filter limit := by
  have hget : ∀ r, (WritableDataSource.memory store).getFlow r
      = (WritableDataSource.sqlalchemy db).getFlow r := h
  have hlisted := WritableDataSource.listed_congr hget filter
  refine ⟨⟨_, store.listFlows_none filter hlimit, ?_⟩, ?_, ?_,
    WritableDataSource.walkReturnsAll _ filter hlimit,
    WritableDataSource.walkReturnsAll _ filter hlimit⟩
  · rw [db.listFlows_none filter hlimit]
    exact congrArg (fun flows => Except.ok (pageOf limit.toNat flows)) hlisted.symm
  · intro m f hf hadmits
    obtain rfl := WritableDataSource.runId_getFlow (s := .memory store) hf
    refine ⟨_, MemoryDataSource.listFlows_some hlimit hf hadmits, ?_⟩
    rw [SQLADataSource.listFlows_some filter hlimit ((h f.runId).symm.trans hf)]
    exact congrArg (fun flows => Except.ok (pageOf limit.toNat (after listKey (listKey f) flows)))
      hlisted.symm
  · intro m hm
    refine ⟨?_, SQLADataSource.listFlows_unknown filter hlimit ((h m).symm.trans hm)⟩
    exact WritableDataSource.listFlows_unknown (s := .memory store) hlimit hm

/-- Three runs observed at one instant. -/
def threeTied : List Event :=
  ["b", "a", "c"].map fun r => { heartbeat 1 with runId := r }

/-- Both stores hold the same flows after the same batch. -/
theorem listFlows_threeTied :
    ∃ page, ((({} : MemoryDataSource).applyMany threeTied).listFlows {} 2 none = .ok page
      ∧ (({} : SQLADataSource).applyMany threeTied).listFlows {} 2 none = .ok page) := by
  have hlimit : (1 : ℤ) ≤ 2 := by decide
  refine (listFlows_agree (fun r => ?_) {} hlimit).1
  rw [MemoryDataSource.getFlow_applyMany (Or.inl rfl), SQLADataSource.getFlow_applyMany]
  rfl

/-! ### A store that is written to -/

/-- A walk under way, and the store it walks over. -/
structure LiveWalk where
  store : WritableDataSource
  walk : Walk := {}

namespace LiveWalk

/-- The store is written to, or the walk asks for a page. -/
inductive Move where
  | call (call : Call)
  | turn
  deriving DecidableEq, Repr

def step (filter : FlowFilter) (limit : ℤ) (w : LiveWalk) : Move → LiveWalk
  | .call call => { w with store := w.store.perform call }
  | .turn => { w with walk := w.walk.turn (w.store.listFlows filter limit) }

/-- The store has no limit on its runs. -/
def Unlimited : WritableDataSource → Prop
  | .memory store => store.maxRuns = none
  | .sqlalchemy _ => True

theorem Unlimited.roomy {s : WritableDataSource} (h : Unlimited s) (es : List Event) :
    s.Roomy 0 es := by
  cases s with
  | memory store => exact ⟨Or.inl h, Nat.zero_le _⟩
  | sqlalchemy store => trivial

theorem Unlimited.perform {s : WritableDataSource} (h : Unlimited s) (call : Call) :
    Unlimited (s.perform call) := by
  rw [WritableDataSource.perform_eq]
  cases s with
  | memory store => exact (MemoryDataSource.maxRuns_applyMany store call.events).trans h
  | sqlalchemy store => trivial

/-- A call leaves every run it does not write to as it is. -/
theorem getFlow_perform_of_untouched {s : WritableDataSource} (h : Unlimited s) {call : Call}
    {r : String} (hr : ∀ e ∈ call.events, e.runId ≠ r) :
    (s.perform call).getFlow r = s.getFlow r := by
  have hnil : call.events.filter (·.runId = r) = [] := by
    rw [List.filter_eq_nil_iff]
    intro e he
    simpa using hr e he
  rw [WritableDataSource.perform_eq, WritableDataSource.getFlow_applyMany (h.roomy _), hnil]
  rfl

/-- A call moves a flow only towards the front of the listing. -/
theorem getFlow_perform {s : WritableDataSource} (h : Unlimited s) (call : Call) {r : String}
    {f : FlowSnapshot} (hf : s.getFlow r = some f) :
    ∃ g, (s.perform call).getFlow r = some g ∧ listKey g ≤ listKey f := by
  rw [WritableDataSource.perform_eq, WritableDataSource.getFlow_applyMany (h.roomy _), hf,
    applyEvents_some]
  refine ⟨_, rfl, listKey_le_iff.mpr ?_⟩
  rcases (observedAt_le_foldl f (call.events.filter (·.runId = r))).lt_or_eq with hlt | heq
  · exact Or.inl hlt
  · exact Or.inr ⟨heq.symm, (runId_foldl f _).le⟩

/-- What holds of a flow that is left alone: the walk has returned it, or has yet to come
to it. -/
structure Inv (filter : FlowFilter) (u : FlowSnapshot) (w : LiveWalk) : Prop where
  unlimited : Unlimited w.store
  stored : w.store.getFlow u.runId = some u
  admitted : filter.admits u.state u.bookId = true
  ahead : w.walk.status = .walking → u ∈ w.walk.flows
    ∨ ∀ m, w.walk.marker = some m → ∃ f, w.store.getFlow m = some f ∧ listKey f < listKey u
  finished : w.walk.status = .finished → u ∈ w.walk.flows

variable {filter : FlowFilter} {limit : ℤ} {u : FlowSnapshot} {w : LiveWalk}

/-- Writing to other runs: the marker's flow can only move away from `u`. -/
theorem Inv.call (h : Inv filter u w) {call : Call} (hu : ∀ e ∈ call.events, e.runId ≠ u.runId) :
    Inv filter u (w.step filter limit (.call call)) where
  unlimited := h.unlimited.perform call
  stored := (getFlow_perform_of_untouched h.unlimited hu).trans h.stored
  admitted := h.admitted
  ahead := by
    intro hstatus
    refine (h.ahead hstatus).imp_right fun hmarker m hm => ?_
    obtain ⟨f, hf, hlt⟩ := hmarker m hm
    obtain ⟨g, hg, hle⟩ := getFlow_perform h.unlimited call hf
    exact ⟨g, hg, hle.trans_lt hlt⟩
  finished := h.finished

/-- What a page is made of: everything the walk has yet to come to is in it. -/
theorem Inv.rest (h : Inv filter u w) (hlimit : 1 ≤ limit) (hstatus : w.walk.status = .walking)
    {page : FlowPage} (hpage : w.store.listFlows filter limit w.walk.marker = .ok page) :
    ∃ rest, page = pageOf limit.toNat rest ∧ SortedBy listKey rest
      ∧ (∀ f ∈ rest, w.store.getFlow f.runId = some f) ∧ (u ∈ w.walk.flows ∨ u ∈ rest) := by
  have hlisted : u ∈ w.store.listed filter :=
    WritableDataSource.mem_listed.mpr ⟨h.stored, h.admitted⟩
  have hstored : ∀ f ∈ w.store.listed filter, w.store.getFlow f.runId = some f := fun f hf =>
    (WritableDataSource.mem_listed.mp hf).1
  cases hmarker : w.walk.marker with
  | none =>
    rw [hmarker, WritableDataSource.listFlows_none hlimit] at hpage
    exact ⟨_, (Except.ok.inj hpage).symm, WritableDataSource.sortedBy_listed, hstored,
      Or.inr hlisted⟩
  | some m =>
    rw [hmarker] at hpage
    obtain ⟨f, hf, rfl⟩ := WritableDataSource.listFlows_eq_ok hlimit hpage
    refine ⟨_, rfl, WritableDataSource.sortedBy_listed.after _,
      fun g hg => hstored g (mem_after.mp hg).1, ?_⟩
    refine (h.ahead hstatus).imp_right fun hahead => ?_
    obtain ⟨g, hg, hlt⟩ := hahead m hmarker
    obtain rfl := Option.some.inj (hf.symm.trans hg)
    exact mem_after.mpr ⟨hlisted, hlt⟩

/-- One page. -/
theorem Inv.turn (h : Inv filter u w) (hlimit : 1 ≤ limit) :
    Inv filter u (w.step filter limit .turn) := by
  have hpos : 1 ≤ limit.toNat := by omega
  by_cases hstatus : w.walk.status = .walking
  · cases hpage : w.store.listFlows filter limit w.walk.marker with
    | error error =>
      rw [step, Walk.turn_of_error hstatus hpage]
      exact ⟨h.unlimited, h.stored, h.admitted, by simp, by simp⟩
    | ok page =>
      obtain ⟨rest, rfl, hsorted, hstored, hu⟩ := h.rest hlimit hstatus hpage
      rw [step, Walk.turn_of_ok hstatus hpage]
      by_cases hmore : limit.toNat < rest.length
      · obtain ⟨b, hb, hpageOf⟩ := pageOf_of_lt hpos hmore
        rw [hpageOf]
        refine ⟨h.unlimited, h.stored, h.admitted, fun _ => ?_, by simp [FlowPage.hasMore]⟩
        by_cases hgiven : u ∈ w.walk.flows ++ rest.take limit.toNat
        · exact Or.inl hgiven
        · -- `u` comes after the last flow of the page
          rw [List.mem_append, not_or] at hgiven
          have hrest := hu.resolve_left hgiven.1
          have hbmem : b ∈ rest := List.mem_of_mem_take (List.mem_of_getLast? hb)
          have hlt : listKey b < listKey u :=
            not_le.mp fun hle => hgiven.2 ((mem_take_iff hsorted hb hrest).mpr hle)
          refine Or.inr fun m hm => ?_
          obtain rfl := Option.some.inj hm
          exact ⟨b, hstored b hbmem, hlt⟩
      · rw [pageOf_of_le (not_lt.mp hmore)]
        refine ⟨h.unlimited, h.stored, h.admitted, by simp [FlowPage.hasMore], fun _ => ?_⟩
        exact List.mem_append.mpr hu
  · rw [step, Walk.turn_of_ended hstatus]
    exact h

/-- **No flow that is left alone is skipped**: once a walk has ended, every flow that was
there and matched when it began, and was not written to since, has been returned. -/
theorem mem_flows_of_finished {s : WritableDataSource} (hs : Unlimited s) (filter : FlowFilter)
    {limit : ℤ} (hlimit : 1 ≤ limit) {moves : List Move}
    (hfinished : (run (step filter limit) { store := s } moves).walk.status = .finished)
    {u : FlowSnapshot} (hu : s.getFlow u.runId = some u)
    (hadmits : filter.admits u.state u.bookId = true)
    (huntouched : ∀ call, .call call ∈ moves → ∀ e ∈ call.events, e.runId ≠ u.runId) :
    u ∈ (run (step filter limit) { store := s } moves).walk.flows := by
  suffices hinv : Inv filter u (run (step filter limit) { store := s } moves) from
    hinv.finished hfinished
  clear hfinished
  induction moves using List.reverseRecOn with
  | nil => exact ⟨hs, hu, hadmits, fun _ => Or.inr (by simp), by simp⟩
  | append_singleton moves move ih =>
    have hprev := ih fun call hcall => huntouched call (List.mem_append_left [move] hcall)
    rw [run_concat]
    cases move with
    | call call =>
      exact hprev.call (huntouched call (List.mem_append_right moves List.mem_cons_self))
    | turn => exact hprev.turn hlimit

/-- The flow of the first page moves to the front while the walk goes on, and the last
flow is returned all the same. -/
theorem last_flow_returned :
    ({ runId := "c", observedAt := 0 } : FlowSnapshot)
      ∈ (run (step {} 1) { store := .sqlalchemy (({} : SQLADataSource).applyMany threeTied) }
          [.turn, .call (.apply { heartbeat 2 with runId := "a", ts := 5 }), .turn,
            .turn]).walk.flows := by
  have hs : Unlimited (.sqlalchemy (({} : SQLADataSource).applyMany threeTied)) := trivial
  have hlimit : (1 : ℤ) ≤ 1 := le_rfl
  refine mem_flows_of_finished hs {} hlimit (by decide) (by decide) (by decide) ?_
  intro call hcall e he
  have hcall : call = .apply { heartbeat 2 with runId := "a", ts := 5 } := by simpa using hcall
  subst hcall
  rw [List.mem_singleton.mp he]
  decide

end LiveWalk

end TaskflowMeter
