import TaskflowMeter.Poller

/-!
# The stream that a poller makes of a source

A poller feeds a bounded history in memory, and a client follows one run from the
beginning.  Polls, single writes and the client's calls interleave in any way.

## Main definitions

* `PageLaws` — what every page is.
* `Following` — what the client has been given, and told.
* `Unchanged` — two snapshots agree on everything but the observation time and metadata.
* `StreamLaws` — all of it, at any moment of the stream.

## Main results

* `pageLaws_eventPage` — every page continues where the client is, or says that it
  cannot.
* `produced_of_unchanged` — a poll adds nothing for a run that has not changed.
* `poller_stream` — **the client sees every retained event once, in order, and every hole
  is announced.**
-/

namespace TaskflowMeter

open Consecutive Runs

/-! ### A history that holds the end of a run -/

/-- What is retained of a run of numbers starting at 1. -/
theorem isRun_rtake {l : List Event} (h : IsRun 1 (l.map Event.seq)) (c : ℕ) :
    IsRun (((l.length - c : ℕ) : ℤ) + 1) ((l.rtake c).map Event.seq) := by
  have hsplit : l.map Event.seq = (l.take (l.length - c)).map Event.seq
      ++ (l.rtake c).map Event.seq := by
    rw [← List.map_append, List.rtake, List.take_append_drop]
  rw [hsplit, isRun_append, List.length_map, List.length_take, min_eq_left (Nat.sub_le _ _)] at h
  rw [add_comm]
  exact h.2

theorem length_rtake (l : List Event) (c : ℕ) : (l.rtake c).length = l.length - (l.length - c) := by
  rw [List.rtake, List.length_drop]

/-- Events numbered one after the other are in order. -/
theorem sortedBySeq_of_isRun {l : List Event} {a : ℤ} (h : IsRun a (l.map Event.seq)) :
    sortedBySeq l = l := by
  apply sortedBySeq_of_sorted
  have hlt := pairwise_lt h
  rw [List.pairwise_map] at hlt
  exact hlt.imp fun hab => hab.le

theorem hasSeq_iff_of_isRun {l : List Event} {a : ℤ} (h : IsRun a (l.map Event.seq)) (m : ℤ) :
    HasSeq l m ↔ a ≤ m ∧ m < a + l.length := by
  have hmem : HasSeq l m ↔ m ∈ l.map Event.seq := by simp [HasSeq]
  rw [hmem, mem_iff h, List.length_map]

/-- The page that a client at `since` is given of the last `c` of the events `stored`. -/
structure PageLaws (stored : List Event) (c : ℕ) (since : ℤ) (page : EventPage) : Prop where
  /-- The page holds consecutive numbers, from the next one on unless it says otherwise. -/
  isRun : ∃ start, IsRun start (page.events.map Event.seq)
    ∧ (page.truncated = false → start = since + 1)
  /-- It says otherwise exactly when the next event has been evicted. -/
  truncated_iff : page.truncated = true
    ↔ ∃ e ∈ stored, e.seq = since + 1 ∧ e ∉ stored.rtake c
  /-- Then it starts at the oldest event retained. -/
  head_eq : page.truncated = true →
    page.events.head? = (stored.rtake c).head? ∧ page.events ≠ []
  /-- It is empty exactly when the client has the last event stored. -/
  eq_nil_iff : page.events = [] ↔ since = stored.length
  /-- And the client continues after its last event. -/
  nextSeq_eq : page.nextSeq = ((page.events.getLast?).map (·.seq)).getD since

section

variable {stored : List Event} {c : ℕ} {since limit : ℤ}

/-- Where a page starts: after the client's number, or at the oldest one retained. -/
theorem startOf_rtake (h : IsRun 1 (stored.map Event.seq)) (hc : 1 ≤ c) (hlow : 0 ≤ since) :
    startOf (stored.rtake c) since = max (since + 1) (((stored.length - c : ℕ) : ℤ) + 1) := by
  have hrun := isRun_rtake h c
  rw [startOf]
  cases hl : stored.rtake c with
  | nil =>
    have hlen := length_rtake stored c
    rw [hl, List.length_nil] at hlen
    simp only [oldestOf, List.head?_nil, Option.map_none, Option.getD_none, max_self]
    omega
  | cons x l =>
    rw [hl, List.map_cons] at hrun
    simp only [oldestOf, List.head?_cons, Option.map_some, Option.getD_some]
    rw [hrun.1]

theorem truncated_rtake_iff (h : IsRun 1 (stored.map Event.seq)) (hc : 1 ≤ c) (hlow : 0 ≤ since)
    (limit : ℤ) :
    (eventPage (stored.rtake c) since limit).truncated = true
      ↔ since < ((stored.length - c : ℕ) : ℤ) := by
  have hrun := isRun_rtake h c
  have hlen := length_rtake stored c
  rw [truncated_eventPage_iff]
  cases hl : stored.rtake c with
  | nil =>
    rw [hl, List.length_nil] at hlen
    simp only [oldestOf, List.head?_nil, Option.map_none, reduceCtorEq, false_and, exists_false,
      false_iff, not_lt]
    omega
  | cons x l =>
    rw [hl, List.map_cons] at hrun
    simp only [oldestOf, List.head?_cons, Option.map_some, Option.some.injEq, exists_eq_left']
    rw [hrun.1]
    omega

/-- What a page of the last `c` of the events `stored` is made of. -/
structure RetainedPage (stored : List Event) (c : ℕ) (since limit : ℤ) (page : EventPage) :
    Prop where
  events : Contiguous (stored.rtake c) (max (since + 1) (((stored.length - c : ℕ) : ℤ) + 1)) limit
    page.events
  truncated : page.truncated = true ↔ since < ((stored.length - c : ℕ) : ℤ)
  oldestSeq : ∀ o ∈ page.oldestSeq, o = ((stored.length - c : ℕ) : ℤ) + 1
  exists_oldestSeq : page.truncated = true → ∃ o, page.oldestSeq = some o
  nextSeq : page.nextSeq = ((page.events.getLast?).map (·.seq)).getD since

theorem retainedPage_eventPage (h : IsRun 1 (stored.map Event.seq)) (hc : 1 ≤ c) (hlow : 0 ≤ since)
    (hlimit : 1 ≤ limit) :
    RetainedPage stored c since limit
      (eventPage (sortedBySeq (stored.rtake c)) since limit) := by
  have hrun := isRun_rtake h c
  have hsorted := seqSorted_sortedBySeq (stored.rtake c)
  rw [sortedBySeq_of_isRun hrun] at hsorted ⊢
  refine ⟨?_, truncated_rtake_iff h hc hlow limit, ?_, ?_, rfl⟩
  · rw [← startOf_rtake h hc hlow]
    exact eventPage_events hsorted since hlimit
  · intro o ho
    rw [oldestSeq_eventPage, oldestOf] at ho
    obtain ⟨x, hx, rfl⟩ := Option.map_eq_some_iff.mp ho
    cases hl : stored.rtake c with
    | nil => rw [hl] at hx; simp at hx
    | cons y l =>
      rw [hl, List.head?_cons, Option.some.injEq] at hx
      rw [hl, List.map_cons] at hrun
      rw [← hx, hrun.1]
  · intro htrue
    obtain ⟨o, ho, -⟩ := truncated_eventPage_iff.mp htrue
    exact ⟨o, ho⟩

/-- A page is empty exactly when the client is at the end. -/
theorem RetainedPage.eq_nil_iff {page : EventPage} (hpage : RetainedPage stored c since limit page)
    (h : IsRun 1 (stored.map Event.seq)) (hc : 1 ≤ c) (hlow : 0 ≤ since)
    (hhigh : since ≤ stored.length) (hlimit : 1 ≤ limit) :
    page.events = [] ↔ since = stored.length := by
  have hlen := length_rtake stored c
  rw [hpage.events.eq_nil_iff hlimit, hasSeq_iff_of_isRun (isRun_rtake h c), hlen]
  omega

/-- The next event has been evicted exactly when its number is among the lowest. -/
theorem evicted_iff (h : IsRun 1 (stored.map Event.seq)) (hlow : 0 ≤ since)
    (hhigh : since ≤ stored.length) :
    since < ((stored.length - c : ℕ) : ℤ)
      ↔ ∃ e ∈ stored, e.seq = since + 1 ∧ e ∉ stored.rtake c := by
  have hrun := isRun_rtake h c
  have hlen := length_rtake stored c
  constructor
  · intro hlt
    obtain ⟨e, he, hseq⟩ := (hasSeq_iff_of_isRun h (since + 1)).mpr ⟨by omega, by omega⟩
    refine ⟨e, he, hseq, fun hmem => ?_⟩
    have hret := (hasSeq_iff_of_isRun hrun (since + 1)).mp ⟨e, hmem, hseq⟩
    omega
  · rintro ⟨e, he, hseq, hnot⟩
    by_contra hge
    have hn := (hasSeq_iff_of_isRun h (since + 1)).mp ⟨e, he, hseq⟩
    -- the event is not among the ones evicted, so it is among the others
    obtain ⟨x, hx, hxseq⟩ := (hasSeq_iff_of_isRun hrun (since + 1)).mpr ⟨by omega, by omega⟩
    have hxe : x = e := List.inj_on_of_nodup_map (nodup h) (List.mem_of_mem_drop hx) he
      (hxseq.trans hseq.symm)
    exact hnot (hxe ▸ hx)

/-- A page that starts below what is retained starts at the oldest event. -/
theorem RetainedPage.head?_eq {page : EventPage} (hpage : RetainedPage stored c since limit page)
    (h : IsRun 1 (stored.map Event.seq)) (hlt : since < ((stored.length - c : ℕ) : ℤ))
    (hne : page.events ≠ []) : page.events.head? = (stored.rtake c).head? := by
  have hrun := isRun_rtake h c
  obtain ⟨e, l, heq⟩ := List.exists_cons_of_ne_nil hne
  have hfirst := hpage.events.isRun
  have hmem := hpage.events.mem (heq ▸ List.mem_cons_self : e ∈ _)
  rw [heq, List.map_cons] at hfirst
  rw [heq, List.head?_cons]
  cases hl : stored.rtake c with
  | nil => rw [hl] at hmem; simp at hmem
  | cons x t =>
    rw [List.head?_cons, Option.some.injEq]
    have hx : x ∈ stored.rtake c := hl ▸ List.mem_cons_self
    rw [hl, List.map_cons] at hrun
    refine List.inj_on_of_nodup_map (nodup h) (List.mem_of_mem_drop hmem)
      (List.mem_of_mem_drop hx) ?_
    rw [hfirst.1, hrun.1]
    exact max_eq_right (by omega)

/-- **Every page continues where the client is, or says that it cannot.** -/
theorem pageLaws_eventPage (h : IsRun 1 (stored.map Event.seq)) (hc : 1 ≤ c) (hlow : 0 ≤ since)
    (hhigh : since ≤ stored.length) (hlimit : 1 ≤ limit) :
    PageLaws stored c since (eventPage (sortedBySeq (stored.rtake c)) since limit) := by
  have hpage := retainedPage_eventPage h hc hlow hlimit
  have hempty := hpage.eq_nil_iff h hc hlow hhigh hlimit
  refine ⟨⟨_, hpage.events.isRun, ?_⟩, ?_, ?_, hempty, hpage.nextSeq⟩
  · intro hfalse
    have hle : ¬since < ((stored.length - c : ℕ) : ℤ) := by
      rw [← hpage.truncated, hfalse]
      decide
    exact max_eq_left (by omega)
  · rw [hpage.truncated]
    exact evicted_iff h hlow hhigh
  · intro htrue
    have hlt := hpage.truncated.mp htrue
    have hne : (eventPage (sortedBySeq (stored.rtake c)) since limit).events ≠ [] := by
      rw [ne_eq, hempty]
      omega
    exact ⟨hpage.head?_eq h hlt hne, hne⟩

end

/-! ### What the client has been given, and told -/

/-- What the client has been given, and told, of a run of which the last `c` of the events
`stored` are retained. -/
structure Following (stored : List Event) (c : ℕ) (client : Client) : Prop where
  /-- What it has received are events of the run, each once, in order. -/
  mem : ∀ e ∈ client.received, e ∈ stored
  ordered : (client.received.map Event.seq).Pairwise (· < ·)
  /-- It continues after the last one. -/
  sinceSeq : client.sinceSeq = ((client.received.getLast?).map (·.seq)).getD 0
  /-- **Every number up to there was received or announced.** -/
  covered : ∀ m, 1 ≤ m → m ≤ client.sinceSeq → HasSeq client.received m ∨ client.Announced m
  /-- What is announced is gone for good. -/
  evicted : ∀ m, client.Announced m → m ≤ ((stored.length - c : ℕ) : ℤ)

namespace Following

variable {stored : List Event} {c : ℕ} {client : Client} {limit : ℤ}

theorem new (stored : List Event) (c : ℕ) : Following stored c {} :=
  ⟨by simp [Client.received], by simp [Client.received], rfl,
    fun m hm hle => absurd (hm.trans hle) (by decide), by rintro m ⟨p, hp, -⟩; simp at hp⟩

/-- More is stored, and more is evicted. -/
theorem append (h : Following stored c client) (es : List Event) :
    Following (stored ++ es) c client := by
  refine ⟨fun e he => List.mem_append_left _ (h.mem e he), h.ordered, h.sinceSeq, h.covered, ?_⟩
  intro m hm
  have hlen := h.evicted m hm
  rw [List.length_append]
  omega

/-- Where it is, is within what is stored. -/
theorem low_high (h : Following stored c client) (hrun : IsRun 1 (stored.map Event.seq)) :
    0 ≤ client.sinceSeq ∧ client.sinceSeq ≤ stored.length := by
  rw [h.sinceSeq]
  cases hl : client.received.getLast? with
  | none => simp
  | some e =>
    have hseq := (hasSeq_iff_of_isRun hrun e.seq).mp ⟨e, h.mem e (List.mem_of_getLast? hl), rfl⟩
    show 0 ≤ e.seq ∧ e.seq ≤ stored.length
    omega

theorem low (h : Following stored c client) (hrun : IsRun 1 (stored.map Event.seq)) :
    0 ≤ client.sinceSeq := (h.low_high hrun).1

theorem high (h : Following stored c client) (hrun : IsRun 1 (stored.map Event.seq)) :
    client.sinceSeq ≤ stored.length := (h.low_high hrun).2

/-- What it has received is no further up than where it is. -/
theorem seq_le (h : Following stored c client) {e : Event} (he : e ∈ client.received) :
    e.seq ≤ client.sinceSeq := by
  have hordered := h.ordered
  rw [h.sinceSeq]
  cases hl : client.received using List.reverseRecOn with
  | nil => rw [hl] at he; simp at he
  | append_singleton l x _ =>
    rw [hl] at he hordered
    rw [List.getLast?_concat]
    show e.seq ≤ x.seq
    rcases List.mem_append.mp he with he | he
    · rw [List.map_append, List.pairwise_append] at hordered
      exact (hordered.2.2 e.seq (List.mem_map_of_mem he) x.seq (by simp)).le
    · rw [List.mem_singleton.mp he]

/-- Being at the end is having the last event stored. -/
theorem sinceSeq_eq_length_iff (h : Following stored c client)
    (hrun : IsRun 1 (stored.map Event.seq)) :
    client.sinceSeq = stored.length ↔ ∀ e ∈ stored.getLast?, e ∈ client.received := by
  have hlast : ∀ e ∈ stored.getLast?, e.seq = stored.length := by
    intro e he
    have hne : stored.map Event.seq ≠ [] := by
      intro hnil
      rw [List.map_eq_nil_iff.mp hnil] at he
      simp at he
    have heq := getLast?_eq hrun hne
    rw [List.getLast?_map, he, List.length_map, Option.map_some, Option.some.injEq] at heq
    omega
  constructor
  · intro heq e he
    have hseq := hlast e he
    have hpos : 0 < stored.length := List.length_pos_of_mem (List.mem_of_getLast? he)
    have hsince := h.sinceSeq
    cases hl : client.received.getLast? with
    | none =>
      rw [hl, Option.map_none, Option.getD_none] at hsince
      omega
    | some x =>
      rw [hl, Option.map_some, Option.getD_some] at hsince
      have hx := List.mem_of_getLast? hl
      have hxe : x = e := List.inj_on_of_nodup_map (nodup hrun) (h.mem x hx)
        (List.mem_of_getLast? he) (by omega)
      exact hxe ▸ hx
  · intro hall
    cases hl : stored.getLast? with
    | none =>
      have hnil : stored = [] := List.getLast?_eq_none_iff.mp hl
      have hlow := h.low hrun
      have hhigh := h.high hrun
      rw [hnil] at hhigh ⊢
      exact le_antisymm hhigh hlow
    | some e =>
      have hle := h.seq_le (hall e hl)
      have hseq := hlast e hl
      have hhigh := h.high hrun
      omega

/-- Up to where a page leads, every number was received or announced. -/
theorem covered_take (h : Following stored c client) {page : EventPage}
    (hpage : RetainedPage stored c client.sinceSeq limit page) {m : ℤ} (hm : 1 ≤ m)
    (hle : m ≤ page.nextSeq) :
    HasSeq (client.take page).received m ∨ (client.take page).Announced m := by
  rw [Client.received_take, Client.announced_take]
  by_cases hold : m ≤ client.sinceSeq
  · rcases h.covered m hm hold with ⟨e, he, heq⟩ | hann
    · exact Or.inl ⟨e, List.mem_append_left _ he, heq⟩
    · exact Or.inr (Or.inl hann)
  · -- the page reaches beyond `m`: it holds it, unless `m` is before its first number
    rw [hpage.nextSeq] at hle
    cases hl : page.events.getLast? with
    | none =>
      rw [hl, Option.map_none, Option.getD_none] at hle
      exact absurd hle hold
    | some e =>
      rw [hl, Option.map_some, Option.getD_some] at hle
      have hmem := List.mem_of_getLast? hl
      have hseq := hasSeq_iff_of_isRun hpage.events.isRun
      have hlast := (hseq e.seq).mp ⟨e, hmem, rfl⟩
      by_cases hin : max (client.sinceSeq + 1) (((stored.length - c : ℕ) : ℤ) + 1) ≤ m
      · obtain ⟨x, hx, heq⟩ := (hseq m).mpr ⟨hin, by omega⟩
        exact Or.inl ⟨x, List.mem_append_right _ hx, heq⟩
      · have hlt := not_le.mp hin
        have htrunc := hpage.truncated.mpr (by omega)
        obtain ⟨o, ho⟩ := hpage.exists_oldestSeq htrunc
        have hoeq := hpage.oldestSeq o ho
        exact Or.inr (Or.inr ⟨htrunc, by omega, o, ho, by omega⟩)

/-- A client that is given a page of what is retained. -/
theorem take_page (h : Following stored c client) {page : EventPage}
    (hpage : RetainedPage stored c client.sinceSeq limit page) :
    Following stored c (client.take page) := by
  refine ⟨?_, ?_, ?_, fun m hm hle => h.covered_take hpage hm hle, ?_⟩
  · intro e he
    rw [Client.received_take] at he
    rcases List.mem_append.mp he with he | he
    · exact h.mem e he
    · exact List.mem_of_mem_drop (hpage.events.mem he)
  · rw [Client.received_take, List.map_append, List.pairwise_append]
    refine ⟨h.ordered, pairwise_lt hpage.events.isRun, ?_⟩
    intro a ha b hb
    obtain ⟨e, he, rfl⟩ := List.mem_map.mp ha
    have hle := h.seq_le he
    have hb' := (mem_iff hpage.events.isRun b).mp hb
    omega
  · rw [Client.sinceSeq_take, Client.received_take, hpage.nextSeq, List.getLast?_append]
    cases page.events.getLast? with
    -- an empty page leaves the client where it was
    | none => exact h.sinceSeq
    | some e => rfl
  · intro m hm
    rcases Client.announced_take.mp hm with hann | ⟨-, -, o, ho, hlt⟩
    · exact h.evicted m hann
    · have := hpage.oldestSeq o ho
      omega

/-- **One call.** -/
theorem take (h : Following stored c client) (hrun : IsRun 1 (stored.map Event.seq)) (hc : 1 ≤ c)
    (hlimit : 1 ≤ limit) :
    Following stored c
      (client.take (eventPage (sortedBySeq (stored.rtake c)) client.sinceSeq limit)) :=
  h.take_page (retainedPage_eventPage hrun hc (h.low hrun) hlimit)

/-- A retained event that the client is past was received. -/
theorem received_of_retained (h : Following stored c client) (hrun : IsRun 1 (stored.map Event.seq))
    {e : Event} (he : e ∈ stored.rtake c) (hle : e.seq ≤ client.sinceSeq) :
    e ∈ client.received := by
  have hret := (hasSeq_iff_of_isRun (isRun_rtake hrun c) e.seq).mp ⟨e, he, rfl⟩
  rcases h.covered e.seq (by omega) hle with ⟨x, hx, hseq⟩ | hann
  · have hxe : x = e := List.inj_on_of_nodup_map (nodup hrun) (h.mem x hx)
      (List.mem_of_mem_drop he) hseq
    exact hxe ▸ hx
  · have := h.evicted e.seq hann
    omega

end Following

/-! ### A quiet poll -/

/-- An atom without its metadata. -/
def AtomSnapshot.withoutMeta (atom : AtomSnapshot) : AtomSnapshot := { atom with «meta» := ∅ }

/-- The snapshots agree on everything but the observation time and metadata. -/
structure Unchanged (old new : FlowSnapshot) : Prop where
  flow : { new with observedAt := old.observedAt, «meta» := old.«meta», atoms := old.atoms } = old
  atoms : ∀ name, (new.atoms.get? name).map AtomSnapshot.withoutMeta
    = (old.atoms.get? name).map AtomSnapshot.withoutMeta

theorem Unchanged.sameProgress {old new : FlowSnapshot} (h : Unchanged old new) :
    SameProgress old new := by
  refine ⟨(congrArg FlowSnapshot.state h.flow).symm, ?_⟩
  intro name current hcurrent
  have hatom := h.atoms name
  rw [hcurrent, Option.map_some] at hatom
  obtain ⟨before, hbefore, hsame⟩ := Option.map_eq_some_iff.mp hatom.symm
  have hstate := congrArg AtomSnapshot.state hsame
  have hprogress := congrArg AtomSnapshot.progress hsame
  have hdetails := congrArg AtomSnapshot.progressDetails hsame
  exact ⟨before, hbefore, hstate, hprogress, hdetails⟩

namespace Watching

/-- What is read of a run has not changed since it was last read. -/
def UnchangedSince (r : String) (before content : List FlowSnapshot) : Prop :=
  ∀ s ∈ content, s.runId = r → ∃ o, lastRead r before = some o ∧ Unchanged o s

/-- During a poll that finds a run unchanged: nothing was produced for the run, and what
is left to look at is unchanged. -/
structure Quiet (r : String) (w₀ w : Watching) : Prop where
  produced : ofRun r w.produced = ofRun r w₀.produced
  pending : ∀ pass, w.pass = some pass → w.poller.previous = w₀.poller.previous
    ∧ UnchangedSince r w₀.content pass.pending

theorem Quiet.look {r : String} {w₀ w : Watching} (hrem : Remembers w₀) (h : Quiet r w₀ w)
    {pass : Pass} (hpass : w.pass = some pass) {snapshot : FlowSnapshot} {rest : List FlowSnapshot}
    (hpend : pass.pending = snapshot :: rest) : Quiet r w₀ (w.look pass snapshot rest) := by
  obtain ⟨events, allocator, hstamp, hpoller, -, -, ⟨p, hp, hrest, -, -⟩, hproduced, -, -, -⟩ :=
    look_eq w pass snapshot rest
  obtain ⟨hprev, hleft⟩ := h.pending pass hpass
  have hevents : events = (stampAll snapshot.runId snapshot.observedAt w.poller.allocator
      (diffEvents (w.poller.previous.get? snapshot.runId) snapshot)).1 := by rw [hstamp]
  refine ⟨?_, ?_⟩
  · rw [hproduced, ofRun_append, h.produced]
    by_cases hr : r = snapshot.runId
    · obtain ⟨o, ho, hun⟩ := hleft snapshot (hpend ▸ List.mem_cons_self) hr.symm
      rw [← hrem.previous, hr, ← hprev] at ho
      rw [hevents, ho, diffEvents_eq_nil hun.sameProgress]
      exact List.append_nil _
    · have hof : ∀ e ∈ events, e.runId = snapshot.runId := by
        rw [hevents]
        exact runId_of_mem_stampAll fun e he => runId_of_mem_diffEvents he
      rw [ofRun_eq_nil hof hr, List.append_nil]
  · intro p' hp'
    obtain rfl := Option.some.inj (hp.symm.trans hp')
    refine ⟨by rw [hpoller]; exact hprev, ?_⟩
    intro s hs
    rw [hrest] at hs
    exact hleft s (hpend ▸ List.mem_cons_of_mem _ hs)

theorem Quiet.step {r runId : String} {w₀ w : Watching} (hrem : Remembers w₀) (h : Quiet r w₀ w)
    {m : Move} (hm : ∀ content, m ≠ .poll content) : Quiet r w₀ (w.step runId m) := by
  cases m with
  | poll content => exact absurd rfl (hm content)
  | call limit => exact ⟨h.produced, h.pending⟩
  | work =>
    show Quiet r w₀ w.work
    rw [work]
    cases hpass : w.pass with
    | none => exact h
    | some pass =>
      dsimp only
      split
      · next event rest hout =>
        -- writing adds nothing to what is produced
        obtain ⟨batch, p, -, hp, hpend, -, -, -, hpoller, -, hproduced, -⟩ :=
          write_eq w pass event rest
        refine ⟨hproduced ▸ h.produced, ?_⟩
        intro p' hp'
        obtain rfl := Option.some.inj (hp.symm.trans hp')
        rw [hpoller, hpend]
        exact h.pending pass hpass
      · next snapshot rest hout hpend => exact h.look hrem hpass hpend
      · next hout hpend =>
        refine ⟨h.produced, ?_⟩
        intro p hp
        simp [finish] at hp

/-- **A poll adds nothing for a run that has not changed**, however far it has got. -/
theorem produced_of_unchanged {r runId : String} {w : Watching} (hrem : Remembers w)
    (hidle : w.pass = none) {content : List FlowSnapshot}
    (hunchanged : UnchangedSince r w.content content) {moves : List Move}
    (hmoves : ∀ m ∈ moves, ∀ other, m ≠ .poll other) :
    ofRun r (run (step runId) w (.poll content :: moves)).produced = ofRun r w.produced := by
  suffices hquiet : Quiet r w (run (step runId) w (.poll content :: moves)) from hquiet.produced
  induction moves using List.reverseRecOn with
  | nil =>
    show Quiet r w (w.step runId (.poll content))
    rw [step, hidle]
    refine ⟨rfl, ?_⟩
    intro pass hp
    obtain rfl := Option.some.inj hp
    exact ⟨rfl, hunchanged⟩
  | append_singleton moves m ih =>
    rw [← List.cons_append, run_concat]
    have hprev := ih fun x hx => hmoves x (List.mem_append_left _ hx)
    exact hprev.step hrem (hmoves m (by simp))

/-! ### The stream -/

/-- What holds at any moment of the stream of a poller over a history of `c` events, for a
client of the run `runId`. -/
structure StreamLaws (c : ℕ) (runId : String) (w : Watching) : Prop where
  /-- Each run's events are numbered 1, 2, 3, … in the order in which they are emitted. -/
  numbered : ∀ r, IsRun 1 ((ofRun r w.produced).map Event.seq)
  emission : w.applied <+: w.produced
  held : ∀ r, w.sink.held r = (ofRun r w.applied).rtake c
  /-- A poll of an unchanged run adds none. -/
  quiet : ∀ r content moves, w.pass = none → UnchangedSince r w.content content →
    (∀ m ∈ moves, ∀ other, m ≠ .poll other) →
    ofRun r (run (step runId) w (.poll content :: moves)).produced = ofRun r w.produced
  /-- The next page, whatever its limit. -/
  page : ∀ limit, 1 ≤ limit → ∃ page,
    w.sink.eventsSince runId w.client.sinceSeq limit = .ok page
      ∧ PageLaws (ofRun runId w.applied) c w.client.sinceSeq page
      ∧ (page.events = [] ↔ ∀ e ∈ (ofRun runId w.applied).getLast?, e ∈ w.client.received)
  /-- What the client has been given, and told. -/
  following : Following (ofRun runId w.applied) c w.client
  received : ∀ e ∈ w.sink.held runId, e.seq ≤ w.client.sinceSeq → e ∈ w.client.received

/-- The history of each run is the last `c` of the events written. -/
theorem held_run {c : ℕ} {store : MemoryDataSource} (hstore : MemoryDataSource.init c = .ok store)
    (runId : String) (moves : List Move) (r : String) :
    (run (step runId) { sink := .memory store } moves).sink.held r
      = (ofRun r (run (step runId) { sink := .memory store } moves).applied).rtake c := by
  obtain ⟨-, hcap, hmax, hruns⟩ := MemoryDataSource.init_eq_ok hstore
  have hempty : store.held r = [] := by
    rw [MemoryDataSource.held, hruns]
    rfl
  rw [(fed_run (.memory store) runId moves).held_eq]
  refine (MemoryDataSource.held_applyMany (Or.inl hmax) r).trans ?_
  rw [hempty, List.nil_append, hcap]
  rfl

/-- What is written of a run is the beginning of what is produced of it. -/
theorem Counted.isRun_applied {w : Watching} (h : Counted w) (r : String) :
    IsRun 1 ((ofRun r w.applied).map Event.seq) := by
  have hrun := h.isRun r
  rw [h.produced, ofRun_append, List.map_append, isRun_append] at hrun
  exact hrun.1

theorem following_run {c : ℕ} {store : MemoryDataSource}
    (hstore : MemoryDataSource.init c = .ok store) (runId : String) {moves : List Move}
    (hlimits : ∀ limit, Move.call limit ∈ moves → 1 ≤ limit) :
    Following (ofRun runId (run (step runId) { sink := .memory store } moves).applied) c
      (run (step runId) { sink := .memory store } moves).client := by
  induction moves using List.reverseRecOn with
  | nil => exact Following.new [] c
  | append_singleton moves m ih =>
    have hprev := ih fun limit hl => hlimits limit (List.mem_append_left _ hl)
    have hrun := (counted_run (.memory store) runId moves).isRun_applied runId
    have hheld := held_run hstore runId moves runId
    rw [run_concat]
    set w := run (step runId) { sink := .memory store } moves
    cases m with
    | poll content =>
      rw [step]
      cases w.pass <;> exact hprev
    | work =>
      obtain ⟨hclient, ⟨-, happlied⟩ | ⟨batch, -, happlied⟩⟩ := w.work_feeds
      · show Following (ofRun runId w.work.applied) c w.work.client
        rw [hclient, happlied]
        exact hprev
      · show Following (ofRun runId w.work.applied) c w.work.client
        rw [hclient, happlied, ofRun_append]
        exact hprev.append _
    | call limit =>
      have hlimit : 1 ≤ limit := hlimits limit (by simp)
      show Following _ c (w.client.call (w.sink.eventsSince runId) limit)
      rw [Client.call_eq hlimit, hheld]
      exact hprev.take hrun (MemoryDataSource.init_eq_ok hstore).1 hlimit

/-- **The client sees every retained event once, in order, and every hole is announced**,
whatever the source reports and however polls, writes and calls interleave. -/
theorem poller_stream {c : ℕ} {store : MemoryDataSource}
    (hstore : MemoryDataSource.init c = .ok store) (runId : String) {moves : List Move}
    (hlimits : ∀ limit, Move.call limit ∈ moves → 1 ≤ limit) :
    StreamLaws c runId (run (step runId) { sink := .memory store } moves) := by
  have hcounted := counted_run (.memory store) runId moves
  have hfollowing := following_run hstore runId hlimits
  have hheld := held_run hstore runId moves
  have hrun := hcounted.isRun_applied runId
  refine ⟨hcounted.isRun, ?_, hheld, ?_, ?_, hfollowing, ?_⟩
  · rw [hcounted.produced]
    exact List.prefix_append _ _
  · intro r content after hidle hunchanged hafter
    exact produced_of_unchanged (remembers_run _ runId moves) hidle hunchanged hafter
  · intro limit hlimit
    have hpage := pageLaws_eventPage hrun (MemoryDataSource.init_eq_ok hstore).1
        (hfollowing.low hrun)
      (hfollowing.high hrun) hlimit
    refine ⟨_, WritableDataSource.eventsSince_eq _ runId _ hlimit, ?_⟩
    rw [hheld]
    exact ⟨hpage, hpage.eq_nil_iff.trans (hfollowing.sinceSeq_eq_length_iff hrun)⟩
  · intro e he hle
    rw [hheld] at he
    exact hfollowing.received_of_retained hrun he hle

/-- A flow with one atom. -/
def oneAtom (state atomState : String) : FlowSnapshot where
  runId := "run-1"
  state := some state
  atoms := (∅ : Dict String AtomSnapshot).set "a" { name := "a", state := some atomState }

/-- Three polls, the last of which finds nothing new; of each run only the last event is
kept, and the client comes too late for the second. -/
theorem poller_stream_keeps_one :
    StreamLaws 1 "run-1" (run (step "run-1") { sink := .memory { maxEventsPerRun := 1 } }
      [.poll [oneAtom "RUNNING" "PENDING"], .work, .work, .call 1, .work, .work,
        .poll [oneAtom "RUNNING" "RUNNING"], .work, .work, .call 1, .work, .call 1,
        .poll [oneAtom "RUNNING" "RUNNING"], .work, .work]) := by
  have hstore : MemoryDataSource.init 1 = .ok { maxEventsPerRun := 1 } := rfl
  refine poller_stream hstore "run-1" ?_
  intro limit hmem
  simp only [List.mem_cons, Move.call.injEq, reduceCtorEq, false_or, List.not_mem_nil,
    or_false] at hmem
  omega

end Watching

end TaskflowMeter
