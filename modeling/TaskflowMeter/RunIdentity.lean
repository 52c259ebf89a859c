import TaskflowMeter.RoundTripLaws

/-!
# The identity of a run

A run's name, book and book name are sent once, with the first event about the flow
itself.  A store learns them in two places: from whichever event of the run comes
first, and, the name only, from a flow-state event.

* `SameIdentity` — a stored flow has the name and the book of a snapshot.
* `storedAfter_identity_iff` — **the store keeps the identity after every poll exactly
  when the run was not first seen finished, with atoms and with a book name.**
-/

namespace TaskflowMeter

open LastWrite

/-- A flow has a snapshot's name and book. -/
structure SameIdentity (f s : FlowSnapshot) : Prop where
  name : f.name = s.name
  bookId : f.bookId = s.bookId
  bookName : f.bookName = s.bookName

/-- The snapshots all have one name, one book and one book name. -/
def OneIdentity (snapshots : List FlowSnapshot) : Prop :=
  snapshots.Pairwise SameIdentity

theorem SameIdentity.refl (f : FlowSnapshot) : SameIdentity f f := ⟨rfl, rfl, rfl⟩

/-! ### What a diff says of the name -/

theorem sayName_of_kind {e : Event} (h : e.kind ≠ .flowState) : sayName e = none := by
  simp [sayName, h]

theorem filterMap_sayName_atomEvents (old : Option FlowSnapshot) (new : FlowSnapshot) :
    (atomEvents old new).filterMap sayName = [] := by
  rw [List.filterMap_eq_nil_iff]
  intro e he
  rcases (kind_of_mem_atomEvents he).1 with hk | hk <;> exact sayName_of_kind (by simp [hk])

/-- The first diff of a run says its name, unless that is empty. -/
theorem lastSaid_sayName_first (new : FlowSnapshot) :
    lastSaid sayName (diffEvents none new) = if new.name = "" then none else some new.name := by
  have hflow : (flowEvents none new).filterMap sayName
      = if new.name = "" then [] else [new.name] := by
    cases hb : new.bookName <;> by_cases hn : new.name = "" <;>
      simp [flowEvents, newEvent, sayName, optionalStr, Event.detail, Dict.getD, Dict.get?_set,
        Option.filter, hb, hn]
  rw [lastSaid, diffEvents]
  split <;> rw [List.filterMap_append, filterMap_sayName_atomEvents, hflow] <;> split <;> simp_all

/-- Later diffs do not repeat it. -/
theorem lastSaid_sayName_later (old new : FlowSnapshot) :
    lastSaid sayName (diffEvents (some old) new) = none := by
  have hflow : (flowEvents (some old) new).filterMap sayName = [] := by
    by_cases h : old.state = new.state <;>
      simp [flowEvents, newEvent, sayName, optionalStr, Event.detail, h]
  rw [lastSaid, diffEvents]
  split <;> rw [List.filterMap_append, filterMap_sayName_atomEvents, hflow] <;> rfl

/-! ### The seed -/

/-- An atom event carries the book's id, and nothing else of the identity. -/
theorem identity_of_mem_atomEvents {old : Option FlowSnapshot} {new : FlowSnapshot} {e : Event}
    (h : e ∈ atomEvents old new) :
    e.bookId = new.bookId ∧ e.details.get? "flow_name" = none
      ∧ e.details.get? "book_name" = none := by
  obtain ⟨name, current, -, he⟩ := mem_atomEvents h
  rcases mem_atomChange he with rfl | rfl
  · refine ⟨rfl, ?_, ?_⟩ <;> unfold atomStateEvent newEvent <;> dsimp only <;> split_ifs <;>
      simp [Dict.get?_set]
  · refine ⟨rfl, ?_, ?_⟩ <;> unfold atomProgressEvent newEvent <;> dsimp only <;> split_ifs <;>
      simp [Dict.get?_set]

/-- A new atom always has an event. -/
theorem atomEvents_none_eq_nil_iff (new : FlowSnapshot) :
    atomEvents none new = [] ↔ new.atoms.keys = [] := by
  rw [atomEvents, List.flatMap_eq_nil_iff]
  constructor
  · intro h
    by_contra hne
    obtain ⟨name, hname⟩ := List.exists_mem_of_ne_nil _ hne
    obtain ⟨current, hc⟩ := Dict.mem_keys_iff.mp hname
    have hnil := h name (FlowSnapshot.mem_atomNames.mpr hname)
    simp [hc, atomChange, stateChanged] at hnil
  · intro h name hname
    rw [FlowSnapshot.mem_atomNames, h] at hname
    simp at hname

/-- The book's name reaches the seed only through the flow's own event. -/
def firstBookName (new : FlowSnapshot) : Option String :=
  if new.isFinished ∧ new.atoms.keys ≠ [] then none else new.bookName

theorem head?_pollEvents (old : Option FlowSnapshot) (new : FlowSnapshot) (a : SequenceAllocator) :
    (pollEvents old new a).head?
      = (diffEvents old new).head?.map
          fun e => { e with seq := a.peek new.runId + 1, ts := new.observedAt } := by
  rw [pollEvents]
  cases diffEvents old new <;> rfl

/-- The seed of a run: the identity as far as its first event carries it. -/
theorem foldBase_first (new : FlowSnapshot) (a : SequenceAllocator) :
    (foldBase none (pollEvents none new a)).bookId = new.bookId
      ∧ (foldBase none (pollEvents none new a)).bookName = firstBookName new
      ∧ (new.name = "" → (foldBase none (pollEvents none new a)).name = "") := by
  have hflow : ∀ e ∈ (flowEvents none new).head?, e.bookId = new.bookId
      ∧ optionalStr (e.detail "book_name") = new.bookName
      ∧ (new.name = "" → (e.details.getD "flow_name" (.str "")).pyStr = "") := by
    cases hb : new.bookName <;>
      simp [flowEvents, newEvent, Event.detail, Dict.getD, Dict.get?_set, optionalStr, hb]
  obtain ⟨e, he⟩ : ∃ e, (diffEvents none new).head? = some e := by
    cases h : diffEvents none new with
    | nil => exact absurd h (diffEvents_none_ne_nil new)
    | cons e es => exact ⟨e, rfl⟩
  rw [foldBase, head?_pollEvents, he]
  simp only [Option.getD_none, Option.map_some, Option.getD_some, flowFromEvent]
  by_cases hatoms : new.isFinished ∧ new.atoms.keys ≠ []
  · -- first seen finished and with atoms: an atom's event comes first
    have hmem : e ∈ atomEvents none new := by
      rw [diffEvents, if_pos hatoms.1] at he
      cases h : atomEvents none new with
      | nil => exact absurd ((atomEvents_none_eq_nil_iff new).mp h) hatoms.2
      | cons e' es =>
        rw [h, List.cons_append, List.head?_cons, Option.some.injEq] at he
        rw [he]
        exact List.mem_cons_self
    obtain ⟨hid, hname, hbook⟩ := identity_of_mem_atomEvents hmem
    refine ⟨hid, ?_, fun _ => ?_⟩
    · rw [firstBookName, if_pos hatoms]
      show optionalStr (e.details.getD "book_name" .null) = none
      rw [Dict.getD, hbook]
      rfl
    · show (e.details.getD "flow_name" (.str "")).pyStr = ""
      rw [Dict.getD, hname]
      rfl
  · -- otherwise the flow's own event does
    have hfirst : e ∈ (flowEvents none new).head? := by
      rw [diffEvents] at he
      split at he
      · next hfin =>
        have hnil : atomEvents none new = [] := by
          rw [atomEvents_none_eq_nil_iff]
          by_contra hne
          exact hatoms ⟨hfin, hne⟩
        rwa [hnil] at he
      · rwa [List.head?_append_of_ne_nil _ (by simp [flowEvents])] at he
    obtain ⟨hid, hbook, hname⟩ := hflow e hfirst
    refine ⟨hid, ?_, hname⟩
    rw [firstBookName, if_neg hatoms]
    exact hbook

/-! ### The polls -/

/-- After its first poll a run has its name and its book, and the book's name if the
first event carried it. -/
theorem identity_first (new : FlowSnapshot) (a : SequenceAllocator) :
    ∃ f, applyEvents none (pollEvents none new a) = some f ∧ f.name = new.name
      ∧ f.bookId = new.bookId ∧ f.bookName = firstBookName new := by
  obtain ⟨hid, hbook, hname⟩ := foldBase_first new a
  refine ⟨_, applyEvents_eq fun _ => pollEvents_none_ne_nil new a, ?_, ?_, ?_⟩
  · rw [name_foldl, pollEvents, lastSaid_stampAll sayName_unstamped, lastSaid_sayName_first]
    by_cases hn : new.name = ""
    · rw [if_pos hn, Option.getD_none, ← pollEvents, hname hn, hn]
    · rw [if_neg hn, Option.getD_some]
  · rw [bookId_foldl, hid]
  · rw [bookName_foldl, hbook]

/-- Later polls leave the identity alone. -/
theorem identity_later (f old new : FlowSnapshot) (a : SequenceAllocator) :
    ∃ f', applyEvents (some f) (pollEvents (some old) new a) = some f' ∧ SameIdentity f' f := by
  refine ⟨_, applyEvents_some f _, ?_, bookId_foldl f _, bookName_foldl f _⟩
  rw [name_foldl, pollEvents, lastSaid_stampAll sayName_unstamped, lastSaid_sayName_later]
  rfl

/-- What a store holds of a run's identity, whatever the number of polls. -/
theorem identity_storedAfter {runId : String} {s₀ : FlowSnapshot} {l : List FlowSnapshot}
    (h : OfRun runId (s₀ :: l)) (allocator : SequenceAllocator) :
    ∃ f, storedAfter allocator (s₀ :: l) = some f ∧ f.name = s₀.name ∧ f.bookId = s₀.bookId
      ∧ f.bookName = firstBookName s₀ := by
  induction l using List.reverseRecOn with
  | nil =>
    obtain ⟨a, ha⟩ := storedAfter_concat (l := []) allocator h
    rw [List.nil_append] at ha
    rw [ha]
    exact identity_first s₀ a
  | append_singleton l s ih =>
    have hpre : OfRun runId (s₀ :: l) := fun x hx => h x (by
      rw [← List.cons_append]; exact List.mem_append_left _ hx)
    obtain ⟨f, hf, hname, hid, hbook⟩ := ih hpre
    rw [← List.cons_append] at h ⊢
    obtain ⟨a, ha⟩ := storedAfter_concat allocator h
    obtain ⟨o, ho⟩ : ∃ o, (s₀ :: l).getLast? = some o :=
      ⟨_, List.getLast?_eq_some_getLast (List.cons_ne_nil s₀ l)⟩
    obtain ⟨f', hf', hsame⟩ := identity_later f o s a
    rw [ha, hf, ho]
    exact ⟨f', hf', hsame.name.trans hname, hsame.bookId.trans hid, hsame.bookName.trans hbook⟩

/-- **The store keeps the run's identity after every poll exactly when the run was
not first seen finished, with atoms and with a book name.** -/
theorem storedAfter_identity_iff {runId : String} {s₀ : FlowSnapshot} {rest : List FlowSnapshot}
    (h : OfRun runId (s₀ :: rest)) (hone : OneIdentity (s₀ :: rest))
    (allocator : SequenceAllocator) :
    (∀ l s post, s₀ :: rest = l ++ s :: post →
      ∃ f, storedAfter allocator (l ++ [s]) = some f ∧ SameIdentity f s)
      ↔ s₀.bookName = none ∨ s₀.isFinished = false ∨ s₀.atoms.keys = [] := by
  have hfirst : firstBookName s₀ = s₀.bookName
      ↔ s₀.bookName = none ∨ s₀.isFinished = false ∨ s₀.atoms.keys = [] := by
    rw [firstBookName]
    cases s₀.bookName <;> cases s₀.isFinished <;> simp
  rw [← hfirst]
  constructor
  · intro hall
    obtain ⟨f, hf, hsame⟩ := hall [] s₀ rest rfl
    obtain ⟨g, hg, -, -, hbook⟩ := identity_storedAfter (l := [])
      (fun x hx => h x (List.mem_cons.mpr (Or.inl (List.mem_singleton.mp hx)))) allocator
    rw [List.nil_append, hg, Option.some.injEq] at hf
    rw [← hbook, hf, hsame.bookName]
  · intro hkeeps l s post hsplit
    cases l with
    | nil =>
      rw [List.nil_append, List.cons.injEq] at hsplit
      obtain ⟨rfl, rfl⟩ := hsplit
      obtain ⟨f, hf, hname, hid, hbook⟩ := identity_storedAfter (l := [])
        (fun x hx => h x (List.mem_cons.mpr (Or.inl (List.mem_singleton.mp hx)))) allocator
      exact ⟨f, hf, hname, hid, hbook.trans hkeeps⟩
    | cons t l =>
      rw [List.cons_append, List.cons.injEq] at hsplit
      obtain ⟨rfl, hrest⟩ := hsplit
      have hs : s ∈ rest := hrest ▸ List.mem_append_right l List.mem_cons_self
      have hsame : SameIdentity s₀ s := (List.pairwise_cons.mp hone).1 s hs
      obtain ⟨f, hf, hname, hid, hbook⟩ := identity_storedAfter (l := l ++ [s])
        (fun x hx => h x (by rw [hrest]; simp at hx ⊢; tauto)) allocator
      exact ⟨f, hf, hname.trans hsame.name, hid.trans hsame.bookId,
        hbook.trans (hkeeps.trans hsame.bookName)⟩

/-- A run that had finished before anybody looked. -/
def firstSeenFinished : FlowSnapshot where
  runId := "run-1"
  name := "import"
  state := some States.SUCCESS
  bookId := some "book-1"
  bookName := some "nightly"
  atoms := (∅ : Dict String AtomSnapshot).set "a" { name := "a", state := some States.SUCCESS }

/-- Its first event is an atom's, so the book's name is never learnt. -/
theorem bookName_lost_first_seen_finished :
    OneIdentity [firstSeenFinished] ∧
      (storedAfter {} [firstSeenFinished]).map (·.bookName) ≠ some firstSeenFinished.bookName := by
  refine ⟨List.pairwise_singleton _ _, ?_⟩
  decide

/-- The law at that run, watched once more after it finished. -/
theorem storedAfter_identity_first_seen_finished :
    ¬∀ l s post, [firstSeenFinished, firstSeenFinished] = l ++ s :: post →
      ∃ f, storedAfter {} (l ++ [s]) = some f ∧ SameIdentity f s := by
  have hrun : OfRun "run-1" [firstSeenFinished, firstSeenFinished] := by decide
  have hone : OneIdentity [firstSeenFinished, firstSeenFinished] := by
    simp [OneIdentity, SameIdentity.refl]
  intro hall
  rcases (storedAfter_identity_iff hrun hone {}).mp hall with h | h | h <;> revert h <;> decide

end TaskflowMeter
