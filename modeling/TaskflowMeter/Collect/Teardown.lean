import TaskflowMeter.Collect.Receivers

/-!
# Everything is torn down on the way out

For as long as a block runs, an engine is watched: publishers are started, a sender runs, a listener
is registered with the engine and a callback with each of its tasks.  All of this is with others,
whose calls may raise at any point.

## Main definitions

* `Resource` — what is with others while an engine is watched.
* `Host` — what the calls to them come to.
* `attach` — a block, with what comes before it and after.
* `left` — what is left when the block is over.

## Main results

* `held_attach` — **what is left of a block**, however it ends.
* `attach_leaves_nothing_iff` — **nothing is left exactly when no start and no registration raises
  after one that did not**, and nobody refuses to let go.
-/

namespace TaskflowMeter

open Effects

/-- What is with others while an engine is watched. -/
inductive Resource where
  | publisher (name : String)
  | sender
  | listener
  | callback (atom : String)
  deriving DecidableEq, Repr

/-- A publisher, and what its `start` and `stop` raise. -/
structure PublisherCalls where
  name : String
  starting : Option String := none
  stopping : Option String := none

/-- An atom of the compiled graph, and what its notifier does. -/
structure GraphAtom where
  name : String
  isTask : Bool := true
  canBeRegistered : Except String Bool := .ok true
  registering : Option String := none
  deregistering : Option String := none

/-- What the calls come to that are made to others. -/
structure Host where
  publishers : List PublisherCalls
  /-- What starting the thread raises. -/
  thread : Option String := none
  /-- Why the sender has not ended when `join` returns. -/
  joining : Option String := none
  /-- What the listener raises on the way in, and on the way out. -/
  entering : Option String := none
  exiting : Option String := none
  /-- The atoms, unless the engine cannot be compiled. -/
  atoms : Except String (List GraphAtom) := .ok []
  emitStructure : Bool := true
  graph : Option (Dict String Json) := none
  calls : Calls
  bookId : Option String := none

/-- What watches an engine. -/
structure Watcher (config : PipelineConfig) where
  collecting : Collecting config := {}
  /-- The callbacks that the tap knows of. -/
  bound : List GraphAtom := []
  held : Multiset Resource := 0

namespace Watcher

variable {config : PipelineConfig} {α : Type}

/-- A call that leaves something with others. -/
def acquire (x : Resource) (raises : Option String) : Eff (Watcher config) String Unit :=
  raises.elim (.modify fun s => { s with held := x ::ₘ s.held }) .raise

/-- A call that takes it back. -/
def release (x : Resource) (raises : Option String) : Eff (Watcher config) String Unit :=
  raises.elim (.modify fun s => { s with held := s.held.erase x }) .raise

/-- `EventPipeline.start`. -/
def startPipeline (h : Host) : Eff (Watcher config) String Unit := do
  Eff.forEach (fun p => acquire (.publisher p.name) p.starting) h.publishers
  acquire .sender h.thread

/-- `EventPipeline.stop`.  That something does not stop is only logged. -/
def stopPipeline (h : Host) : Eff (Watcher config) String Unit := do
  Eff.swallow (release .sender h.joining)
  Eff.forEach (fun p => Eff.swallow (release (.publisher p.name) p.stopping)) h.publishers

/-- Only tasks report progress, and not all of them. -/
def bindTo (atom : GraphAtom) : Eff (Watcher config) String Unit :=
  if atom.isTask then do
    let accepts ← Eff.ofExcept atom.canBeRegistered
    if accepts then
      acquire (.callback atom.name) atom.registering >>= fun _ =>
        Eff.modify fun s => { s with bound := s.bound ++ [atom] }
    else pure ()
  else pure ()

/-- `ProgressTap.register`. -/
def register (h : Host) : Eff (Watcher config) String Unit where
  run s := if s.bound.isEmpty then (Eff.ofExcept h.atoms >>= Eff.forEach bindTo).run s else (.ok (), s)

def unbind (atom : GraphAtom) : Eff (Watcher config) String Unit := do
  Eff.modify fun s => { s with bound := s.bound.dropLast }
  Eff.swallow (release (.callback atom.name) atom.deregistering)

/-- `ProgressTap.deregister`: the last is popped first. -/
def deregister : Eff (Watcher config) String Unit where
  run s := (Eff.forEach unbind s.bound.reverse).run s

/-- The structure, where it is wanted. -/
def structureOf (h : Host) : Eff (Watcher config) String Unit :=
  if h.emitStructure then
    Eff.zoom Watcher.collecting (fun collecting s => { s with collecting := collecting })
      (Receiver.emitStructure h.bookId h.calls h.graph)
  else pure ()

/-- Watcher an engine for as long as the block runs. -/
def attach (h : Host) (body : Eff (Watcher config) String α) : Eff (Watcher config) String α := do
  startPipeline h
  Eff.tryFinally
    (do
      acquire .listener h.entering
      Eff.tryFinally
        (do
          register h
          Eff.tryFinally (structureOf h >>= fun _ => body) deregister)
        (release .listener h.exiting))
    (stopPipeline h)

/-! ### What is with others -/

/-- What is with others, and what the tap knows of it. -/
structure At (held : Multiset Resource) (bound : List GraphAtom) (s : Watcher config) : Prop where
  held : s.held = held
  bound : s.bound = bound

/-- What such a call comes to. -/
def outcome (raises : Option String) : Except String Unit := raises.elim (.ok ()) .error

/-- Something that is not given back. -/
def kept (x : Resource) (raises : Option String) : Multiset Resource := if raises.isSome then {x} else 0

variable {held : Multiset Resource} {bound : List GraphAtom}

theorem spec_acquire (x : Resource) (raises : Option String) :
    Spec (At held bound) (acquire x raises : Eff (Watcher config) String Unit) fun r s =>
      r = outcome raises ∧ At (held + if raises.isSome then 0 else {x}) bound s := by
  intro s hs
  cases raises with
  | none =>
    refine ⟨rfl, ?_, hs.bound⟩
    show x ::ₘ s.held = _
    rw [hs.held, ← Multiset.singleton_add, add_comm]
    rfl
  | some e => exact ⟨rfl, hs.held.trans (add_zero held).symm, hs.bound⟩

theorem spec_release (x : Resource) (raises : Option String) :
    Spec (At (held + {x}) bound) (release x raises : Eff (Watcher config) String Unit) fun r s =>
      r = outcome raises ∧ At (held + kept x raises) bound s := by
  intro s hs
  cases raises with
  | none =>
    refine ⟨rfl, ?_, hs.bound⟩
    show s.held.erase x = held + 0
    rw [hs.held, add_comm, Multiset.singleton_add, Multiset.erase_cons_head, add_zero]
  | some e => exact ⟨rfl, hs.held, hs.bound⟩

/-- The same, where it is only logged. -/
theorem spec_close (x : Resource) (raises : Option String) :
    Spec (At (held + {x}) bound) (Eff.swallow (release x raises) : Eff (Watcher config) String Unit)
      fun r s => r = .ok () ∧ At (held + kept x raises) bound s :=
  (spec_release x raises).swallow fun _ _ h => ⟨rfl, h.2⟩

/-! ### The pipeline -/

/-- Resources of a list. -/
def resources {ι : Type} (f : ι → Resource) (l : List ι) : Multiset Resource := ↑(l.map f)

theorem resources_append {ι : Type} (f : ι → Resource) (l l' : List ι) :
    resources f (l ++ l') = resources f l + resources f l' := by
  simp [resources]

theorem resources_singleton {ι : Type} (f : ι → Resource) (x : ι) : resources f [x] = {f x} := rfl

/-- **A loop that leaves something with others for every item**: all the items before the first
whose call raises. -/
theorem spec_acquireAll {ι : Type} (f : ι → Resource) (raises : ι → Option String) (items : List ι) :
    Spec (At held bound)
      (Eff.forEach (fun x => acquire (f x) (raises x)) items : Eff (Watcher config) String Unit)
      fun r s => At (held + resources f (items.takeWhile fun x => (raises x).isNone)) bound s
        ∧ (r = .ok () ↔ items.all (fun x => (raises x).isNone) = true) := by
  induction items generalizing held with
  | nil =>
    intro s hs
    have hnone : At (held + resources f []) bound s := by simpa [resources] using hs
    exact ⟨hnone, by simp [Eff.forEach]⟩
  | cons x items ih =>
    refine (spec_acquire (f x) (raises x)).bind (fun _ s hs => ?_) fun e s hs => ?_
    · obtain ⟨hok, hat⟩ := hs
      cases hraises : raises x with
      | some e => simp [outcome, hraises] at hok
      | none =>
        rw [hraises] at hat
        have hrest := ih s hat
        rw [List.takeWhile_cons, if_pos (by simp [hraises]), List.all_cons, hraises,
          ← List.singleton_append, resources_append, ← add_assoc]
        exact hrest
    · obtain ⟨hok, hat⟩ := hs
      cases hraises : raises x with
      | some e => simpa [hraises, resources] using hat
      | none => simp [outcome, hraises] at hok

/-- **A loop that takes something back for every item**, as far as the calls do not raise. -/
theorem spec_closeAll {ι : Type} (f : ι → Resource) (raises : ι → Option String) (items : List ι) :
    Spec (At (held + resources f items) bound)
      (Eff.forEach (fun x => Eff.swallow (release (f x) (raises x))) items :
        Eff (Watcher config) String Unit)
      fun r s => r = .ok () ∧ At (held + resources f (items.filter fun x => (raises x).isSome)) bound s
    := by
  induction items generalizing held with
  | nil => exact fun s hs => ⟨rfl, hs⟩
  | cons x items ih =>
    have hsplit : ∀ l, held + resources f (x :: l) = held + resources f l + {f x} := by
      intro l
      rw [← List.singleton_append, resources_append, resources_singleton, add_comm {f x}, add_assoc]
    rw [hsplit]
    refine (spec_close (f x) (raises x)).bind (fun _ s hs => ?_) fun e s hs => by simp at hs
    rw [add_right_comm] at hs
    obtain ⟨hok, hat⟩ := ih s hs.2
    refine ⟨hok, ?_⟩
    rw [List.filter_cons]
    cases hraises : raises x with
    | none => simpa [kept, hraises] using hat
    | some e =>
      rw [kept, hraises, Option.isSome_some, if_pos rfl] at hat
      rw [Option.isSome_some, if_pos rfl, hsplit, add_right_comm]
      exact hat

/-- The publishers that are started: those before the first that raises. -/
def opened (h : Host) : List PublisherCalls := h.publishers.takeWhile (·.starting.isNone)

/-- The pipeline starts. -/
def starts (h : Host) : Bool := h.publishers.all (·.starting.isNone) && h.thread.isNone

/-- Publishers, as they are with others. -/
def publishers (sinks : List PublisherCalls) : Multiset Resource :=
  resources (fun p => .publisher p.name) sinks

theorem opened_of_starts {h : Host} (hstarts : starts h = true) : opened h = h.publishers := by
  rw [starts, Bool.and_eq_true, List.all_eq_true] at hstarts
  exact List.takeWhile_eq_self_iff.mpr hstarts.1

theorem spec_startPipeline (h : Host) :
    Spec (At 0 []) (startPipeline h : Eff (Watcher config) String Unit) fun r s =>
      (r = .ok () → starts h = true ∧ At (publishers h.publishers + {.sender}) [] s)
        ∧ ∀ e, r = .error e → starts h = false ∧ At (publishers (opened h)) [] s := by
  refine (spec_acquireAll (fun p : PublisherCalls => .publisher p.name) PublisherCalls.starting h.publishers).bind
    (fun _ s hs => ?_) fun e s hs => ?_
  · obtain ⟨hat, hall⟩ := hs
    have hall := hall.mp rfl
    obtain ⟨hr, hthread⟩ := spec_acquire .sender h.thread s hat
    rw [zero_add] at hthread
    cases hraises : h.thread with
    | none =>
      have hstarts : starts h = true := by rw [starts, hall, hraises]; rfl
      rw [hraises] at hr hthread
      rw [← opened_of_starts hstarts]
      exact ⟨fun _ => ⟨hstarts, hthread⟩, fun e he => by simp [hr, outcome] at he⟩
    | some e =>
      have hstarts : starts h = false := by rw [starts, hall, hraises]; rfl
      rw [hraises] at hr hthread
      have hopened : At (publishers (opened h) + 0) [] _ := hthread
      rw [add_zero] at hopened
      exact ⟨fun hok => by simp [hr, outcome] at hok, fun e _ => ⟨hstarts, hopened⟩⟩
  · obtain ⟨hat, hall⟩ := hs
    rw [zero_add] at hat
    refine ⟨fun hok => by simp at hok, fun e _ => ⟨?_, hat⟩⟩
    have hnot : h.publishers.all (fun p => p.starting.isNone) = false := by
      rw [← Bool.not_eq_true, ← hall]
      simp
    rw [starts, hnot]
    rfl

/-- The publishers that do not stop. -/
def stuck (h : Host) : List PublisherCalls := h.publishers.filter (·.stopping.isSome)

theorem spec_stopPipeline (h : Host) :
    Spec (At (held + (publishers h.publishers + {.sender})) bound)
      (stopPipeline h : Eff (Watcher config) String Unit) fun r s =>
      r = .ok () ∧ At (held + (publishers (stuck h) + kept .sender h.joining)) bound s := by
  rw [← add_assoc]
  refine (spec_close .sender h.joining).bind (fun _ s hs => ?_) fun e s hs => by simp at hs
  rw [add_right_comm] at hs
  obtain ⟨hok, hat⟩ := spec_closeAll (fun p : PublisherCalls => .publisher p.name) PublisherCalls.stopping h.publishers
    s hs.2
  refine ⟨hok, ?_⟩
  rw [add_right_comm, add_assoc] at hat
  exact hat

/-! ### The tap -/

/-- A task that accepts progress listeners. -/
def accepts (atom : GraphAtom) : Bool := atom.isTask && atom.canBeRegistered.toOption.getD false

/-- Binding to it raises. -/
def refuses (atom : GraphAtom) : Bool :=
  atom.isTask && !atom.canBeRegistered.isOk || accepts atom && atom.registering.isSome

/-- Callbacks, as they are with tasks. -/
def callbacks (atoms : List GraphAtom) : Multiset Resource :=
  resources (fun atom => .callback atom.name) atoms

/-- The atoms of a graph that are bound to: those before the first that refuses. -/
def boundOf (atoms : List GraphAtom) : List GraphAtom :=
  (atoms.takeWhile fun atom => !refuses atom).filter accepts

theorem callbacks_append (atoms atoms' : List GraphAtom) :
    callbacks (atoms ++ atoms') = callbacks atoms + callbacks atoms' := resources_append _ _ _

theorem boundOf_singleton (atom : GraphAtom) :
    boundOf [atom] = if !refuses atom && accepts atom then [atom] else [] := by
  cases hrefuses : refuses atom <;> cases haccepts : accepts atom <;>
    simp [boundOf, hrefuses, haccepts]

theorem spec_bindTo (atom : GraphAtom) :
    Spec (At held bound) (bindTo atom : Eff (Watcher config) String Unit) fun r s =>
      (r = .ok () ↔ refuses atom = false)
        ∧ At (held + callbacks (boundOf [atom])) (bound ++ boundOf [atom]) s := by
  intro s hs
  -- an atom that is no task, cannot be registered or raises is not bound to
  have hsame : boundOf [atom] = [] → At (held + callbacks (boundOf [atom]))
      (bound ++ boundOf [atom]) s := by
    intro hnone
    rw [hnone, List.append_nil]
    exact ⟨hs.held.trans (add_zero held).symm, hs.bound⟩
  cases htask : atom.isTask with
  | false =>
    have hskip : (bindTo atom : Eff (Watcher config) String Unit).run s = (.ok (), s) := by
      rw [bindTo, if_neg (by simp [htask])]
      rfl
    rw [hskip]
    exact ⟨by simp [refuses, accepts, htask], hsame (by simp [boundOf_singleton, accepts, htask])⟩
  | true =>
    have hask : (bindTo atom : Eff (Watcher config) String Unit)
        = Eff.ofExcept atom.canBeRegistered >>= fun accepts =>
          if accepts then
            acquire (.callback atom.name) atom.registering >>= fun _ =>
              Eff.modify fun s => { s with bound := s.bound ++ [atom] }
          else pure () := by rw [bindTo, if_pos htask]
    rw [hask]
    cases hcan : atom.canBeRegistered with
    | error e =>
      rw [Eff.run_bind_of_error rfl]
      have hrefuses : refuses atom = true := by simp [refuses, htask, hcan, Except.isOk, Except.toBool]
      exact ⟨by simp [hrefuses], hsame (by simp [boundOf_singleton, hrefuses])⟩
    | ok can =>
      rw [Eff.run_bind_of_ok rfl]
      cases can with
      | false =>
        have hnot : accepts atom = false := by simp [accepts, hcan, Except.toOption]
        have hrefuses : refuses atom = false := by
          simp [refuses, hnot, hcan, Except.isOk, Except.toBool]
        exact ⟨by simp [hrefuses], hsame (by simp [boundOf_singleton, hnot])⟩
      | true =>
        have haccepts : accepts atom = true := by simp [accepts, htask, hcan, Except.toOption]
        have hrefuses : refuses atom = atom.registering.isSome := by
          simp [refuses, haccepts, hcan, Except.isOk, Except.toBool]
        obtain ⟨hr, hat⟩ := spec_acquire (.callback atom.name) atom.registering s hs
        rw [boundOf_singleton, haccepts, hrefuses]
        cases hraises : atom.registering with
        | some e =>
          rw [hraises] at hr hat
          have hpair : (acquire (.callback atom.name) (some e) : Eff (Watcher config) String Unit).run s
              = (.error e, s) := rfl
          rw [if_pos rfl, Eff.run_bind_of_error hpair]
          refine ⟨by simp, ?_⟩
          simpa [callbacks, resources] using hs
        | none =>
          rw [hraises] at hr hat
          have hpair : (acquire (.callback atom.name) none : Eff (Watcher config) String Unit).run s
              = (.ok (), { s with held := .callback atom.name ::ₘ s.held }) := rfl
          rw [if_pos rfl, Eff.run_bind_of_ok hpair]
          refine ⟨by simp, hat.held, ?_⟩
          show s.bound ++ [atom] = bound ++ [atom]
          rw [hs.bound]

/-- **The tap binds to every task before the first that refuses.** -/
theorem spec_bindAll (atoms : List GraphAtom) :
    Spec (At held bound) (Eff.forEach bindTo atoms : Eff (Watcher config) String Unit) fun r s =>
      (r = .ok () ↔ atoms.all (fun atom => !refuses atom) = true)
        ∧ At (held + callbacks (boundOf atoms)) (bound ++ boundOf atoms) s := by
  induction atoms generalizing held bound with
  | nil =>
    intro s hs
    have hnone : At (held + callbacks (boundOf [])) (bound ++ boundOf []) s :=
      ⟨hs.held.trans (add_zero held).symm, hs.bound.trans (List.append_nil bound).symm⟩
    exact ⟨by simp [Eff.forEach], hnone⟩
  | cons atom atoms ih =>
    have hcons : refuses atom = false → boundOf (atom :: atoms) = boundOf [atom] ++ boundOf atoms := by
      intro hnot
      cases haccepts : accepts atom <;> simp [boundOf, hnot, haccepts]
    refine (spec_bindTo atom).bind (fun _ s hs => ?_) fun e s hs => ?_
    · have hnot := hs.1.mp rfl
      obtain ⟨hr, hat⟩ := ih s hs.2
      rw [List.all_cons, hnot, hcons hnot, callbacks_append, ← add_assoc, ← List.append_assoc]
      exact ⟨hr, hat⟩
    · have hrefuses : refuses atom = true := by
        rw [← Bool.not_eq_false, ← hs.1]
        simp
      have hnone : boundOf (atom :: atoms) = boundOf [atom] := by simp [boundOf, hrefuses]
      rw [hnone]
      exact ⟨by simp [hrefuses], hs.2⟩

/-- The tasks that the tap is bound to. -/
def boundBy (h : Host) : List GraphAtom := boundOf (h.atoms.toOption.getD [])

/-- The tap can be registered with all of them. -/
def registers (h : Host) : Bool :=
  h.atoms.isOk && (h.atoms.toOption.getD []).all fun atom => !refuses atom

theorem spec_register (h : Host) :
    Spec (At held []) (register h : Eff (Watcher config) String Unit) fun r s =>
      (r = .ok () ↔ registers h = true) ∧ At (held + callbacks (boundBy h)) (boundBy h) s := by
  intro s hs
  have hrun : (register h : Eff (Watcher config) String Unit).run s
      = (Eff.ofExcept h.atoms >>= Eff.forEach bindTo).run s := by
    show (if _ then _ else _) = _
    rw [hs.bound]
    rfl
  rw [hrun]
  cases hatoms : h.atoms with
  | error e =>
    rw [Eff.run_bind_of_error rfl]
    have hnone : boundBy h = [] := by rw [boundBy, hatoms]; rfl
    rw [hnone]
    refine ⟨by simp [registers, hatoms, Except.isOk, Except.toBool], ?_⟩
    exact ⟨hs.held.trans (add_zero held).symm, hs.bound⟩
  | ok atoms =>
    rw [Eff.run_bind_of_ok rfl]
    have hbound : boundBy h = boundOf atoms := by rw [boundBy, hatoms]; rfl
    have hregisters : registers h = atoms.all fun atom => !refuses atom := by
      rw [registers, hatoms]
      rfl
    rw [hbound, hregisters]
    exact spec_bindAll atoms s hs

/-- The tasks that do not let go of the callback. -/
def clinging (h : Host) : List GraphAtom := (boundBy h).filter (·.deregistering.isSome)

/-- **The tap lets go of every task**, the last first, as far as they let go of it. -/
theorem spec_unbindAll (atoms : List GraphAtom) :
    Spec (At (held + callbacks atoms) atoms)
      (Eff.forEach unbind atoms.reverse : Eff (Watcher config) String Unit) fun r s =>
      r = .ok () ∧ At (held + callbacks (atoms.filter (·.deregistering.isSome))) [] s := by
  induction atoms using List.reverseRecOn generalizing held with
  | nil => exact fun s hs => ⟨rfl, hs⟩
  | append_singleton atoms atom ih =>
    rw [List.reverse_append, List.reverse_singleton, List.singleton_append]
    have hone : Spec (At (held + callbacks (atoms ++ [atom])) (atoms ++ [atom]))
        (unbind atom : Eff (Watcher config) String Unit) fun r s => r = .ok ()
          ∧ At (held + kept (.callback atom.name) atom.deregistering + callbacks atoms) atoms s := by
      intro s hs
      have hpopped : At (held + callbacks atoms + {.callback atom.name}) atoms
          { s with bound := s.bound.dropLast } := by
        refine ⟨?_, ?_⟩
        · rw [hs.held, callbacks_append, ← add_assoc]
          rfl
        · show s.bound.dropLast = atoms
          rw [hs.bound, List.dropLast_concat]
      obtain ⟨hok, hat⟩ := spec_close (.callback atom.name) atom.deregistering _ hpopped
      rw [add_right_comm] at hat
      exact ⟨hok, hat⟩
    refine hone.bind (fun _ s hs => ?_) fun e s hs => by simp at hs
    obtain ⟨hok, hat⟩ := ih s hs.2
    refine ⟨hok, ?_⟩
    rw [List.filter_append, callbacks_append, add_comm (callbacks _), ← add_assoc]
    cases hraises : atom.deregistering with
    | none => simpa [kept, hraises, callbacks, resources] using hat
    | some e => simpa [kept, hraises, callbacks, resources] using hat

theorem spec_deregister (h : Host) :
    Spec (At (held + callbacks (boundBy h)) (boundBy h))
      (deregister : Eff (Watcher config) String Unit) fun r s =>
      r = .ok () ∧ At (held + callbacks (clinging h)) [] s := by
  intro s hs
  have hrun : (deregister : Eff (Watcher config) String Unit).run s
      = (Eff.forEach unbind (boundBy h).reverse).run s := by
    rw [deregister, ← hs.bound]
  rw [hrun]
  exact spec_unbindAll (boundBy h) s hs

/-! ### A block -/

/-- The body leaves alone what it has not registered itself. -/
def LeavesAlone (body : Eff (Watcher config) String α) : Prop :=
  ∀ s, (body.run s).2.held = s.held ∧ (body.run s).2.bound = s.bound

/-- What runs while everything is registered. -/
def inside (h : Host) (body : Eff (Watcher config) String α) : Eff (Watcher config) String α :=
  structureOf h >>= fun _ => body

variable {body : Eff (Watcher config) String α}

theorem spec_inside (h : Host) (hbody : LeavesAlone body) :
    Spec (At held bound) (inside h body) fun _ s => At held bound s := by
  have hstructure : Spec (At held bound) (structureOf h : Eff (Watcher config) String Unit)
      fun _ s => At held bound s := by
    intro s hs
    rw [structureOf]
    split
    · exact ⟨hs.held, hs.bound⟩
    · exact hs
  refine hstructure.bind (fun _ s hs => ?_) fun e s hs => hs
  obtain ⟨hheld, hbound⟩ := hbody s
  exact ⟨hheld.trans hs.held, hbound.trans hs.bound⟩

/-- The tasks that are left with a callback: if the tap could not be registered with all tasks, it
is not deregistered either. -/
def tapped (h : Host) : List GraphAtom := if registers h then clinging h else boundBy h

/-- **The tap around the body.** -/
theorem spec_tap (h : Host) (hbody : LeavesAlone body) :
    Spec (At held []) (register h >>= fun _ => (inside h body).tryFinally deregister) fun r s =>
      s.held = held + callbacks (tapped h)
        ∧ (registers h = true → ∃ s', At (held + callbacks (boundBy h)) (boundBy h) s'
          ∧ r = ((inside h body).run s').1) := by
  refine (spec_register h).bind (fun _ => ?_) fun e s hs => ?_
  · have hinside : ∀ s', At (held + callbacks (boundBy h)) (boundBy h) s' →
        Spec (fun s => s = s') (inside h body) fun r s =>
          At (held + callbacks (boundBy h)) (boundBy h) s ∧ r = ((inside h body).run s').1 := by
      rintro s' hs' s rfl
      exact ⟨spec_inside h hbody s hs', rfl⟩
    intro s hs
    have hregisters := hs.1.mp rfl
    have hfinal : Spec (fun s' => s' = s) ((inside h body).tryFinally deregister) fun r s' =>
        s'.held = held + callbacks (tapped h) ∧ r = ((inside h body).run s).1 := by
      refine (hinside s hs.2).tryFinally fun r s' hs' => ?_
      obtain ⟨hok, hat⟩ := spec_deregister h s' hs'.1
      rw [tapped, if_pos hregisters, hok]
      exact ⟨hat.held, hs'.2⟩
    obtain ⟨hheld, hr⟩ := hfinal s rfl
    exact ⟨hheld, fun _ => ⟨s, hs.2, hr⟩⟩
  · have hnot : registers h = false := by
      rw [← Bool.not_eq_true, ← hs.1]
      simp
    rw [tapped, hnot, if_neg (by simp)]
    exact ⟨hs.2.held, fun hregisters => by simp at hregisters⟩

/-- What is left when a block is over. -/
def left (h : Host) : Multiset Resource :=
  if starts h then
    (if h.entering.isNone then callbacks (tapped h) + kept .listener h.exiting else 0)
      + (publishers (stuck h) + kept .sender h.joining)
  else publishers (opened h)

/-- The listener around the tap. -/
theorem spec_listener (h : Host) (hbody : LeavesAlone body) :
    Spec (At held []) (acquire .listener h.entering >>= fun _ =>
        (register h >>= fun _ => (inside h body).tryFinally deregister).tryFinally
          (release .listener h.exiting)) fun r s =>
      s.held = held + (if h.entering.isNone then callbacks (tapped h) + kept .listener h.exiting
          else 0)
        ∧ (h.entering = none → registers h = true → h.exiting = none →
          ∃ s', At (held + {.listener} + callbacks (boundBy h)) (boundBy h) s'
            ∧ r = ((inside h body).run s').1) := by
  refine (spec_acquire .listener h.entering).bind (fun _ s hs => ?_) fun e s hs => ?_
  · obtain ⟨hr, hat⟩ := hs
    cases hentering : h.entering with
    | some e => simp [hentering, outcome] at hr
    | none =>
      rw [hentering] at hat
      have hfinal : Spec (At (held + {.listener}) [])
          ((register h >>= fun _ => (inside h body).tryFinally deregister).tryFinally
            (release .listener h.exiting)) fun r s =>
          s.held = held + (callbacks (tapped h) + kept .listener h.exiting)
            ∧ (registers h = true → h.exiting = none →
              ∃ s', At (held + {.listener} + callbacks (boundBy h)) (boundBy h) s'
                ∧ r = ((inside h body).run s').1) := by
        refine (spec_tap h hbody).tryFinally fun r s hs => ?_
        have hback : At (held + callbacks (tapped h) + {.listener}) s.bound s :=
          ⟨hs.1.trans (add_right_comm _ _ _), rfl⟩
        obtain ⟨hr, hat⟩ := spec_release .listener h.exiting s hback
        refine ⟨hat.held.trans (add_assoc _ _ _), fun hregisters hexiting => ?_⟩
        rw [hr, hexiting]
        exact hs.2 hregisters
      obtain ⟨hheld, hends⟩ := hfinal s hat
      exact ⟨hheld, fun _ => hends⟩
  · obtain ⟨hr, hat⟩ := hs
    cases hentering : h.entering with
    | none => simp [hentering, outcome] at hr
    | some e =>
      rw [hentering] at hat
      exact ⟨hat.held, fun hnone => by simp at hnone⟩

/-- **What is left of a block**, however it ends: if the pipeline does not start, the publishers
that were started before; otherwise what others do not let go of, and the callbacks of a tap that
could not be registered with all tasks.  Where nothing raises around it the body runs while
everything is registered, and the block ends as the body does. -/
theorem held_attach (h : Host) (hbody : LeavesAlone body) :
    ((attach h body).run {}).2.held = left h
      ∧ (starts h = true → h.entering = none → registers h = true → h.exiting = none →
        ∃ s, At (publishers h.publishers + {.sender} + {.listener} + callbacks (boundBy h))
            (boundBy h) s ∧ ((attach h body).run {}).1 = ((inside h body).run s).1) := by
  have hattach : Spec (At 0 []) (attach h body) fun r s =>
      s.held = left h
        ∧ (starts h = true → h.entering = none → registers h = true → h.exiting = none →
          ∃ s', At (publishers h.publishers + {.sender} + {.listener} + callbacks (boundBy h))
              (boundBy h) s' ∧ r = ((inside h body).run s').1) := by
    refine (spec_startPipeline h).bind (fun _ s hs => ?_) fun e s hs => ?_
    · obtain ⟨hstarts, hat⟩ := hs.1 rfl
      have hfinal : Spec (At (publishers h.publishers + {.sender}) [])
          ((acquire .listener h.entering >>= fun _ =>
            (register h >>= fun _ => (inside h body).tryFinally deregister).tryFinally
              (release .listener h.exiting)).tryFinally (stopPipeline h)) fun r s =>
          s.held = left h ∧ (h.entering = none → registers h = true → h.exiting = none →
            ∃ s', At (publishers h.publishers + {.sender} + {.listener} + callbacks (boundBy h))
              (boundBy h) s' ∧ r = ((inside h body).run s').1) := by
        refine (spec_listener h hbody).tryFinally fun r s hs => ?_
        have hback : At (_ + (publishers h.publishers + {.sender})) s.bound s :=
          ⟨hs.1.trans (add_comm _ _), rfl⟩
        obtain ⟨hok, hat⟩ := spec_stopPipeline h s hback
        rw [left, if_pos hstarts, hok]
        exact ⟨hat.held, hs.2⟩
      obtain ⟨hheld, hends⟩ := hfinal s hat
      exact ⟨hheld, fun _ => hends⟩
    · obtain ⟨hstarts, hat⟩ := hs.2 e rfl
      refine ⟨?_, fun htrue => by simp [hstarts] at htrue⟩
      rw [left, hstarts, if_neg (by simp)]
      exact hat.held
  exact hattach {} ⟨rfl, rfl⟩

/-- No call raises after one that has left something with others, and everybody lets go. -/
structure Clean (h : Host) : Prop where
  start : starts h = false → opened h = []
  stop : starts h = true → (∀ p ∈ h.publishers, p.stopping = none) ∧ h.joining = none
  listener : starts h = true → h.entering = none → h.exiting = none
  bound : starts h = true → h.entering = none → registers h = false → boundBy h = []
  unbound : starts h = true → h.entering = none → registers h = true →
    ∀ atom ∈ boundBy h, atom.deregistering = none

theorem resources_eq_zero_iff {ι : Type} {f : ι → Resource} {l : List ι} :
    resources f l = 0 ↔ l = [] := by simp [resources]

theorem kept_eq_zero_iff {x : Resource} {raises : Option String} :
    kept x raises = 0 ↔ raises = none := by
  cases raises <;> simp [kept]

/-- The pipeline has let go of everything. -/
theorem stopped_eq_zero_iff {h : Host} :
    publishers (stuck h) + kept .sender h.joining = 0
      ↔ (∀ p ∈ h.publishers, p.stopping = none) ∧ h.joining = none := by
  rw [add_eq_zero, kept_eq_zero_iff, publishers, resources_eq_zero_iff, stuck]
  simp

/-- The tap has let go of everything. -/
theorem tapped_eq_zero_iff {h : Host} :
    callbacks (tapped h) = 0 ↔ (registers h = false → boundBy h = [])
      ∧ (registers h = true → ∀ atom ∈ boundBy h, atom.deregistering = none) := by
  rw [callbacks, resources_eq_zero_iff, tapped]
  cases registers h <;> simp [clinging]

theorem left_eq_zero_iff (h : Host) : left h = 0 ↔ Clean h := by
  rw [left]
  cases hstarts : starts h with
  | false =>
    rw [if_neg (by simp), publishers, resources_eq_zero_iff]
    constructor
    · intro hnone
      exact ⟨fun _ => hnone, by simp [hstarts], by simp [hstarts], by simp [hstarts],
        by simp [hstarts]⟩
    · intro hclean
      exact hclean.start hstarts
  | true =>
    rw [if_pos rfl, add_eq_zero, stopped_eq_zero_iff]
    cases hentering : h.entering with
    | some e =>
      constructor
      · rintro ⟨-, hstop⟩
        exact ⟨by simp [hstarts], fun _ => hstop, by simp [hentering], by simp [hentering],
          by simp [hentering]⟩
      · intro hclean
        exact ⟨rfl, hclean.stop hstarts⟩
    | none =>
      rw [Option.isNone_none, if_pos rfl, add_eq_zero, tapped_eq_zero_iff, kept_eq_zero_iff]
      constructor
      · rintro ⟨⟨⟨hbound, hunbound⟩, hexiting⟩, hstop⟩
        exact ⟨by simp [hstarts], fun _ => hstop, fun _ _ => hexiting, fun _ _ => hbound,
          fun _ _ => hunbound⟩
      · intro hclean
        exact ⟨⟨⟨hclean.bound hstarts hentering, hclean.unbound hstarts hentering⟩,
          hclean.listener hstarts hentering⟩, hclean.stop hstarts⟩

/-- **Nothing is left exactly when no call raises after one that has left something with others**,
and everybody lets go: however the block ends, and whatever it does that is not about what was
registered.  And where nothing raises around it, it runs while everything is registered, and ends as
the body does. -/
theorem attach_leaves_nothing_iff {config : PipelineConfig} {α : Type} (h : Host)
    {body : Eff (Watcher config) String α} (hbody : LeavesAlone body) :
    (((attach h body).run {}).2.held = 0 ↔ Clean h)
      ∧ (starts h = true → h.entering = none → registers h = true → h.exiting = none →
        ∃ s, At (publishers h.publishers + {.sender} + {.listener} + callbacks (boundBy h))
            (boundBy h) s
          ∧ ((attach h body).run {}).1 = ((structureOf h >>= fun _ => body).run s).1) := by
  obtain ⟨hheld, hends⟩ := held_attach h hbody
  exact ⟨hheld ▸ left_eq_zero_iff h, hends⟩

/-- The notifier of the second task refuses. -/
def secondRefuses : Host where
  publishers := [{ name := "datasource" }]
  atoms := .ok [{ name := "first" }, { name := "second", registering := some "ValueError" }]
  calls := { flowUuid := .ok "run-1", clock := .ok 0 }

/-- Then the first is left with a callback. -/
theorem attach_leaves_nothing_secondRefuses :
    ((attach secondRefuses (pure () : Eff (Watcher {}) String Unit)).run {}).2.held ≠ 0 := by
  have hleaves := (@attach_leaves_nothing_iff {} Unit secondRefuses (pure ()) fun _ => ⟨rfl, rfl⟩).1
  rw [Ne, hleaves]
  intro hclean
  exact absurd (hclean.bound rfl rfl rfl) (by decide)

end Watcher

end TaskflowMeter
