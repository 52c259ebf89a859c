import Mathlib.Data.List.Perm.Basic
import Mathlib.Tactic
import TaskflowMeter.Lib.Runs

/-!
# The backend of a persistence datasource

A persistence datasource reads a backend that it was given, or one that it fetches when it needs it
and closes when it is stopped.  Reads borrow a connection from whatever backend there is; they,
`start` and `stop` may be called from any threads, and whatever taskflow is asked for may raise.  A
connection counts as released once it has been asked to close, whether or not that raises.

## Main definitions

* `Borrowing` — a read: what it is to do next.
* `BackendThreads`, `BackendThreads.step` — the datasource, and everybody who reads from it.
* `BackendThreads.Accounts` — what is known of the backends and of the connections.

## Main results

* `Accounts.step` — **no step loses a backend or a connection.**
* `backend_accounts` — what follows for whole runs.
-/

namespace TaskflowMeter

open Runs

/-- How a read ends. -/
inductive ReadEnd where
  | returned
  /-- The read itself raises, with a connection. -/
  | raised
  | fetchRaised
  | connectRaised
  /-- `RuntimeError`; so many backends had been closed when it had started the datasource. -/
  | noBackend (closes : ℕ)
  deriving DecidableEq, Repr

/-- A read: what it is to do next.  With the backend that it has looked up it has how many were
closed then. -/
inductive Borrowing where
  | look
  | start
  | lookAgain (closes : ℕ)
  | connect (backend closes : ℕ)
  /-- It has a connection. -/
  | reading (connection : ℕ)
  | closing (connection : ℕ) (raises : Bool)
  | ended (how : ReadEnd)
  deriving DecidableEq, Repr

/-- The connection that a read has to close. -/
def Borrowing.holds : Borrowing → Option ℕ
  | reading connection | closing connection _ => some connection
  | _ => none

/-- A persistence datasource, and everybody who reads from it. -/
structure BackendThreads where
  ownsBackend : Bool
  /-- `_backend`. -/
  backend : Option ℕ
  /-- How many backends there have been. -/
  fetched : ℕ
  /-- The backends that were closed. -/
  closed : List ℕ := []
  /-- The backend of each connection. -/
  connections : List ℕ := []
  /-- The connections that were asked to close: what that raises is suppressed. -/
  released : List ℕ := []
  calls : List Borrowing := []

namespace BackendThreads

/-- Wrap a backend that is given, or build one from a configuration. -/
def init (backend conf : Bool) : Except String BackendThreads :=
  if backend = conf then .error "pass exactly one of backend or conf"
  else
    .ok
      { ownsBackend := conf
        backend := if backend then some 0 else none
        fetched := if backend then 1 else 0 }

inductive Step where
  /-- `start`; what it asks for may raise. -/
  | start (raises : Bool)
  | stop (raises : Bool)
  /-- A read is called. -/
  | read
  /-- The `i`-th read goes on; what it asks for may raise. -/
  | go (i : ℕ) (raises : Bool)

/-- Whether this raises, and the datasource after it. -/
def start (s : BackendThreads) (raises : Bool) : Bool × BackendThreads :=
  match s.backend with
  | some _ => (false, s)
  | none =>
      -- without a configuration there is nothing to fetch
      if !s.ownsBackend then (false, s)
      else if raises then (true, s)
      else (false, { s with backend := some s.fetched, fetched := s.fetched + 1 })

def stop (s : BackendThreads) (raises : Bool) : BackendThreads :=
  match s.backend with
  | some b =>
      -- a backend that cannot be closed is kept
      if s.ownsBackend && !raises then { s with backend := none, closed := s.closed ++ [b] } else s
  | none => s

/-- Use the backend that there is. -/
def lookUp (s : BackendThreads) (otherwise : Borrowing) : Borrowing :=
  match s.backend with
  | some b => .connect b s.closed.length
  | none => otherwise

/-- The next step of a read, and the datasource after it. -/
def borrow (s : BackendThreads) (raises : Bool) : Borrowing → Borrowing × BackendThreads
  | .look => (s.lookUp .start, s)
  | .start =>
      match s.start raises with
      | (true, s) => (.ended .fetchRaised, s)
      | (false, s) => (.lookAgain s.closed.length, s)
  | .lookAgain closes => (s.lookUp (.ended (.noBackend closes)), s)
  | .connect b _ =>
      if raises then (.ended .connectRaised, s)
      else (.reading s.connections.length, { s with connections := s.connections ++ [b] })
  | .reading connection => (.closing connection raises, s)
  -- what closing raises is suppressed
  | .closing connection raised =>
      (.ended (if raised then .raised else .returned),
        { s with released := s.released ++ [connection] })
  | .ended how => (.ended how, s)

def go (s : BackendThreads) (i : ℕ) (raises : Bool) : BackendThreads :=
  match s.calls[i]? with
  | some call =>
      let next := s.borrow raises call
      { next.2 with calls := next.2.calls.set i next.1 }
  | none => s

def step (s : BackendThreads) : Step → BackendThreads
  | .start raises => (s.start raises).2
  | .stop raises => s.stop raises
  | .read => { s with calls := s.calls ++ [.look] }
  | .go i raises => s.go i raises

/-- What a read knows of the backend: it is there, unless one was closed in between. -/
def Knows (s : BackendThreads) : Borrowing → Prop
  | .lookAgain closes =>
      closes ≤ s.closed.length ∧ (closes = s.closed.length → s.backend.isSome = true)
  | .connect b closes =>
      b < s.fetched ∧ closes ≤ s.closed.length ∧ (closes = s.closed.length → s.backend = some b)
  | .ended (.noBackend closes) => closes < s.closed.length
  | _ => True

/-- What is known of the backends and of the connections. -/
structure Accounts (s : BackendThreads) : Prop where
  /-- Each backend was closed before the next was fetched. -/
  backends : s.closed ++ s.backend.toList = List.range s.fetched
  borrowed : s.ownsBackend = false → s.backend = some 0 ∧ s.closed = []
  /-- Each connection was asked to close once, or a read has it. -/
  connections : (s.released ++ s.calls.filterMap Borrowing.holds).Perm
    (List.range s.connections.length)
  fetched : ∀ b ∈ s.connections, b < s.fetched
  knows : ∀ call ∈ s.calls, s.Knows call

/-! ### What is left alone -/

theorem start_frame (s : BackendThreads) (raises : Bool) :
    (s.start raises).2.calls = s.calls ∧ (s.start raises).2.ownsBackend = s.ownsBackend := by
  unfold start
  split
  · exact ⟨rfl, rfl⟩
  · split_ifs <;> exact ⟨rfl, rfl⟩

theorem borrow_frame (s : BackendThreads) (raises : Bool) (call : Borrowing) :
    (s.borrow raises call).2.calls = s.calls
      ∧ (s.borrow raises call).2.ownsBackend = s.ownsBackend := by
  cases call with
  | start =>
    have hframe := start_frame s raises
    rw [borrow]
    generalize s.start raises = started at hframe ⊢
    obtain ⟨raised, t⟩ := started
    cases raised <;> exact hframe
  | connect b closes =>
    rw [borrow]
    split <;> exact ⟨rfl, rfl⟩
  | look | lookAgain | reading | closing | ended => exact ⟨rfl, rfl⟩

theorem ownsBackend_step (s : BackendThreads) (st : Step) :
    (s.step st).ownsBackend = s.ownsBackend := by
  cases st with
  | start raises => exact (start_frame s raises).2
  | stop raises =>
    rw [step, stop]
    split
    · split_ifs <;> rfl
    · rfl
  | read => rfl
  | go i raises =>
    rw [step, go]
    split
    · exact (borrow_frame s raises _).2
    · rfl

/-! ### The accounts -/

/-- What is known goes on being known if nothing is closed, or if something is. -/
theorem Knows.mono {s t : BackendThreads} {call : Borrowing} (h : s.Knows call)
    (hfetched : s.fetched ≤ t.fetched)
    (hclosed : s.closed.length < t.closed.length
      ∨ s.closed.length = t.closed.length ∧ ∀ b, s.backend = some b → t.backend = some b) :
    t.Knows call := by
  cases call with
  | lookAgain closes =>
    obtain ⟨hle, hthere⟩ := h
    rcases hclosed with hlt | ⟨heq, hkept⟩
    · exact ⟨by omega, fun hcloses => by omega⟩
    · refine ⟨by omega, fun hcloses => ?_⟩
      obtain ⟨b, hb⟩ := Option.isSome_iff_exists.mp (hthere (by omega))
      rw [hkept b hb]
      rfl
  | connect b closes =>
    obtain ⟨hb, hle, hthere⟩ := h
    rcases hclosed with hlt | ⟨heq, hkept⟩
    · exact ⟨by omega, by omega, fun hcloses => by omega⟩
    · exact ⟨by omega, by omega, fun hcloses => hkept b (hthere (by omega))⟩
  | ended how =>
    cases how with
    | noBackend closes =>
      have hlt : closes < s.closed.length := h
      show closes < t.closed.length
      omega
    | returned | raised | fetchRaised | connectRaised => trivial
  | look | start | reading | closing => trivial

namespace Accounts

variable {s : BackendThreads}

theorem of_init {backend conf : Bool} (h : init backend conf = .ok s) : Accounts s := by
  rw [init] at h
  split at h
  · cases h
  · next hne =>
    obtain rfl := Except.ok.inj h
    refine ⟨?_, ?_, by simp, by simp, by simp⟩
    · cases backend <;> rfl
    · rintro rfl
      cases backend <;> simp_all

/-- A backend that is known has been closed, or is there. -/
theorem mem_closed_or (h : Accounts s) {b : ℕ} (hb : b < s.fetched) :
    b ∈ s.closed ∨ s.backend = some b := by
  have hmem : b ∈ s.closed ++ s.backend.toList := h.backends ▸ List.mem_range.mpr hb
  simpa using hmem

theorem start (h : Accounts s) (raises : Bool) : Accounts (s.start raises).2 := by
  rw [BackendThreads.start]
  split
  · exact h
  · next hnone =>
    split_ifs
    · exact h
    · exact h
    · have hclosed : s.closed = List.range s.fetched := by simpa [hnone] using h.backends
      refine ⟨?_, fun howns => ?_, h.connections, fun b hb => Nat.lt_succ_of_lt (h.fetched b hb),
        fun call hcall => (h.knows call hcall).mono (Nat.le_succ _) (Or.inr ⟨rfl, ?_⟩)⟩
      · rw [List.range_succ, ← hclosed]
        rfl
      · have hborrowed := (h.borrowed howns).1
        rw [hnone] at hborrowed
        cases hborrowed
      · rw [hnone]
        exact nofun

/-- Starting gives it a backend, or raises. -/
theorem start_cases (h : Accounts s) (raises : Bool) :
    (s.start raises).1 = false → (s.start raises).2.backend.isSome = true := by
  rw [BackendThreads.start]
  split
  · next hb => simp [hb]
  · next hnone =>
    split_ifs with howns
    · have hborrowed := (h.borrowed (by simpa using howns)).1
      simp [hnone] at hborrowed
    · simp
    · simp

theorem stop (h : Accounts s) (raises : Bool) : Accounts (s.stop raises) := by
  rw [BackendThreads.stop]
  split
  · next b hb =>
    split
    · next howned =>
      refine ⟨?_, fun howns => ?_, h.connections, h.fetched,
        fun call hcall => (h.knows call hcall).mono le_rfl (Or.inl (by simp))⟩
      · simpa [hb] using h.backends
      · have howns' : s.ownsBackend = false := howns
        simp [howns'] at howned
    · exact h
  · exact h

/-- **A read goes on**, and gets or gives back a connection. -/
theorem moved (h : Accounts s) {pre post : List Borrowing} {call next : Borrowing}
    (hcalls : s.calls = pre ++ call :: post) {released connections : List ℕ}
    (hconnections : (released ++ (pre ++ next :: post).filterMap Borrowing.holds).Perm
      (List.range connections.length))
    (hfetched : ∀ b ∈ connections, b < s.fetched) (hnext : s.Knows next) :
    Accounts { s with
      calls := pre ++ next :: post
      released := released
      connections := connections } where
  backends := h.backends
  borrowed := h.borrowed
  connections := hconnections
  fetched := hfetched
  knows c hc := by
    have hold := h.knows
    rw [hcalls] at hold
    simp only [List.mem_append, List.mem_cons] at hc hold
    rcases hc with hc | rfl | hc
    · exact hold c (Or.inl hc)
    · exact hnext
    · exact hold c (Or.inr (Or.inr hc))

/-- A read goes on with what it has. -/
theorem kept (h : Accounts s) {pre post : List Borrowing} {call next : Borrowing}
    (hcalls : s.calls = pre ++ call :: post) (hholds : next.holds = call.holds)
    (hnext : s.Knows next) : Accounts { s with calls := pre ++ next :: post } := by
  have hconnections := h.connections
  refine h.moved hcalls ?_ h.fetched hnext
  rw [hcalls] at hconnections
  simpa only [List.filterMap_append, List.filterMap_cons, hholds] using hconnections

/-- A backend that is looked up is known. -/
theorem knows_lookUp (h : Accounts s) {otherwise : Borrowing}
    (hnone : s.backend = none → s.Knows otherwise) : s.Knows (s.lookUp otherwise) := by
  rw [lookUp]
  cases hb : s.backend with
  | some b =>
    refine ⟨?_, le_rfl, fun _ => hb⟩
    have hmem : b ∈ s.closed ++ s.backend.toList := by simp [hb]
    rw [h.backends, List.mem_range] at hmem
    exact hmem
  | none => exact hnone hb

theorem holds_lookUp (s : BackendThreads) {otherwise : Borrowing} (hnone : otherwise.holds = none) :
    (s.lookUp otherwise).holds = none := by
  rw [lookUp]
  cases s.backend with
  | some b => rfl
  | none => exact hnone

/-- **Whatever a read does next**, the accounts are right after it. -/
theorem borrow (h : Accounts s) (raises : Bool) {pre post : List Borrowing} {call : Borrowing}
    (hcalls : s.calls = pre ++ call :: post) :
    Accounts { (s.borrow raises call).2 with calls := pre ++ (s.borrow raises call).1 :: post } := by
  have hknows : s.Knows call := h.knows call (hcalls ▸ by simp)
  have hconnections := h.connections
  cases call with
  | look =>
    exact h.kept hcalls (holds_lookUp s rfl) (h.knows_lookUp fun _ => trivial)
  | start =>
    have hstart := h.start raises
    have hbackend := h.start_cases raises
    have hcalls' := (start_frame s raises).1.trans hcalls
    rw [BackendThreads.borrow]
    generalize s.start raises = started at hstart hbackend hcalls' ⊢
    obtain ⟨raised, t⟩ := started
    cases raised with
    | true => exact hstart.kept hcalls' rfl trivial
    | false => exact hstart.kept hcalls' rfl ⟨le_rfl, fun _ => hbackend rfl⟩
  | lookAgain closes =>
    refine h.kept hcalls (holds_lookUp s rfl) (h.knows_lookUp fun hnone => ?_)
    -- there was a backend when it had started the datasource, so one was closed since
    obtain ⟨hle, hthere⟩ := hknows
    refine lt_of_le_of_ne hle fun heq => ?_
    simpa [hnone] using hthere heq
  | connect b closes =>
    rw [BackendThreads.borrow]
    split
    · exact h.kept hcalls rfl trivial
    · refine h.moved hcalls ?_ ?_ trivial
      · rw [hcalls] at hconnections
        rw [List.length_append, List.length_singleton, List.range_succ]
        simp only [List.filterMap_append, List.filterMap_cons, Borrowing.holds] at hconnections ⊢
        rw [← List.append_assoc] at hconnections ⊢
        exact (List.perm_middle.trans (hconnections.cons _)).trans
          (List.perm_append_singleton _ _).symm
      · intro b' hb'
        rcases List.mem_append.mp hb' with hb' | hb'
        · exact h.fetched b' hb'
        · exact List.mem_singleton.mp hb' ▸ hknows.1
  | reading connection => exact h.kept hcalls rfl trivial
  | closing connection raised =>
    rw [BackendThreads.borrow]
    refine h.moved hcalls ?_ h.fetched (by cases raised <;> trivial)
    rw [hcalls] at hconnections
    simp only [List.filterMap_append, List.filterMap_cons, Borrowing.holds] at hconnections ⊢
    -- the connection goes from among those that are held to the end of those that were closed
    rw [List.append_assoc, List.singleton_append]
    have hmiddle : (connection :: (pre.filterMap Borrowing.holds ++ post.filterMap
        Borrowing.holds)).Perm _ := List.perm_middle.symm
    exact (hmiddle.append_left _).trans hconnections
  | ended how => exact h.kept hcalls rfl hknows

theorem go (h : Accounts s) (i : ℕ) (raises : Bool) : Accounts (s.go i raises) := by
  rw [BackendThreads.go]
  split
  · next call hcall =>
    obtain ⟨hi, hget⟩ := List.getElem?_eq_some_iff.mp hcall
    have hsplit : s.calls = s.calls.take i ++ call :: s.calls.drop (i + 1) := by
      rw [← hget, List.getElem_cons_drop, List.take_append_drop]
    have hmoved := h.borrow raises hsplit
    have hset : s.calls.set i (s.borrow raises call).1
        = s.calls.take i ++ (s.borrow raises call).1 :: s.calls.drop (i + 1) := by
      rw [List.set_eq_take_append_cons_drop, if_pos hi]
    rw [← hset] at hmoved
    simpa only [(borrow_frame s raises call).1] using hmoved
  · exact h

/-- **No step loses a backend or a connection.** -/
theorem step (h : Accounts s) (st : Step) : Accounts (s.step st) := by
  cases st with
  | start raises => exact h.start raises
  | stop raises => exact h.stop raises
  | read =>
    refine ⟨h.backends, h.borrowed, ?_, h.fetched, fun call hcall => ?_⟩
    · have hholds : (s.calls ++ [Borrowing.look]).filterMap Borrowing.holds
          = s.calls.filterMap Borrowing.holds := by
        rw [List.filterMap_append]
        exact List.append_nil _
      exact hholds ▸ h.connections
    · rcases List.mem_append.mp hcall with hcall | hcall
      · exact h.knows call hcall
      · obtain rfl := List.mem_singleton.mp hcall
        trivial
  | go i raises => exact h.go i raises

end Accounts

theorem accounts_run {backend conf : Bool} {s : BackendThreads} (h : init backend conf = .ok s)
    (steps : List Step) :
    Accounts (run step s steps) ∧ (run step s steps).ownsBackend = s.ownsBackend := by
  induction steps using List.reverseRecOn with
  | nil => exact ⟨Accounts.of_init h, rfl⟩
  | append_singleton steps st ih =>
    rw [run_concat]
    exact ⟨ih.1.step st, (ownsBackend_step _ st).trans ih.2⟩

theorem ownsBackend_init {backend conf : Bool} {s : BackendThreads}
    (h : init backend conf = .ok s) : s.ownsBackend = conf := by
  rw [init] at h
  split at h
  · cases h
  · obtain rfl := Except.ok.inj h
    rfl

/-- **No backend and no connection is lost, whoever starts, stops and reads at once, and whatever
raises.**  A backend that was given is kept and never closed; each backend that was fetched was
closed before the next was fetched, and is closed once; each connection was closed once, or the read
that has it has yet to close it; a connection is to the backend that there is, or to one that was
closed; and a read that finds no backend was stopped between its own `start` and its second look. -/
theorem backend_accounts {backend conf : Bool} {s₀ : BackendThreads}
    (h : init backend conf = .ok s₀) (steps : List Step) :
    let s := run step s₀ steps
    (conf = false → s.backend = some 0 ∧ s.closed = [])
      ∧ s.closed ++ s.backend.toList = List.range s.fetched
      ∧ (s.released ++ s.calls.filterMap Borrowing.holds).Perm (List.range s.connections.length)
      ∧ (∀ b ∈ s.connections, b ∈ s.closed ∨ s.backend = some b)
      ∧ ∀ closes, .ended (.noBackend closes) ∈ s.calls → closes < s.closed.length := by
  intro s
  obtain ⟨haccounts, howns⟩ := accounts_run h steps
  refine ⟨fun hconf => haccounts.borrowed ?_, haccounts.backends, haccounts.connections,
    fun b hb => haccounts.mem_closed_or (haccounts.fetched b hb),
    fun closes hended => haccounts.knows _ hended⟩
  rw [howns, ownsBackend_init h, hconf]

/-- The datasource is stopped just after a read has started it. -/
theorem backend_accounts_stopBetween :
    let s := run step { ownsBackend := true, backend := none, fetched := 0 }
      [.read, .read, .go 0 false, .go 0 false, .stop false, .go 0 false, .go 1 false, .go 1 false,
        .go 1 false, .go 1 false]
    .ended (.noBackend 0) ∈ s.calls ∧ 0 < s.closed.length ∧ s.calls[1]? = some (.reading 0) :=
  ⟨by decide, (@backend_accounts false true _ rfl _).2.2.2.2 0 (by decide), by decide⟩

end BackendThreads

end TaskflowMeter
