import TaskflowMeter.Events
import TaskflowMeter.Lib.Deque
import TaskflowMeter.Lib.Runs

/-!
# Handing batches to another thread

A bounded buffer that one thread publishes to and another drains.  Every call holds the lock of the
buffer, so that the calls of all threads are one sequence.

## Main definitions

* `MemoryTransport` — the buffer, and how many events were dropped.
* `Cut` — what the buffer is for: what was published, cut where it was drained.
* `Handing` — the calls, with what the drains returned.

## Main results

* `refines_after` — **the buffer is the end of what was published since it was last drained.**
* `hands_over` — every event is handed over, buffered or counted as dropped; and nothing is dropped
  exactly when each publish fits.
-/

namespace TaskflowMeter

open Runs

/-- Events retained before the oldest are dropped. -/
def DEFAULT_MAX_EVENTS : ℤ := 10000

/-- Holds events in a bounded buffer for something else to drain. -/
structure MemoryTransport where
  events : Deque Event
  dropped : ℕ := 0
  deriving DecidableEq

namespace MemoryTransport

def new (maxEvents : ℤ := DEFAULT_MAX_EVENTS) : Except String MemoryTransport :=
  if maxEvents < 1 then .error "max_events must be at least 1"
  else .ok { events := Deque.new maxEvents.toNat }

def publish (t : MemoryTransport) (batch : List Event) : MemoryTransport :=
  -- what does not fit, of the buffer or of the batch itself
  let overflow := t.events.items.length + batch.length - t.events.maxlen
  { events := t.events.extend batch, dropped := t.dropped + overflow }

/-- Take everything buffered so far. -/
def drain (t : MemoryTransport) : List Event × MemoryTransport :=
  (t.events.items, { t with events := Deque.new t.events.maxlen })

end MemoryTransport

/-! ### What the buffer is for -/

/-- What was published, cut where it was drained. -/
structure Cut where
  closed : List (List Event) := []
  /-- What was published since the last drain. -/
  pending : List Event := []
  deriving DecidableEq

inductive HandingMove where
  | publish (batch : List Event)
  | drain
  deriving DecidableEq, Repr

namespace Cut

def step (cut : Cut) : HandingMove → Cut
  | .publish batch => { cut with pending := cut.pending ++ batch }
  | .drain => { closed := cut.closed ++ [cut.pending] }

def pieces (cut : Cut) : List (List Event) := cut.closed ++ [cut.pending]

/-- What is too much for a buffer of that room. -/
def excess (room : ℕ) (pieces : List (List Event)) : ℕ :=
  (pieces.map fun piece => piece.length - room).sum

theorem excess_concat (room : ℕ) (pieces : List (List Event)) (piece : List Event) :
    excess room (pieces ++ [piece]) = excess room pieces + (piece.length - room) := by
  simp [excess]

theorem pieces_publish (cut : Cut) (batch : List Event) :
    (cut.step (.publish batch)).pieces = cut.closed ++ [cut.pending ++ batch] := rfl

theorem pieces_drain (cut : Cut) : (cut.step .drain).pieces = cut.pieces ++ [[]] := rfl

end Cut

/-- A buffer, and what the drains returned. -/
structure Handing where
  transport : MemoryTransport
  taken : List (List Event) := []

namespace Handing

def step (h : Handing) : HandingMove → Handing
  | .publish batch => { h with transport := h.transport.publish batch }
  | .drain =>
      let (events, transport) := h.transport.drain
      { transport := transport, taken := h.taken ++ [events] }

/-- **What is known of the buffer**, where `cut` is what was published. -/
structure Refines (room : ℕ) (h : Handing) (cut : Cut) : Prop where
  maxlen : h.transport.events.maxlen = room
  buffered : h.transport.events.items = cut.pending.rtake room
  taken : h.taken = cut.closed.map (·.rtake room)
  dropped : h.transport.dropped = Cut.excess room cut.pieces

variable {room : ℕ} {h : Handing} {cut : Cut}

theorem Refines.publish (href : Refines room h cut) (batch : List Event) :
    Refines room (h.step (.publish batch)) (cut.step (.publish batch)) where
  maxlen := (Deque.maxlen_extend _ _).trans href.maxlen
  buffered := by
    show (h.transport.events.extend batch).items = (cut.pending ++ batch).rtake room
    rw [Deque.items_extend, href.maxlen, href.buffered, Deque.rtake_rtake_append]
  taken := href.taken
  dropped := by
    have hdropped := href.dropped
    have hlength := congrArg List.length href.buffered
    rw [Deque.length_rtake] at hlength
    rw [Cut.pieces, Cut.excess_concat] at hdropped
    show h.transport.dropped
      + (h.transport.events.items.length + batch.length - h.transport.events.maxlen) = _
    rw [Cut.pieces_publish, Cut.excess_concat, hdropped, href.maxlen, hlength, List.length_append]
    omega

theorem Refines.drain (href : Refines room h cut) :
    Refines room (h.step .drain) (cut.step .drain) where
  maxlen := href.maxlen
  buffered := by simp [Cut.step, Handing.step, MemoryTransport.drain, List.rtake]
  taken := by
    show h.taken ++ [h.transport.events.items] = (cut.closed ++ [cut.pending]).map _
    rw [href.taken, href.buffered, List.map_append, List.map_singleton]
  dropped := by
    show h.transport.dropped = _
    rw [href.dropped, Cut.pieces_drain, Cut.excess_concat]
    simp

theorem Refines.step (href : Refines room h cut) (m : HandingMove) :
    Refines room (h.step m) (cut.step m) := by
  cases m with
  | publish batch => exact href.publish batch
  | drain => exact href.drain

end Handing

/-! ### Runs -/

/-- What was published in a run, cut where it was drained. -/
def cutOf (moves : List HandingMove) : Cut := run Cut.step {} moves

/-- All of it. -/
def publishedIn (moves : List HandingMove) : List Event :=
  moves.flatMap fun
    | .publish batch => batch
    | .drain => []

/-- A buffer that was just made, after some calls. -/
def Handing.after (t : MemoryTransport) (moves : List HandingMove) : Handing :=
  run Handing.step { transport := t } moves

/-- A batch fits beside what was published since the last drain. -/
def Fits (room : ℕ) (done : List HandingMove) : HandingMove → Prop
  | .publish batch => (cutOf done).pending.length + batch.length ≤ room
  | .drain => True

theorem flatten_pieces_cutOf (moves : List HandingMove) :
    (cutOf moves).pieces.flatten = publishedIn moves := by
  induction moves using List.reverseRecOn with
  | nil => rfl
  | append_singleton moves m ih =>
    rw [publishedIn, List.flatMap_append, ← publishedIn, ← ih, cutOf, run_concat, ← cutOf]
    cases m with
    | publish batch =>
      rw [Cut.pieces_publish, Cut.pieces]
      simp
    | drain => simp [Cut.pieces_drain]

/-- **The buffer is the end of what was published since it was last drained.** -/
theorem refines_after {maxEvents : ℤ} {t : MemoryTransport}
    (ht : MemoryTransport.new maxEvents = .ok t)
    (moves : List HandingMove) :
    Handing.Refines maxEvents.toNat (Handing.after t moves) (cutOf moves) := by
  induction moves using List.reverseRecOn with
  | nil =>
    rw [MemoryTransport.new] at ht
    split at ht
    · simp at ht
    · rw [← Except.ok.inj ht]
      exact ⟨rfl, by simp [Handing.after, cutOf, List.rtake], rfl,
        by simp [Handing.after, Cut.excess, Cut.pieces, cutOf]⟩
  | append_singleton moves m ih =>
    rw [Handing.after, cutOf, run_concat, run_concat]
    exact ih.step m

/-- Something is too much exactly when some publish did not fit. -/
theorem excess_eq_zero_iff (room : ℕ) (moves : List HandingMove) :
    Cut.excess room (cutOf moves).pieces = 0 ↔ EveryMove (Fits room) moves := by
  refine iff_everyMove (P := fun moves => Cut.excess room (cutOf moves).pieces = 0)
    (by simp [Cut.excess, Cut.pieces, cutOf]) (fun done m => ?_) moves
  rw [cutOf, run_concat, ← cutOf]
  cases m with
  | publish batch =>
    rw [Cut.pieces_publish, Cut.pieces, Cut.excess_concat, Cut.excess_concat, List.length_append,
      Fits]
    omega
  | drain =>
    rw [Cut.pieces_drain, Cut.excess_concat]
    simp [Fits]

theorem sublist_flatten_map_rtake (room : ℕ) (pieces : List (List Event)) :
    (pieces.map (·.rtake room)).flatten.Sublist pieces.flatten := by
  induction pieces with
  | nil => exact List.Sublist.slnil
  | cons piece pieces ih => exact (List.drop_sublist _ piece).append ih

theorem length_flatten_map_rtake (room : ℕ) (pieces : List (List Event)) :
    Cut.excess room pieces + (pieces.map (·.rtake room)).flatten.length
      = pieces.flatten.length := by
  induction pieces with
  | nil => rfl
  | cons piece pieces ih =>
    simp only [Cut.excess, List.map_cons, List.sum_cons, List.flatten_cons, List.length_append,
      Deque.length_rtake] at ih ⊢
    omega

/-- **Every event is handed over, buffered or counted as dropped.**  Whatever is published and
whenever the buffer is drained: a drain returns the last events that were published since the one
before it, in order; those that are in none, nor in the buffer, are as many as were dropped; and
nothing is dropped exactly when every batch fitted, and then everything is handed over. -/
theorem hands_over {maxEvents : ℤ} {t : MemoryTransport}
    (ht : MemoryTransport.new maxEvents = .ok t)
    (moves : List HandingMove) :
    let h := Handing.after t moves
    let handed := h.taken.flatten ++ h.transport.events.items
    (h.taken = (cutOf moves).closed.map (·.rtake maxEvents.toNat)
        ∧ h.transport.events.items = (cutOf moves).pending.rtake maxEvents.toNat)
      ∧ handed.Sublist (publishedIn moves)
      ∧ h.transport.dropped + handed.length = (publishedIn moves).length
      ∧ (h.transport.dropped = 0 ↔ EveryMove (Fits maxEvents.toNat) moves)
      ∧ (EveryMove (Fits maxEvents.toNat) moves → handed = publishedIn moves) := by
  intro h handed
  have href : Handing.Refines maxEvents.toNat h (cutOf moves) := refines_after ht moves
  have hhanded : handed = ((cutOf moves).pieces.map (·.rtake maxEvents.toNat)).flatten := by
    show h.taken.flatten ++ h.transport.events.items = _
    rw [href.taken, href.buffered, Cut.pieces, List.map_append, List.flatten_append,
      List.map_singleton, List.flatten_singleton]
  have hsublist : handed.Sublist (publishedIn moves) := by
    rw [hhanded, ← flatten_pieces_cutOf]
    exact sublist_flatten_map_rtake _ _
  have hcount : h.transport.dropped + handed.length = (publishedIn moves).length := by
    rw [href.dropped, hhanded, length_flatten_map_rtake, flatten_pieces_cutOf]
  refine ⟨⟨href.taken, href.buffered⟩, hsublist, hcount, ?_, fun hfits => ?_⟩
  · rw [href.dropped]
    exact excess_eq_zero_iff _ moves
  · have hzero : h.transport.dropped = 0 := by
      rw [href.dropped]
      exact (excess_eq_zero_iff _ moves).mpr hfits
    refine hsublist.eq_of_length ?_
    rw [← hcount, hzero, Nat.zero_add]

theorem hands_over_two_of_three :
    ∃ t, MemoryTransport.new 2 = .ok t
      ∧ (Handing.after t [.publish [heartbeat 1, heartbeat 2, heartbeat 3], .drain]).taken
        = [[heartbeat 2, heartbeat 3]] := by
  refine ⟨{ events := Deque.new 2 }, rfl, ?_⟩
  have hover := @hands_over 2 { events := Deque.new 2 } rfl
    [.publish [heartbeat 1, heartbeat 2, heartbeat 3], .drain]
  exact hover.1.1

end TaskflowMeter
