import Mathlib

/-!
# Items on a conveyor

Items enter at one end of a line and leave it at the other, in the same order: one at a time
into the batch in hand, which is handed over as a whole, or to be discarded.

## Main definitions

* `Conveyor` — the items that have entered, and where they are now.
* `Conveyor.Moves` — what may happen to one item, or to a batch.
* `Conveyor.line` — what has not been discarded, the oldest first.

## Main results

* `Kept.moves` — **what entered is in exactly one place**, and the line is in the order of
  entering.
-/

universe u

/-- The items that have entered, and where each of them is. -/
structure Conveyor (α : Type u) where
  entered : List α := []
  waiting : List α := []
  batch : List α := []
  delivered : List (List α) := []
  discarded : List α := []

namespace Conveyor

variable {α : Type u}

/-- What may happen, if an item enters only when it fits what has entered before it. -/
inductive Moves (fits : List α → α → Prop) (s : Conveyor α) : Conveyor α → Prop
  | stays : Moves fits s s
  | enters {x : α} (h : fits s.entered x) :
      Moves fits s { s with entered := s.entered ++ [x], waiting := s.waiting ++ [x] }
  | taken {x : α} {rest : List α} (h : s.waiting = x :: rest) :
      Moves fits s { s with waiting := rest, batch := s.batch ++ [x] }
  | delivered : Moves fits s { s with batch := [], delivered := s.delivered ++ [s.batch] }
  | discarded {x : α} {rest : List α} (h : s.waiting = x :: rest) :
      Moves fits s { s with waiting := rest, discarded := s.discarded ++ [x] }

/-- What has not been discarded, the oldest first. -/
def line (s : Conveyor α) : List α := s.delivered.flatten ++ s.batch ++ s.waiting

/-- Nothing is lost, doubled or overtaken. -/
structure Kept (s : Conveyor α) : Prop where
  line : s.line.Sublist s.entered
  perm : (s.line ++ s.discarded).Perm s.entered

theorem Kept.moves {fits : List α → α → Prop} {s s' : Conveyor α} (h : Kept s)
    (hmoves : Moves fits s s') : Kept s' := by
  obtain ⟨hline, hperm⟩ := h
  cases hmoves with
  | stays => exact ⟨hline, hperm⟩
  | @enters x hx =>
    have happend : ({ s with entered := s.entered ++ [x], waiting := s.waiting ++ [x] } :
        Conveyor α).line = s.line ++ [x] := by simp [Conveyor.line]
    refine ⟨?_, ?_⟩
    · rw [happend]
      exact hline.append (.refl _)
    · rw [happend]
      calc s.line ++ [x] ++ s.discarded
          _ = s.line ++ ([x] ++ s.discarded) := List.append_assoc ..
          List.Perm _ (s.line ++ (s.discarded ++ [x])) := List.perm_append_comm.append_left _
          _ = s.line ++ s.discarded ++ [x] := (List.append_assoc ..).symm
          List.Perm _ (s.entered ++ [x]) := hperm.append_right _
  | @taken x rest hx =>
    have hsame : ({ s with waiting := rest, batch := s.batch ++ [x] } : Conveyor α).line
        = s.line := by simp [Conveyor.line, hx]
    exact ⟨hsame ▸ hline, hsame ▸ hperm⟩
  | delivered =>
    have hsame : ({ s with batch := [], delivered := s.delivered ++ [s.batch] } :
        Conveyor α).line = s.line := by simp [Conveyor.line]
    exact ⟨hsame ▸ hline, hsame ▸ hperm⟩
  | @discarded x rest hx =>
    have hold : s.line = s.delivered.flatten ++ s.batch ++ x :: rest := by rw [Conveyor.line, hx]
    rw [hold] at hline hperm
    refine ⟨?_, ?_⟩
    · exact ((List.sublist_cons_self x rest).append_left _).trans hline
    · refine List.Perm.trans ?_ hperm
      simp only [Conveyor.line, List.append_assoc, List.cons_append]
      refine (List.Perm.append_left _ (List.Perm.append_left _ ?_))
      rw [← List.append_assoc]
      exact List.perm_append_singleton x (rest ++ s.discarded)

/-- What a move adds to what has entered. -/
theorem Moves.entered_eq {fits : List α → α → Prop} {s s' : Conveyor α} (h : Moves fits s s') :
    s'.entered = s.entered ∨ ∃ x, fits s.entered x ∧ s'.entered = s.entered ++ [x] := by
  cases h with
  | enters hx => exact .inr ⟨_, hx, rfl⟩
  | stays | taken hx | delivered | discarded hx => exact .inl rfl

/-- What has been taken entered before what is waiting. -/
theorem Kept.before {s : Conveyor α} (h : Kept s) {r : α → α → Prop} (hr : s.entered.Pairwise r)
    {x y : α} (hx : x ∈ s.delivered.flatten ++ s.batch) (hy : y ∈ s.waiting) : r x y :=
  (List.pairwise_append.mp (hr.sublist h.line)).2.2 x hx y hy

/-- What entered has been taken or discarded, or is waiting. -/
theorem Kept.mem_iff {s : Conveyor α} (h : Kept s) {x : α} : x ∈ s.entered ↔
    ((x ∈ s.delivered.flatten ∨ x ∈ s.batch) ∨ x ∈ s.waiting) ∨ x ∈ s.discarded := by
  rw [← h.perm.mem_iff, Conveyor.line, List.mem_append, List.mem_append, List.mem_append]

end Conveyor
