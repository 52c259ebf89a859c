import TaskflowMeter.Client

/-!
# What a walk finds of a run that has lost events

Of the events `1, …, n` of a run some are held and the others are gone, for whatever
reason.  A client walks through what is held.

## Main definitions

* `NotBetween` — no event that is gone lies between two that are held.
* `WalkedThrough` — what a client has, and has been told, after its walk.

## Main results

* `WalkedThrough.obtains_iff` — **the client gets every event held exactly when none is cut
  off by one that is gone.**
-/

namespace TaskflowMeter

open Consecutive

/-- No number above `since` that is gone lies between two that are held. -/
def NotBetween (held gone : List Event) (since : ℤ) : Prop :=
  ∀ e ∈ gone, since < e.seq → ∀ a ∈ held, a.seq < e.seq → ∀ b ∈ held, b.seq < e.seq

instance (held gone : List Event) (since : ℤ) : Decidable (NotBetween held gone since) :=
  inferInstanceAs (Decidable (∀ e ∈ gone, since < e.seq → ∀ a ∈ held, a.seq < e.seq →
    ∀ b ∈ held, b.seq < e.seq))

/-- An event that is gone is not held, nor is another one of its number. -/
theorem Numbered.not_hasSeq_held {runId : String} {n : ℕ} {held gone : List Event}
    (h : Numbered runId n (gone ++ held)) {e : Event} (he : e ∈ gone) : ¬HasSeq held e.seq := by
  rintro ⟨x, hx, hseq⟩
  have hnodup := h.nodup
  rw [List.map_append, List.nodup_append] at hnodup
  exact hnodup.2.2 e.seq (List.mem_map_of_mem he) x.seq (List.mem_map_of_mem hx) hseq.symm

/-- What a client has, and has been told, once it has walked through the events held. -/
structure WalkedThrough (held : List Event) (since : ℤ) (client : Client) : Prop where
  received : ∀ e ∈ client.received, e ∈ held
  hasSeq : ∀ m, HasSeq client.received m
    ↔ Unbroken {k | HasSeq held k} (startOf (sortedBySeq held) since) m
  announced : ∀ m, client.Announced m
    ↔ since < m ∧ ∃ o, oldestOf (sortedBySeq held) = some o ∧ m < o

/-- **After enough calls** on a store that nobody writes to. -/
theorem walkedThrough_walk (s : WritableDataSource) (runId : String) (since : ℤ)
    {limits : List ℤ} (hlimits : ∀ limit ∈ limits, 1 ≤ limit) (hne : limits ≠ [])
    (henough : (s.held runId).length ≤ limits.length) :
    WalkedThrough (s.held runId) since (Client.walk s runId since limits) where
  received := fun _ he =>
    mem_sortedBySeq.mp ((Client.walked_walk s runId since hlimits).run.mem he)
  hasSeq := Client.hasSeq_received_walk_iff s runId since hlimits henough
  announced := Client.announced_walk_iff s runId since hlimits hne

namespace WalkedThrough

variable {runId : String} {n : ℕ} {held gone : List Event} {since : ℤ} {client : Client}

/-- An event held has been received if its number has. -/
theorem mem_received_iff (hwalk : WalkedThrough held since client)
    (h : Numbered runId n (gone ++ held)) {e : Event} (he : e ∈ held) :
    e ∈ client.received ↔ HasSeq client.received e.seq := by
  constructor
  · intro hmem
    exact ⟨e, hmem, rfl⟩
  · rintro ⟨x, hx, hseq⟩
    have hx' : x ∈ gone ++ held := List.mem_append_right _ (hwalk.received x hx)
    rw [← h.eq_of_seq hx' (List.mem_append_right _ he) hseq]
    exact hx

/-- **The client gets every event held exactly when none is cut off** by one that is gone
and lies between two of them. -/
theorem obtains_iff (hwalk : WalkedThrough held since client)
    (h : Numbered runId n (gone ++ held)) (hsince : 0 ≤ since) :
    (∀ e ∈ held, since < e.seq → e ∈ client.received) ↔ NotBetween held gone since := by
  constructor
  · intro hobtains x hx hlt a ha hax b hb
    by_contra hxb
    have hne : b.seq ≠ x.seq := fun heq => h.not_hasSeq_held hx ⟨b, hb, heq⟩
    -- the client cannot have got past `x` to `b`
    have hunbroken := (hwalk.hasSeq b.seq).mp
      ((hwalk.mem_received_iff h hb).mp (hobtains b hb (by omega)))
    have hstart : startOf (sortedBySeq held) since ≤ x.seq := by
      obtain ⟨o, ho, -⟩ := exists_oldestOf ha
      have hoa := oldestOf_sorted_le ho ha
      rw [startOf, ho, Option.getD_some]
      exact max_le (by omega) (by omega)
    exact h.not_hasSeq_held hx (hunbroken.2 x.seq hstart (by omega))
  · intro hbetween e he hlt
    rw [hwalk.mem_received_iff h he, hwalk.hasSeq]
    obtain ⟨o, ho, y, hy, hyo⟩ := exists_oldestOf he
    have hoe := oldestOf_sorted_le ho he
    have hstart : startOf (sortedBySeq held) since = max (since + 1) o := by
      rw [startOf, ho, Option.getD_some]
    rw [hstart]
    refine ⟨max_le (by omega) hoe, ?_⟩
    intro k hk hke
    by_contra hnot
    have hlow := max_le_iff.mp hk
    have hen : e.seq ≤ n := ((h.hasSeq_iff e.seq).mp ⟨e, List.mem_append_right _ he, rfl⟩).2
    obtain ⟨x, hx, rfl⟩ := (h.hasSeq_iff k).mpr ⟨by omega, by omega⟩
    have hgone : x ∈ gone := (List.mem_append.mp hx).resolve_right fun hx => hnot ⟨x, hx, rfl⟩
    -- `x` lies between the oldest event held and `e`
    have hyx : y.seq < x.seq := by
      have hne : y.seq ≠ x.seq := fun heq => hnot ⟨y, hy, heq⟩
      omega
    have hex := hbetween x hgone (by omega) y hy hyx e he
    omega

/-- The numbers received leave nothing out. -/
theorem hasSeq_of_between (hwalk : WalkedThrough held since client) {a b m : ℤ}
    (ha : HasSeq client.received a) (hb : HasSeq client.received b) (ham : a ≤ m) (hmb : m ≤ b) :
    HasSeq client.received m := by
  rw [hwalk.hasSeq] at ha hb ⊢
  exact hb.of_le (ha.1.trans ham) hmb

end WalkedThrough

end TaskflowMeter
