import Mathlib

/-!
# Insertion-ordered dictionaries

A dictionary is a list of entries no two of which have the same key.  Assigning
to a key that is present replaces its value in place; assigning to a new key
appends an entry at the end, so the order of the entries is the order in which
the keys were first assigned.

## Main definitions

* `Dict` — the entries, with the proof that no key is repeated.
* `Dict.get?`, `Dict.set`, `Dict.erase` — lookup, assignment and removal.
* `Dict.keys`, `Dict.values` — in insertion order.

## Main results

* `Dict.get?_set`, `Dict.keys_set` — what an assignment changes.
* `Dict.sum_values` — a sum over the values is a sum over the set of keys, so it
  does not depend on the order of the entries.
-/

universe u v

/-- A dictionary that remembers the order in which its keys were first assigned. -/
structure Dict (κ : Type u) (α : Type v) where
  /-- The entries, oldest key first. -/
  entries : List (κ × α)
  /-- No key occurs twice. -/
  nodup_keys : (entries.map Prod.fst).Nodup
  deriving DecidableEq, Repr

namespace Dict

variable {κ : Type u} {α : Type v}

/-- The empty dictionary. -/
def empty : Dict κ α := ⟨[], List.nodup_nil⟩

instance : EmptyCollection (Dict κ α) := ⟨empty⟩

instance : Inhabited (Dict κ α) := ⟨empty⟩

/-- The keys, in insertion order. -/
def keys (d : Dict κ α) : List κ := d.entries.map Prod.fst

/-- The values, in insertion order of their keys. -/
def values (d : Dict κ α) : List α := d.entries.map Prod.snd

theorem ext_entries {d e : Dict κ α} (h : d.entries = e.entries) : d = e := by
  cases d; cases e; simp_all

theorem nodup_keys' (d : Dict κ α) : d.keys.Nodup := d.nodup_keys

@[simp] theorem keys_empty : (∅ : Dict κ α).keys = [] := rfl

@[simp] theorem values_empty : (∅ : Dict κ α).values = [] := rfl

variable [DecidableEq κ]

/-- The value of a key, if it has one. -/
def get? (d : Dict κ α) (k : κ) : Option α := d.entries.lookup k

/-- The value of a key, or a default. -/
def getD (d : Dict κ α) (k : κ) (default : α) : α := (d.get? k).getD default

/-- Replace the value of the first entry with key `k`, or append an entry. -/
def setEntries (k : κ) (v : α) : List (κ × α) → List (κ × α)
  | [] => [(k, v)]
  | p :: l => if p.1 = k then (p.1, v) :: l else p :: setEntries k v l

theorem map_fst_setEntries (k : κ) (v : α) (l : List (κ × α)) :
    (setEntries k v l).map Prod.fst
      = if k ∈ l.map Prod.fst then l.map Prod.fst else l.map Prod.fst ++ [k] := by
  induction l with
  | nil => simp [setEntries]
  | cons p l ih =>
    by_cases hp : p.1 = k
    · simp [setEntries, hp]
    · have hk : k ≠ p.1 := fun h => hp h.symm
      simp only [setEntries, if_neg hp, List.map_cons, ih, List.mem_cons, hk, false_or]
      split <;> rfl

/-- Assign a value to a key. -/
def set (d : Dict κ α) (k : κ) (v : α) : Dict κ α where
  entries := setEntries k v d.entries
  nodup_keys := by
    rw [map_fst_setEntries]
    split
    · exact d.nodup_keys
    · next h =>
      refine List.nodup_append.mpr ⟨d.nodup_keys, List.nodup_singleton k, ?_⟩
      intro a ha b hb
      rw [List.mem_singleton] at hb
      rintro rfl
      exact h (hb ▸ ha)

/-- Remove a key. -/
def erase (d : Dict κ α) (k : κ) : Dict κ α where
  entries := d.entries.filter fun p => p.1 ≠ k
  nodup_keys := d.nodup_keys.sublist (List.filter_sublist.map Prod.fst)

/-! ### Lookup -/

@[simp] theorem get?_empty (k : κ) : (∅ : Dict κ α).get? k = none := rfl

@[simp] theorem getD_empty (k : κ) (v : α) : (∅ : Dict κ α).getD k v = v := rfl

theorem lookup_eq_some_iff {l : List (κ × α)} (hl : (l.map Prod.fst).Nodup) {k : κ} {v : α} :
    l.lookup k = some v ↔ (k, v) ∈ l := by
  induction l with
  | nil => simp
  | cons p l ih =>
    obtain ⟨a, b⟩ := p
    rw [List.map_cons, List.nodup_cons] at hl
    rw [List.lookup_cons]
    by_cases hk : k = a
    · subst hk
      -- the key occurs nowhere in the tail
      have hnot : (k, v) ∉ l := fun h => hl.1 (List.mem_map.mpr ⟨(k, v), h, rfl⟩)
      simp [hnot, eq_comm]
    · simp only [beq_eq_false_iff_ne.mpr hk, List.mem_cons, Prod.mk.injEq, hk, false_and, false_or]
      exact ih hl.2

theorem get?_eq_some_iff {d : Dict κ α} {k : κ} {v : α} :
    d.get? k = some v ↔ (k, v) ∈ d.entries := lookup_eq_some_iff d.nodup_keys

theorem mem_keys_iff {d : Dict κ α} {k : κ} : k ∈ d.keys ↔ ∃ v, d.get? k = some v := by
  simp only [keys, List.mem_map, get?_eq_some_iff]
  constructor
  · rintro ⟨p, hp, rfl⟩; exact ⟨p.2, hp⟩
  · rintro ⟨v, hv⟩; exact ⟨(k, v), hv, rfl⟩

theorem mem_keys_iff_isSome {d : Dict κ α} {k : κ} : k ∈ d.keys ↔ (d.get? k).isSome = true := by
  rw [mem_keys_iff, Option.isSome_iff_exists]

theorem mem_keys_of_get? {d : Dict κ α} {k : κ} {v : α} (h : d.get? k = some v) : k ∈ d.keys :=
  mem_keys_iff.mpr ⟨v, h⟩

theorem get?_eq_none_iff {d : Dict κ α} {k : κ} : d.get? k = none ↔ k ∉ d.keys := by
  rw [mem_keys_iff]
  cases d.get? k <;> simp

theorem mem_values_iff {d : Dict κ α} {v : α} : v ∈ d.values ↔ ∃ k, d.get? k = some v := by
  simp only [values, List.mem_map, get?_eq_some_iff]
  constructor
  · rintro ⟨p, hp, rfl⟩; exact ⟨p.1, hp⟩
  · rintro ⟨k, hk⟩; exact ⟨(k, v), hk, rfl⟩

/-! ### Assignment -/

theorem lookup_setEntries (k a : κ) (v : α) (l : List (κ × α)) :
    (setEntries k v l).lookup a = if a = k then some v else l.lookup a := by
  induction l with
  | nil =>
    by_cases h : a = k
    · simp [setEntries, h]
    · simp [setEntries, List.lookup_cons, h, beq_eq_false_iff_ne.mpr h]
  | cons p l ih =>
    obtain ⟨b, w⟩ := p
    by_cases hb : b = k
    · subst hb
      by_cases ha : a = b
      · simp [setEntries, ha]
      · simp [setEntries, ha, List.lookup_cons, beq_eq_false_iff_ne.mpr ha]
    · by_cases ha : a = b
      · simp [setEntries, hb, ha]
      · simp [setEntries, hb, List.lookup_cons, beq_eq_false_iff_ne.mpr ha, ih]

theorem get?_set (d : Dict κ α) (k a : κ) (v : α) :
    (d.set k v).get? a = if a = k then some v else d.get? a := lookup_setEntries k a v d.entries

@[simp] theorem get?_set_self (d : Dict κ α) (k : κ) (v : α) : (d.set k v).get? k = some v := by
  rw [get?_set, if_pos rfl]

theorem keys_set (d : Dict κ α) (k : κ) (v : α) :
    (d.set k v).keys = if k ∈ d.keys then d.keys else d.keys ++ [k] :=
  map_fst_setEntries k v d.entries

theorem mem_keys_set {d : Dict κ α} {k a : κ} {v : α} :
    a ∈ (d.set k v).keys ↔ a = k ∨ a ∈ d.keys := by
  rw [keys_set]
  split
  · constructor
    · exact Or.inr
    · rintro (rfl | h) <;> assumption
  · simp [or_comm]

/-- A new key goes to the end. -/
theorem entries_set_of_notMem {d : Dict κ α} {k : κ} (v : α) (h : k ∉ d.keys) :
    (d.set k v).entries = d.entries ++ [(k, v)] := by
  show setEntries k v d.entries = _
  rw [keys] at h
  revert h
  induction d.entries with
  | nil => intro; rfl
  | cons p l ih =>
    intro h
    rw [List.map_cons, List.mem_cons, not_or] at h
    rw [setEntries, if_neg (Ne.symm h.1), ih h.2, List.cons_append]

/-- New keys go to the end in order. -/
theorem entries_foldl_set {d : Dict κ α} {l : List (κ × α)} (hl : (l.map Prod.fst).Nodup)
    (hd : ∀ p ∈ l, p.1 ∉ d.keys) :
    (l.foldl (fun d p => d.set p.1 p.2) d).entries = d.entries ++ l := by
  induction l generalizing d with
  | nil => exact (List.append_nil _).symm
  | cons p l ih =>
    rw [List.map_cons, List.nodup_cons] at hl
    have hset := entries_set_of_notMem p.2 (hd p List.mem_cons_self)
    rw [List.foldl_cons, ih hl.2, hset, List.append_assoc, List.singleton_append]
    intro q hq hmem
    rw [keys, hset, List.map_append, List.mem_append] at hmem
    rcases hmem with hmem | hmem
    · exact hd q (List.mem_cons_of_mem p hq) hmem
    · exact hl.1 (List.mem_singleton.mp hmem ▸ List.mem_map_of_mem hq)

theorem mem_keys_foldl_set {l : List (κ × α)} {d : Dict κ α} {a : κ} :
    a ∈ (l.foldl (fun d p => d.set p.1 p.2) d).keys ↔ a ∈ d.keys ∨ a ∈ l.map Prod.fst := by
  induction l generalizing d with
  | nil => simp
  | cons p l ih =>
    rw [List.foldl_cons, ih, mem_keys_set, List.map_cons, List.mem_cons]
    tauto

theorem get?_foldl_set_of_notMem {l : List (κ × α)} {d : Dict κ α} {a : κ}
    (h : a ∉ l.map Prod.fst) :
    (l.foldl (fun d p => d.set p.1 p.2) d).get? a = d.get? a := by
  induction l generalizing d with
  | nil => rfl
  | cons p l ih =>
    rw [List.map_cons, List.mem_cons, not_or] at h
    rw [List.foldl_cons, ih h.2, get?_set, if_neg h.1]

/-- A dictionary is determined by its keys, in order, and their values. -/
theorem ext_get? {d e : Dict κ α} (hkeys : d.keys = e.keys) (h : ∀ k, d.get? k = e.get? k) :
    d = e := by
  apply ext_entries
  have hlen : d.entries.length = e.entries.length := by
    have := congrArg List.length hkeys
    rwa [keys, keys, List.length_map, List.length_map] at this
  refine List.ext_getElem hlen fun i hi hi' => ?_
  have hfst : d.entries[i].1 = e.entries[i].1 := by
    have := List.getElem_of_eq hkeys (by simpa [keys] using hi)
    simpa [keys] using this
  have hd : d.get? d.entries[i].1 = some d.entries[i].2 :=
    get?_eq_some_iff.mpr (List.getElem_mem hi)
  have he : e.get? e.entries[i].1 = some e.entries[i].2 :=
    get?_eq_some_iff.mpr (List.getElem_mem hi')
  have hsnd : some d.entries[i].2 = some e.entries[i].2 := by rw [← hd, ← he, ← hfst, h]
  exact Prod.ext hfst (Option.some.inj hsnd)

/-! ### Removal and maps -/

theorem get?_erase (d : Dict κ α) (k a : κ) :
    (d.erase k).get? a = if a = k then none else d.get? a := by
  refine Option.ext fun v => ?_
  rw [get?_eq_some_iff]
  simp only [erase, List.mem_filter, decide_eq_true_eq]
  split
  · next h => simp [h]
  · next h => rw [get?_eq_some_iff]; simp [h]

theorem mem_keys_erase {d : Dict κ α} {k a : κ} : a ∈ (d.erase k).keys ↔ a ≠ k ∧ a ∈ d.keys := by
  rw [mem_keys_iff_isSome, mem_keys_iff_isSome, get?_erase]
  by_cases h : a = k <;> simp [h]

/-- Removing a key that has just been added. -/
theorem erase_set_of_notMem {d : Dict κ α} {k : κ} (v : α) (h : k ∉ d.keys) :
    (d.set k v).erase k = d := by
  apply ext_entries
  show (d.set k v).entries.filter (fun p => p.1 ≠ k) = d.entries
  rw [entries_set_of_notMem v h, List.filter_append, List.filter_singleton, List.filter_eq_self.mpr]
  · simp
  · intro p hp
    have hkey : p.1 ∈ d.keys := List.mem_map_of_mem hp
    exact decide_eq_true fun heq => h (heq ▸ hkey)

/-- Keep the keys that meet a condition. -/
def filterKeys (d : Dict κ α) (p : κ → Bool) : Dict κ α where
  entries := d.entries.filter fun entry => p entry.1
  nodup_keys := d.nodup_keys.sublist (List.filter_sublist.map Prod.fst)

theorem get?_filterKeys (d : Dict κ α) (p : κ → Bool) (k : κ) :
    (d.filterKeys p).get? k = if p k then d.get? k else none := by
  refine Option.ext fun v => ?_
  rw [get?_eq_some_iff, filterKeys, List.mem_filter]
  split
  · next h => rw [get?_eq_some_iff]; simp [h]
  · next h => simp [h]

/-! ### Grouping -/

/-- The items of a list under their keys, in order. -/
def groupBy {ι : Type w} (key : ι → κ) (items : List ι) : Dict κ (List ι) :=
  items.foldl (fun d i => d.set (key i) (d.getD (key i) [] ++ [i])) ∅

theorem get?_groupBy {ι : Type w} (key : ι → κ) (items : List ι) (k : κ) :
    (groupBy key items).get? k
      = if items.filter (key · = k) = [] then none else some (items.filter (key · = k)) := by
  induction items using List.reverseRecOn with
  | nil => rfl
  | append_singleton items i ih =>
    rw [groupBy, List.foldl_append, List.foldl_cons, List.foldl_nil, ← groupBy, get?_set,
      List.filter_append]
    by_cases hk : k = key i
    · subst hk
      rw [if_pos rfl, getD, ih]
      by_cases hnil : items.filter (key · = key i) = [] <;> simp [hnil]
    · rw [if_neg hk, ih]
      have hnil : [i].filter (key · = k) = [] := by simp [Ne.symm hk]
      rw [hnil, List.append_nil]

/-- Items of one key are one group. -/
theorem entries_groupBy_of_const {ι : Type w} {key : ι → κ} {items : List ι} {k : κ}
    (hne : items ≠ []) (hkey : ∀ i ∈ items, key i = k) :
    (groupBy key items).entries = [(k, items)] := by
  induction items using List.reverseRecOn with
  | nil => exact absurd rfl hne
  | append_singleton items i ih =>
    have hi : key i = k := hkey i (List.mem_append_right items (List.mem_singleton_self i))
    rw [groupBy, List.foldl_append, List.foldl_cons, List.foldl_nil, ← groupBy, hi]
    cases items with
    | nil => rfl
    | cons j items =>
      have hgroup := ih (List.cons_ne_nil j items) fun x hx => hkey x (List.mem_append_left _ hx)
      have hget : (groupBy key (j :: items)).getD k [] = j :: items := by
        rw [getD, get?_eq_some_iff.mpr (by rw [hgroup]; exact List.mem_singleton_self _)]
        rfl
      show setEntries k _ (groupBy key (j :: items)).entries = _
      rw [hgroup, hget]
      exact if_pos rfl

/-- Only the items of a key are grouped under it. -/
theorem mem_of_get?_groupBy {ι : Type w} {key : ι → κ} {items l : List ι} {k : κ}
    (h : (groupBy key items).get? k = some l) : l ≠ [] ∧ ∀ i ∈ l, key i = k := by
  rw [get?_groupBy] at h
  split at h
  · simp at h
  · next hne =>
    obtain rfl := Option.some.inj h
    exact ⟨hne, fun i hi => by simpa using List.of_mem_filter hi⟩

/-- A part of a state that only the entry of `k` touches, after the entries have been
gone through. -/
theorem foldl_entries_eq {σ : Type w} {β : Type*} {f : σ → β} {step : σ → κ × α → σ}
    {g : α → β → β} (d : Dict κ α) (k : κ)
    (hself : ∀ s v, (k, v) ∈ d.entries → f (step s (k, v)) = g v (f s))
    (hother : ∀ s p, p ∈ d.entries → p.1 ≠ k → f (step s p) = f s) (s : σ) :
    f (d.entries.foldl step s) = (d.get? k).elim (f s) fun v => g v (f s) := by
  have hlist : ∀ (l : List (κ × α)) (s : σ), (l.map Prod.fst).Nodup → (∀ p ∈ l, p ∈ d.entries) →
      f (l.foldl step s) = (l.lookup k).elim (f s) fun v => g v (f s) := by
    intro l
    induction l with
    | nil => intros; rfl
    | cons p l ih =>
      intro s hnodup hsub
      obtain ⟨a, b⟩ := p
      rw [List.map_cons, List.nodup_cons] at hnodup
      have htail := ih (step s (a, b)) hnodup.2 fun p hp => hsub p (List.mem_cons_of_mem _ hp)
      rw [List.foldl_cons, htail, List.lookup_cons]
      by_cases ha : k = a
      · subst ha
        -- the key does not occur again
        have hnone : l.lookup k = none := by
          cases hl : l.lookup k with
          | none => rfl
          | some v =>
            have hmem := (lookup_eq_some_iff hnodup.2).mp hl
            exact absurd (List.mem_map_of_mem (f := Prod.fst) hmem) hnodup.1
        rw [hnone, beq_self_eq_true]
        exact hself s b (hsub _ List.mem_cons_self)
      · rw [beq_eq_false_iff_ne.mpr ha, hother s (a, b) (hsub _ List.mem_cons_self) (Ne.symm ha)]
  exact hlist d.entries s d.nodup_keys fun p hp => hp

/-! ### Sums over the values -/

/-- A sum over the values, as a sum over the set of keys. -/
theorem sum_values {M : Type w} [AddCommMonoid M] (d : Dict κ α) (f : α → M) :
    (d.values.map f).sum = ∑ k ∈ d.keys.toFinset, (d.get? k).elim 0 f := by
  rw [List.sum_toFinset _ d.nodup_keys', keys, values, List.map_map, List.map_map]
  congr 1
  refine List.map_congr_left fun p hp => ?_
  have h : d.get? p.1 = some p.2 := get?_eq_some_iff.mpr hp
  simp [h]

theorem length_values (d : Dict κ α) : d.values.length = d.keys.toFinset.card := by
  rw [List.toFinset_card_of_nodup d.nodup_keys', keys, values, List.length_map, List.length_map]

end Dict
