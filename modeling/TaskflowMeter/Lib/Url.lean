import TaskflowMeter.Lib.Utf8

/-!
# Text in URLs

What `urllib.parse` makes of text that goes into a URL, and of text that comes out of one.

## Main definitions

* `Url.quotePlus`, `Url.unquote` — escape text, and read escapes.
* `Url.urlencode`, `Url.parseQsl` — a query string of names and values, and back.
* `Url.hasEscape` — text has an escape in it.
* `Url.pathOf`, `Url.queryOf` — the two parts of a link that a server is sent.
* `Url.Plain` — text that stands for itself in the path of a link.

## Main results

* `unquotePlus_quotePlus`, `parseQsl_urlencode` — **what was escaped reads back as it was.**
* `unquote_eq_self_iff` — **text is left as it is exactly when there is no escape in it.**
* `plain_iff_length_le` — text is plain exactly when nothing of it is lost on the way to a server.
-/

namespace Url

open Utf8

/-! ### Escapes -/

def hexDigit (n : ℕ) : Char := if n < 10 then Char.ofNat (0x30 + n) else Char.ofNat (0x37 + n)

def hexValue? (c : Char) : Option ℕ :=
  if 0x30 ≤ c.toNat ∧ c.toNat ≤ 0x39 then some (c.toNat - 0x30)
  else if 0x41 ≤ c.toNat ∧ c.toNat ≤ 0x46 then some (c.toNat - 0x37)
  else if 0x61 ≤ c.toNat ∧ c.toNat ≤ 0x66 then some (c.toNat - 0x57)
  else none

/-- Characters that are never escaped. -/
def alwaysSafe (c : Char) : Bool := c.isAlphanum || ['_', '.', '-', '~'].contains c

def escape (b : UInt8) : List Char := ['%', hexDigit (b.toNat / 16), hexDigit (b.toNat % 16)]

def quotePlusChar (c : Char) : List Char :=
  if c = ' ' then ['+']
  else if alwaysSafe c then [c]
  else (String.utf8EncodeChar c).flatMap escape

def quotePlus (text : List Char) : List Char := text.flatMap quotePlusChar

/-- The byte of the escape that text begins with. -/
def escaped? : List Char → Option UInt8
  | '%' :: a :: b :: _ =>
      match hexValue? a, hexValue? b with
      | some x, some y => some (UInt8.ofNat (16 * x + y))
      | _, _ => none
  | _ => none

/-- Read escapes, after a number of characters that have been read: the bytes of escapes that
follow one another are read as text together. -/
def unquoteFrom : ℕ → List UInt8 → List Char → List Char
  | _, bytes, [] => decode bytes
  | k + 1, bytes, _ :: text => unquoteFrom k bytes text
  | 0, bytes, c :: text =>
      match escaped? (c :: text) with
      | some b => unquoteFrom 2 (bytes ++ [b]) text
      | none => decode bytes ++ c :: unquoteFrom 0 [] text

def unquote (text : List Char) : List Char := unquoteFrom 0 [] text

/-- The bytes that text with escapes stands for. -/
def unquoteToBytes : ℕ → List Char → List UInt8
  | _, [] => []
  | k + 1, _ :: text => unquoteToBytes k text
  | 0, c :: text =>
      match escaped? (c :: text) with
      | some b => b :: unquoteToBytes 2 text
      | none => String.utf8EncodeChar c ++ unquoteToBytes 0 text

def plusToSpace (text : List Char) : List Char := text.map fun c => if c = '+' then ' ' else c

def unquotePlus (text : List Char) : List Char := unquote (plusToSpace text)

/-- Text has an escape in it. -/
def hasEscape : List Char → Bool
  | [] => false
  | c :: text => (escaped? (c :: text)).isSome || hasEscape text

/-! ### Query strings -/

/-- A query string of names and values. -/
def urlencode (pairs : List (String × String)) : String :=
  String.ofList (['&'].intercalate
    (pairs.map fun p => quotePlus p.1.toList ++ '=' :: quotePlus p.2.toList))

/-- One name and its value, which is empty where there is none. -/
def parseField (field : List Char) : String × String :=
  (String.ofList (unquotePlus (field.takeWhile (· != '='))),
    String.ofList (unquotePlus ((field.dropWhile (· != '=')).drop 1)))

/-- The names and values of a query string; blank values are kept. -/
def parseQsl (queryString : String) : List (String × String) :=
  ((queryString.toList.splitOn '&').filter fun field => !field.isEmpty).map parseField

/-! ### One escape -/

theorem hexValue?_hexDigit {n : ℕ} (h : n < 16) : hexValue? (hexDigit n) = some n := by
  interval_cases n <;> rfl

theorem hexDigit_ne {c : Char} (hc : hexValue? c = none) {n : ℕ} (h : n < 16) : hexDigit n ≠ c := by
  intro heq
  rw [← heq, hexValue?_hexDigit h] at hc
  cases hc

theorem escaped?_escape_append (b : UInt8) (text : List Char) :
    escaped? (escape b ++ text) = some b := by
  have hlt := b.toNat_lt
  have hhigh := hexValue?_hexDigit (n := b.toNat / 16) (by omega)
  have hlow := hexValue?_hexDigit (n := b.toNat % 16) (by omega)
  rw [escape]
  show escaped? ('%' :: hexDigit (b.toNat / 16) :: hexDigit (b.toNat % 16) :: text) = some b
  rw [escaped?, hhigh, hlow]
  dsimp only
  rw [Nat.div_add_mod, UInt8.ofNat_toNat]

/-- An escape takes three characters. -/
theorem escaped?_eq_some {c : Char} {text : List Char} {b : UInt8}
    (h : escaped? (c :: text) = some b) :
    c = '%' ∧ ∃ x y rest, text = x :: y :: rest ∧ hexValue? x ≠ none ∧ hexValue? y ≠ none := by
  unfold escaped? at h
  split at h
  · next x y rest heq =>
    obtain ⟨rfl, rfl⟩ := List.cons.inj heq
    refine ⟨rfl, x, y, rest, rfl, ?_, ?_⟩
    · intro hx
      rw [hx] at h
      cases h
    · intro hy
      rw [hy] at h
      cases hx : hexValue? x with
      | none =>
        rw [hx] at h
        cases h
      | some n =>
        rw [hx] at h
        cases h
  · cases h

theorem escaped?_of_ne {c : Char} (h : c ≠ '%') (text : List Char) :
    escaped? (c :: text) = none := by
  rw [Option.eq_none_iff_forall_ne_some]
  intro b hb
  exact h (escaped?_eq_some hb).1

/-- No escape reaches over a character that is no digit. -/
theorem escaped?_append {c : Char} (hhex : hexValue? c = none) (x : Char)
    (s t : List Char) : escaped? (x :: s ++ c :: t) = escaped? (x :: s) := by
  rcases s with _ | ⟨y, _ | ⟨z, s⟩⟩
  · have hnone : escaped? (x :: c :: t) = none := by
      rw [Option.eq_none_iff_forall_ne_some]
      intro b hb
      obtain ⟨-, y, z, rest, heq, hy, -⟩ := escaped?_eq_some hb
      exact hy ((List.cons.inj heq).1 ▸ hhex)
    have hnone' : escaped? [x] = none := by
      rw [Option.eq_none_iff_forall_ne_some]
      intro b hb
      obtain ⟨-, y, z, rest, heq, -⟩ := escaped?_eq_some hb
      cases heq
    exact hnone.trans hnone'.symm
  · have hnone : escaped? (x :: y :: c :: t) = none := by
      rw [Option.eq_none_iff_forall_ne_some]
      intro b hb
      obtain ⟨-, y, z, rest, heq, -, hz⟩ := escaped?_eq_some hb
      obtain ⟨-, heq⟩ := List.cons.inj heq
      exact hz ((List.cons.inj heq).1 ▸ hhex)
    have hnone' : escaped? [x, y] = none := by
      rw [Option.eq_none_iff_forall_ne_some]
      intro b hb
      obtain ⟨-, y, z, rest, heq, -⟩ := escaped?_eq_some hb
      obtain ⟨-, heq⟩ := List.cons.inj heq
      cases heq
    exact hnone.trans hnone'.symm
  · by_cases hx : x = '%'
    · rw [hx]
      rfl
    · rw [List.cons_append, escaped?_of_ne hx, escaped?_of_ne hx]

/-! ### Reading escapes -/

theorem unquoteFrom_of_none {c : Char} {text : List Char} (h : escaped? (c :: text) = none)
    (bytes : List UInt8) :
    unquoteFrom 0 bytes (c :: text) = decode bytes ++ c :: unquote text := by
  rw [unquoteFrom, h]
  rfl

theorem unquoteFrom_of_some {c : Char} {text : List Char} {b : UInt8}
    (h : escaped? (c :: text) = some b) (bytes : List UInt8) :
    unquoteFrom 0 bytes (c :: text) = unquoteFrom 2 (bytes ++ [b]) text := by
  rw [unquoteFrom, h]

theorem unquoteFrom_escape_append (b : UInt8) (bytes : List UInt8) (text : List Char) :
    unquoteFrom 0 bytes (escape b ++ text) = unquoteFrom 0 (bytes ++ [b]) text := by
  have h := escaped?_escape_append b text
  rw [escape] at h ⊢
  exact unquoteFrom_of_some h bytes

theorem unquoteFrom_flatMap_escape (bytes done : List UInt8) (text : List Char) :
    unquoteFrom 0 done (bytes.flatMap escape ++ text) = unquoteFrom 0 (done ++ bytes) text := by
  induction bytes generalizing done with
  | nil => rw [List.flatMap_nil, List.nil_append, List.append_nil]
  | cons b bytes ih =>
    rw [List.flatMap_cons, List.append_assoc, unquoteFrom_escape_append, ih, List.append_assoc,
      List.singleton_append]

/-- **Text is read on both sides of a character** that is neither a per cent sign nor a digit. -/
theorem unquoteFrom_append {c : Char} (hne : c ≠ '%') (hhex : hexValue? c = none) (k : ℕ)
    (bytes : List UInt8) (s t : List Char) (hk : k ≤ s.length) :
    unquoteFrom k bytes (s ++ c :: t) = unquoteFrom k bytes s ++ c :: unquote t := by
  induction s generalizing k bytes with
  | nil =>
    obtain rfl := Nat.le_zero.mp hk
    rw [List.nil_append, unquoteFrom_of_none (escaped?_of_ne hne t)]
    rfl
  | cons x s ih =>
    cases k with
    | succ k => exact ih k bytes (Nat.le_of_succ_le_succ hk)
    | zero =>
      have hescaped := escaped?_append hhex x s t
      rw [List.cons_append] at hescaped ⊢
      cases hx : escaped? (x :: s) with
      | none =>
        rw [unquoteFrom_of_none (hescaped.trans hx), unquoteFrom_of_none hx]
        have htail := ih 0 [] (Nat.zero_le _)
        rw [unquote, htail, List.append_assoc, List.cons_append]
        rfl
      | some b =>
        obtain ⟨-, y, z, rest, rfl, -⟩ := escaped?_eq_some hx
        rw [unquoteFrom_of_some (hescaped.trans hx), unquoteFrom_of_some hx]
        exact ih 2 (bytes ++ [b]) (by simp)

theorem unquote_append {c : Char} (hne : c ≠ '%') (hhex : hexValue? c = none) (s t : List Char) :
    unquote (s ++ c :: t) = unquote s ++ c :: unquote t :=
  unquoteFrom_append hne hhex 0 [] s t (Nat.zero_le _)

/-- Bytes are read on both sides of a character that is no digit. -/
theorem unquoteToBytes_append {c : Char} (hhex : hexValue? c = none) (k : ℕ) (s t : List Char)
    (hk : k ≤ s.length) :
    unquoteToBytes k (s ++ c :: t) = unquoteToBytes k s ++ unquoteToBytes 0 (c :: t) := by
  induction s generalizing k with
  | nil =>
    obtain rfl := Nat.le_zero.mp hk
    rfl
  | cons x s ih =>
    cases k with
    | succ k => exact ih k (Nat.le_of_succ_le_succ hk)
    | zero =>
      have hescaped := escaped?_append hhex x s t
      rw [List.cons_append] at hescaped ⊢
      rw [unquoteToBytes, unquoteToBytes, hescaped]
      cases hx : escaped? (x :: s) with
      | none =>
        dsimp only
        rw [ih 0 (Nat.zero_le _), List.append_assoc]
      | some b =>
        obtain ⟨-, y, z, rest, rfl, -⟩ := escaped?_eq_some hx
        dsimp only
        rw [ih 2 (by simp), List.cons_append]

theorem unquote_eq_self {text : List Char} (h : hasEscape text = false) : unquote text = text := by
  induction text with
  | nil => rfl
  | cons c text ih =>
    rw [hasEscape, Bool.or_eq_false_iff, Option.isSome_eq_false_iff, Option.isNone_iff_eq_none] at h
    rw [unquote, unquoteFrom_of_none h.1, ih h.2]
    rfl

theorem length_unquoteFrom_le (k : ℕ) (bytes : List UInt8) (text : List Char)
    (hk : k ≤ text.length) :
    (unquoteFrom k bytes text).length + k ≤ bytes.length + text.length := by
  induction text generalizing k bytes with
  | nil =>
    obtain rfl := Nat.le_zero.mp hk
    exact length_decode_le bytes
  | cons c text ih =>
    cases k with
    | succ k =>
      have hle := ih k bytes (Nat.le_of_succ_le_succ hk)
      rw [unquoteFrom, List.length_cons]
      omega
    | zero =>
      cases hc : escaped? (c :: text) with
      | none =>
        have hle := ih 0 [] (Nat.zero_le _)
        have hbytes := length_decode_le bytes
        rw [unquoteFrom_of_none hc, List.length_append, List.length_cons, List.length_cons]
        rw [List.length_nil] at hle
        rw [unquote]
        omega
      | some b =>
        obtain ⟨-, y, z, rest, rfl, -⟩ := escaped?_eq_some hc
        have hle := ih 2 (bytes ++ [b]) (by simp)
        rw [unquoteFrom_of_some hc]
        rw [List.length_append, List.length_singleton] at hle
        simp only [List.length_cons] at hle ⊢
        omega

/-- An escape leaves text shorter. -/
theorem length_unquote_lt {text : List Char} (h : hasEscape text = true) :
    (unquote text).length < text.length := by
  induction text with
  | nil => cases h
  | cons c text ih =>
    cases hc : escaped? (c :: text) with
    | none =>
      rw [hasEscape, hc, Option.isSome_none, Bool.false_or] at h
      have hlt := ih h
      rw [unquote, unquoteFrom_of_none hc]
      simpa using hlt
    | some b =>
      obtain ⟨-, y, z, rest, rfl, -⟩ := escaped?_eq_some hc
      have hle := length_unquoteFrom_le 2 [b] (y :: z :: rest) (by simp)
      rw [unquote, unquoteFrom_of_some hc, List.nil_append]
      simp only [List.length_cons, List.length_nil] at hle ⊢
      omega

/-- **Text is left as it is exactly when there is no escape in it.** -/
theorem unquote_eq_self_iff {text : List Char} : unquote text = text ↔ hasEscape text = false := by
  constructor
  · intro h
    by_contra hescape
    have hlt := length_unquote_lt (Bool.not_eq_false _ ▸ hescape)
    rw [h] at hlt
    exact lt_irrefl _ hlt
  · exact unquote_eq_self

theorem length_unquote_le (text : List Char) : (unquote text).length ≤ text.length := by
  have h := length_unquoteFrom_le 0 [] text (Nat.zero_le _)
  rwa [List.length_nil, Nat.zero_add] at h

/-! ### Reading back -/

theorem ne_percent_of_alwaysSafe {c : Char} (h : alwaysSafe c = true) : c ≠ '%' ∧ c ≠ '+' := by
  constructor
  · rintro rfl
    exact absurd h (by decide)
  · rintro rfl
    exact absurd h (by decide)

theorem plusToSpace_append (s t : List Char) :
    plusToSpace (s ++ t) = plusToSpace s ++ plusToSpace t :=
  List.map_append

/-- There is no plus sign in an escape. -/
theorem plusToSpace_flatMap_escape (bytes : List UInt8) :
    plusToSpace (bytes.flatMap escape) = bytes.flatMap escape := by
  have hplus : ∀ n < 16, hexDigit n ≠ '+' := fun n hn => hexDigit_ne rfl hn
  rw [plusToSpace, List.map_flatMap]
  refine List.flatMap_congr fun b _ => ?_
  have hlt := b.toNat_lt
  rw [escape, List.map_cons, List.map_cons, List.map_cons, List.map_nil,
    if_neg (hplus _ (by omega)), if_neg (hplus _ (by omega))]
  rfl

theorem unquoteFrom_quotePlusChar (c : Char) (done : List Char) (text : List Char) :
    unquoteFrom 0 (encode done) (plusToSpace (quotePlusChar c) ++ text)
        = done ++ c :: unquote text
      ∨ unquoteFrom 0 (encode done) (plusToSpace (quotePlusChar c) ++ text)
        = unquoteFrom 0 (encode (done ++ [c])) text := by
  unfold quotePlusChar
  by_cases hspace : c = ' '
  · left
    rw [if_pos hspace, hspace]
    show unquoteFrom 0 (encode done) (' ' :: text) = _
    rw [unquoteFrom_of_none (escaped?_of_ne (by decide) text), decode_encode]
  · rw [if_neg hspace]
    by_cases hsafe : alwaysSafe c = true
    · left
      obtain ⟨hpercent, hplus⟩ := ne_percent_of_alwaysSafe hsafe
      rw [if_pos hsafe, plusToSpace, List.map_singleton, if_neg hplus, List.singleton_append,
        unquoteFrom_of_none (escaped?_of_ne hpercent text), decode_encode]
    · right
      rw [if_neg hsafe, plusToSpace_flatMap_escape, unquoteFrom_flatMap_escape, encode_append,
        encode_cons, encode_nil, List.append_nil]

theorem unquoteFrom_quotePlus (text done : List Char) :
    unquoteFrom 0 (encode done) (plusToSpace (quotePlus text)) = done ++ text := by
  induction text generalizing done with
  | nil => exact (decode_encode done).trans (List.append_nil done).symm
  | cons c text ih =>
    rw [quotePlus, List.flatMap_cons, plusToSpace_append]
    rcases unquoteFrom_quotePlusChar c done (plusToSpace (text.flatMap quotePlusChar)) with h | h
    · rw [h]
      have hrest := ih []
      rw [encode_nil, List.nil_append] at hrest
      exact congrArg (fun t => done ++ c :: t) hrest
    · rw [h]
      have hrest := ih (done ++ [c])
      rwa [List.append_assoc, List.singleton_append] at hrest

/-- **What was escaped reads back as it was.** -/
theorem unquotePlus_quotePlus (text : List Char) : unquotePlus (quotePlus text) = text :=
  unquoteFrom_quotePlus text []

/-- What is left of text that was escaped. -/
theorem mem_quotePlus {text : List Char} {c : Char} (h : c ∈ quotePlus text) :
    c = '+' ∨ c = '%' ∨ alwaysSafe c = true := by
  have hhex : ∀ n < 16, alwaysSafe (hexDigit n) = true := by
    intro n hn
    interval_cases n <;> decide
  obtain ⟨x, -, hx⟩ := List.mem_flatMap.mp h
  unfold quotePlusChar at hx
  split at hx
  · exact .inl (List.mem_singleton.mp hx)
  · split at hx
    · next hsafe => exact .inr (.inr (List.mem_singleton.mp hx ▸ hsafe))
    · obtain ⟨b, -, hb⟩ := List.mem_flatMap.mp hx
      have hlt := b.toNat_lt
      rw [escape] at hb
      rcases List.mem_cons.mp hb with rfl | hb
      · exact .inr (.inl rfl)
      · rcases List.mem_cons.mp hb with rfl | hb
        · exact .inr (.inr (hhex _ (by omega)))
        · exact .inr (.inr (List.mem_singleton.mp hb ▸ hhex _ (by omega)))

/-- A character with a meaning of its own in a URL is escaped. -/
theorem notMem_quotePlus {c : Char} (hplus : c ≠ '+') (hpercent : c ≠ '%')
    (hsafe : alwaysSafe c = false) (text : List Char) : c ∉ quotePlus text := by
  intro h
  rcases mem_quotePlus h with h | h | h
  · exact hplus h
  · exact hpercent h
  · rw [hsafe] at h
    cases h

theorem parseField_append (name value : String) :
    parseField (quotePlus name.toList ++ '=' :: quotePlus value.toList) = (name, value) := by
  have hall : ∀ c ∈ quotePlus name.toList, (c != '=') = true := by
    intro c hc
    rw [bne_iff_ne]
    rintro rfl
    exact notMem_quotePlus (by decide) (by decide) (by decide) _ hc
  rw [parseField, List.takeWhile_append_of_pos hall, List.dropWhile_append_of_pos hall,
    List.takeWhile_cons_of_neg (by decide), List.dropWhile_cons_of_neg (by decide), List.append_nil,
    List.drop_one, List.tail_cons, unquotePlus_quotePlus, unquotePlus_quotePlus,
    String.ofList_toList, String.ofList_toList]

/-- **A query string reads back as the names and values it was made of.** -/
theorem parseQsl_urlencode (pairs : List (String × String)) :
    parseQsl (urlencode pairs) = pairs := by
  rw [parseQsl, urlencode, String.toList_ofList]
  cases pairs with
  | nil => rfl
  | cons p pairs =>
    rw [List.splitOn_intercalate]
    · rw [List.filter_eq_self.mpr]
      · rw [List.map_map]
        refine (List.map_congr_left fun q _ => ?_).trans (List.map_id _)
        exact parseField_append q.1 q.2
      · intro field hfield
        obtain ⟨q, -, rfl⟩ := List.mem_map.mp hfield
        simp
    · intro field hfield hamp
      obtain ⟨q, -, rfl⟩ := List.mem_map.mp hfield
      rcases List.mem_append.mp hamp with hmem | hmem
      · exact notMem_quotePlus (by decide) (by decide) (by decide) _ hmem
      · rcases List.mem_cons.mp hmem with heq | hmem
        · cases heq
        · exact notMem_quotePlus (by decide) (by decide) (by decide) _ hmem
    · simp

/-! ### Links -/

/-- Nothing is sent from a hash sign on. -/
def beforeHash (link : List Char) : List Char := link.takeWhile (· != '#')

def pathOf (link : List Char) : List Char := (beforeHash link).takeWhile (· != '?')

def queryOf (link : List Char) : List Char := ((beforeHash link).dropWhile (· != '?')).drop 1

/-- Text that stands for itself in the path of a link. -/
def Plain (text : List Char) : Prop := '#' ∉ text ∧ '?' ∉ text ∧ hasEscape text = false

instance (text : List Char) : Decidable (Plain text) := inferInstanceAs (Decidable (_ ∧ _ ∧ _))

theorem pathOf_eq (link : List Char) :
    pathOf link = link.takeWhile fun c => c != '#' && c != '?' := by
  rw [pathOf, beforeHash, List.takeWhile_takeWhile]
  congr 1
  funext c
  by_cases hhash : c = '#' <;> by_cases hquestion : c = '?' <;> simp [hhash, hquestion]

/-- Text with neither of the two signs goes into the path as it is. -/
theorem pathOf_append {s : List Char} (hhash : '#' ∉ s) (hquestion : '?' ∉ s) (t : List Char) :
    pathOf (s ++ t) = s ++ pathOf t := by
  rw [pathOf_eq, pathOf_eq, List.takeWhile_append_of_pos]
  intro c hc
  rw [Bool.and_eq_true, bne_iff_ne, bne_iff_ne]
  exact ⟨fun heq => hhash (heq ▸ hc), fun heq => hquestion (heq ▸ hc)⟩

theorem length_pathOf_le (link : List Char) : (pathOf link).length ≤ link.length := by
  rw [pathOf_eq]
  exact (List.takeWhile_prefix _).length_le

/-- What comes after one of the two signs is no part of the path. -/
theorem length_pathOf_append_lt {s : List Char} (h : '#' ∈ s ∨ '?' ∈ s) (t : List Char) :
    (pathOf (s ++ t)).length < s.length := by
  have hstop : ∃ c ∈ s, ¬(c != '#' && c != '?') = true := by
    rcases h with h | h
    · exact ⟨'#', h, by decide⟩
    · exact ⟨'?', h, by decide⟩
  obtain ⟨c, hc, hsign⟩ := hstop
  obtain ⟨l, r, rfl⟩ := List.mem_iff_append.mp hc
  have hnil : (c :: (r ++ t)).takeWhile (fun c => c != '#' && c != '?') = [] :=
    List.takeWhile_cons_of_neg hsign
  rw [pathOf_eq, List.append_assoc, List.cons_append, List.takeWhile_append, hnil]
  split
  · simp
  · have hle := (List.takeWhile_prefix (l := l) fun c => c != '#' && c != '?').length_le
    rw [List.length_append, List.length_cons]
    omega

/-- Plain text on both sides of a character that is no part of an escape. -/
theorem Plain.append_cons {s t : List Char} {c : Char} (hs : Plain s) (ht : Plain t) (hne : c ≠ '%')
    (hhex : hexValue? c = none) (hhash : c ≠ '#') (hquestion : c ≠ '?') : Plain (s ++ c :: t) := by
  refine ⟨?_, ?_, ?_⟩
  · simp [hs.1, ht.1, hhash.symm]
  · simp [hs.2.1, ht.2.1, hquestion.symm]
  · rw [← unquote_eq_self_iff, unquote_append hne hhex, unquote_eq_self hs.2.2,
      unquote_eq_self ht.2.2]

/-- Plain text reaches a server whatever query follows it. -/
theorem Plain.unquote_pathOf {text rest : List Char} (h : Plain text)
    (hrest : rest = [] ∨ rest.head? = some '?') : unquote (pathOf (text ++ rest)) = text := by
  have hnil : pathOf rest = [] := by
    rcases hrest with rfl | hhead
    · rfl
    · cases rest with
      | nil => rfl
      | cons c rest =>
        obtain rfl := Option.some.inj hhead
        rw [pathOf_eq]
        rfl
  rw [pathOf_append h.1 h.2.1, hnil, List.append_nil, unquote_eq_self h.2.2]

/-- The query that follows a path. -/
theorem queryOf_append {s query : List Char} (hs : Plain s) (hquery : '#' ∉ query) :
    queryOf (s ++ '?' :: query) = query := by
  have hbefore : beforeHash (s ++ '?' :: query) = s ++ '?' :: query := by
    rw [beforeHash, List.takeWhile_eq_self_iff]
    intro c hc
    rw [bne_iff_ne]
    rintro rfl
    rcases List.mem_append.mp hc with hc | hc
    · exact hs.1 hc
    · rcases List.mem_cons.mp hc with heq | hc
      · cases heq
      · exact hquery hc
  rw [queryOf, hbefore, List.dropWhile_append_of_pos]
  · rfl
  · intro c hc
    rw [bne_iff_ne]
    exact fun heq => hs.2.1 (heq ▸ hc)

theorem hash_notMem_urlencode (name value : String) :
    '#' ∉ (urlencode [(name, value)]).toList := by
  rw [urlencode, String.toList_ofList, List.map_singleton, List.intercalate_singleton,
    List.mem_append, List.mem_cons]
  rintro (h | h | h)
  · exact notMem_quotePlus (by decide) (by decide) (by decide) _ h
  · cases h
  · exact notMem_quotePlus (by decide) (by decide) (by decide) _ h

/-- **Text is plain exactly when nothing of it is lost** on the way to a server. -/
theorem plain_iff_length_le {text : List Char} :
    Plain text ↔ text.length ≤ (unquote (pathOf text)).length := by
  constructor
  · intro h
    have hself := h.unquote_pathOf (Or.inl rfl)
    rw [List.append_nil] at hself
    rw [hself]
  · intro h
    have hunquote := length_unquote_le (pathOf text)
    by_cases hsign : '#' ∈ text ∨ '?' ∈ text
    · have hlt := length_pathOf_append_lt hsign []
      rw [List.append_nil] at hlt
      omega
    · obtain ⟨hhash, hquestion⟩ := not_or.mp hsign
      refine ⟨hhash, hquestion, ?_⟩
      have hpath := pathOf_append hhash hquestion []
      rw [List.append_nil] at hpath
      have hself : pathOf text = text := hpath.trans (List.append_nil text)
      rw [hself] at h
      by_contra hescape
      have hlt := length_unquote_lt (Bool.not_eq_false _ ▸ hescape)
      omega

/-- **A server under a prefix is sent what follows it exactly when the prefix is plain**: a path no
shorter than what stands in the link can only come of one. -/
theorem eq_of_unquote_pathOf_append {s t rest : List Char} {c : Char} (hne : c ≠ '%')
    (hhex : hexValue? c = none) (hhash : c ≠ '#') (hquestion : c ≠ '?')
    (h : unquote (pathOf (s ++ c :: t)) = s ++ rest)
      (hlength : (pathOf (c :: t)).length ≤ rest.length) :
    Plain s ∧ rest = c :: unquote (pathOf t) := by
  have hpathc : pathOf (c :: t) = c :: pathOf t :=
    pathOf_append (s := [c]) (by simpa using hhash.symm) (by simpa using hquestion.symm) t
  have htotal := congrArg List.length h
  rw [List.length_append] at htotal
  by_cases hsign : '#' ∈ s ∨ '?' ∈ s
  · have hlt := length_pathOf_append_lt hsign (c :: t)
    have hle := length_unquote_le (pathOf (s ++ c :: t))
    omega
  · obtain ⟨hs, hs'⟩ := not_or.mp hsign
    rw [pathOf_append hs hs', hpathc, unquote_append hne hhex] at h htotal
    rw [hpathc, List.length_cons] at hlength
    rw [List.length_append, List.length_cons] at htotal
    have hle := length_unquote_le (pathOf t)
    have hplain : Plain s := by
      refine ⟨hs, hs', ?_⟩
      by_contra hescape
      have hlt := length_unquote_lt (Bool.not_eq_false _ ▸ hescape)
      omega
    rw [unquote_eq_self hplain.2.2, List.append_cancel_left_eq] at h
    exact ⟨hplain, h.symm⟩

end Url
