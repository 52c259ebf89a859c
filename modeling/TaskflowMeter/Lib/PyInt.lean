import Mathlib

/-!
# Reading an integer

What Python's `int` makes of a text: white space around it is left out, a sign may come
first, and a single underscore may stand between two digits.  The digits are those of any
script.  How many of them an interpreter is willing to read may be limited.

## Main definitions

* `PyInt.digit?` — a decimal digit of any script.
* `PyInt.int?` — the whole text.

## Main results

* `int?_toString` — **the text of an integer reads back as it.**
-/

namespace PyInt

/-- The zeros of the scripts that have decimal digits; the other digits of a script follow its
zero. -/
def zeros : List ℕ :=
  [0x30, 0x660, 0x6f0, 0x7c0, 0x966, 0x9e6, 0xa66, 0xae6, 0xb66, 0xbe6, 0xc66, 0xce6, 0xd66, 0xde6,
    0xe50, 0xed0, 0xf20, 0x1040, 0x1090, 0x17e0, 0x1810, 0x1946, 0x19d0, 0x1a80, 0x1a90, 0x1b50,
    0x1bb0, 0x1c40, 0x1c50, 0xa620, 0xa8d0, 0xa900, 0xa9d0, 0xa9f0, 0xaa50, 0xabf0, 0xff10, 0x104a0,
    0x10d30, 0x11066, 0x110f0, 0x11136, 0x111d0, 0x112f0, 0x11450, 0x114d0, 0x11650, 0x116c0,
    0x11730, 0x118e0, 0x11950, 0x11c50, 0x11d50, 0x11da0, 0x16a60, 0x16ac0, 0x16b50, 0x1d7ce,
    0x1d7d8, 0x1d7e2, 0x1d7ec, 0x1d7f6, 0x1e140, 0x1e2f0, 0x1e950, 0x1fbf0]

/-- The value of a decimal digit. -/
def digit? (c : Char) : Option ℕ :=
  (zeros.find? fun z => z ≤ c.toNat && c.toNat < z + 10).map fun z => c.toNat - z

/-- White space that may stand around a number.  Four control characters that count as white space
elsewhere are not left out. -/
def isSpace (c : Char) : Bool :=
  (0x9 ≤ c.toNat && c.toNat ≤ 0xd) || (0x2000 ≤ c.toNat && c.toNat ≤ 0x200a)
    || [0x20, 0x85, 0xa0, 0x1680, 0x2028, 0x2029, 0x202f, 0x205f, 0x3000].contains c.toNat

/-- What follows a digit: `n` is the number read so far. -/
def more? (n : ℕ) : List Char → Option ℕ
  | [] => some n
  | c :: cs =>
      match digit? c with
      | some d => more? (10 * n + d) cs
      | none =>
          match c, cs with
          | '_', c' :: cs' =>
              match digit? c' with
              | some d => more? (10 * n + d) cs'
              | none => none
          | _, _ => none

/-- A number without a sign. -/
def natural? : List Char → Option ℕ
  | [] => none
  | c :: cs =>
      match digit? c with
      | some d => more? d cs
      | none => none

/-- A number with or without a sign. -/
def signed? : List Char → Option ℤ
  | '+' :: cs => (natural? cs).map Int.ofNat
  | '-' :: cs => (natural? cs).map fun n => -(n : ℤ)
  | cs => (natural? cs).map Int.ofNat

def strip (cs : List Char) : List Char := (cs.dropWhile isSpace).rdropWhile isSpace

/-- How many digits stand in a text. -/
def digits (text : String) : ℕ := text.toList.countP fun c => (digit? c).isSome

/-- The integer that a text gives, if it gives one and has no more digits than are read. -/
def int? (text : String) (maxDigits : Option ℕ := none) : Option ℤ :=
  if maxDigits.any (· < digits text) then none else signed? (strip text.toList)

theorem int?_of_unlimited (text : String) : int? text = signed? (strip text.toList) := rfl

/-! ### The text of an integer -/

theorem digit?_of_isDigit {c : Char} (h : c.isDigit = true) :
    digit? c = some (c.toNat - '0'.toNat) := by
  have hle : 48 ≤ c.toNat ∧ c.toNat ≤ 57 := by
    simpa [Char.isDigit, UInt32.le_iff_toNat_le] using h
  have hzero : zeros.find? (fun z => z ≤ c.toNat && c.toNat < z + 10) = some 0x30 := by
    rw [zeros, List.find?_cons_of_pos]
    simp
    omega
  rw [digit?, hzero]
  rfl

theorem more?_cons {n d : ℕ} {c : Char} (h : digit? c = some d) (cs : List Char) :
    more? n (c :: cs) = more? (10 * n + d) cs := by
  rw [more?.eq_def]
  dsimp only
  rw [h]

/-- Digits with nothing between them. -/
theorem more?_of_isDigit {n : ℕ} {cs : List Char} (h : ∀ c ∈ cs, c.isDigit = true) :
    more? n cs = some (Nat.ofDigitChars 10 cs n) := by
  induction cs generalizing n with
  | nil => rfl
  | cons c cs ih =>
    rw [more?_cons (digit?_of_isDigit (h c List.mem_cons_self)), Nat.ofDigitChars_cons]
    exact ih fun c' hc' => h c' (List.mem_cons_of_mem c hc')

theorem natural?_of_isDigit {cs : List Char} (hne : cs ≠ []) (h : ∀ c ∈ cs, c.isDigit = true) :
    natural? cs = some (Nat.ofDigitChars 10 cs 0) := by
  cases cs with
  | nil => exact absurd rfl hne
  | cons c cs =>
    rw [natural?, digit?_of_isDigit (h c List.mem_cons_self), Nat.ofDigitChars_cons]
    rw [Nat.mul_zero, Nat.zero_add]
    exact more?_of_isDigit fun c' hc' => h c' (List.mem_cons_of_mem c hc')

theorem natural?_toDigits (n : ℕ) : natural? (Nat.toDigits 10 n) = some n := by
  rw [natural?_of_isDigit Nat.toDigits_ne_nil]
  · rw [Nat.ofDigitChars_ten_toDigits]
  · intro c hc
    exact Nat.isDigit_of_mem_toDigits (by decide) (by decide) hc

theorem not_isSpace_of_isDigit {c : Char} (h : c.isDigit = true) : isSpace c = false := by
  have hle : 48 ≤ c.toNat ∧ c.toNat ≤ 57 := by
    simpa [Char.isDigit, UInt32.le_iff_toNat_le] using h
  unfold isSpace
  simp
  omega

/-- Nothing is left out of a text that neither begins nor ends with white space. -/
theorem strip_eq_self {cs : List Char} (hhead : ∀ c ∈ cs.head?, isSpace c = false)
    (hlast : ∀ c ∈ cs.getLast?, isSpace c = false) : strip cs = cs := by
  have hdrop : cs.dropWhile isSpace = cs := by
    cases cs with
    | nil => rfl
    | cons c cs => rw [List.dropWhile_cons_of_neg (by simp [hhead c rfl])]
  rw [strip, hdrop, List.rdropWhile_eq_self_iff]
  intro hne hspace
  rw [hlast _ (List.getLast?_eq_some_getLast hne)] at hspace
  cases hspace

/-- A sign, and digits after it. -/
theorem strip_signed {s : List Char} (hsign : ∀ c ∈ s, isSpace c = false) {cs : List Char}
    (h : ∀ c ∈ cs, c.isDigit = true) : strip (s ++ cs) = s ++ cs := by
  have hall : ∀ c ∈ s ++ cs, isSpace c = false := by
    intro c hc
    rcases List.mem_append.mp hc with hc | hc
    · exact hsign c hc
    · exact not_isSpace_of_isDigit (h c hc)
  refine strip_eq_self ?_ ?_
  · intro c hc
    exact hall c (List.mem_of_mem_head? hc)
  · intro c hc
    exact hall c (List.mem_of_getLast? hc)

theorem isDigit_toDigits (n : ℕ) : ∀ c ∈ Nat.toDigits 10 n, c.isDigit = true := by
  intro c hc
  exact Nat.isDigit_of_mem_toDigits (by decide) (by decide) hc

/-- Digits are no sign. -/
theorem signed?_of_isDigit {cs : List Char} (h : ∀ c ∈ cs, c.isDigit = true) :
    signed? cs = (natural? cs).map Int.ofNat := by
  unfold signed?
  split
  · exact absurd (h '+' List.mem_cons_self) (by decide)
  · exact absurd (h '-' List.mem_cons_self) (by decide)
  · rfl

theorem toList_ofNat (n : ℕ) : (toString (Int.ofNat n)).toList = Nat.toDigits 10 n :=
  Nat.toList_repr

theorem toList_negSucc (n : ℕ) :
    (toString (Int.negSucc n)).toList = '-' :: Nat.toDigits 10 (n + 1) := by
  show ("-" ++ Nat.repr (n + 1)).toList = _
  rw [String.toList_append, Nat.toList_repr]
  rfl

/-- The text of an integer has a sign and digits. -/
theorem mem_toString {n : ℤ} {c : Char} (h : c ∈ (toString n).toList) :
    c = '-' ∨ c.isDigit = true := by
  cases n with
  | ofNat n =>
    rw [toList_ofNat] at h
    exact Or.inr (isDigit_toDigits n c h)
  | negSucc n =>
    rw [toList_negSucc] at h
    exact (List.mem_cons.mp h).imp id (isDigit_toDigits (n + 1) c)

/-- **The text of an integer reads back as it.** -/
theorem int?_toString (n : ℤ) : int? (toString n) = some n := by
  cases n with
  | ofNat n =>
    have hstrip : strip (Nat.toDigits 10 n) = Nat.toDigits 10 n :=
      strip_signed (List.forall_mem_nil _) (isDigit_toDigits n)
    rw [int?_of_unlimited, toList_ofNat, hstrip, signed?_of_isDigit (isDigit_toDigits n),
      natural?_toDigits]
    rfl
  | negSucc n =>
    have hstrip : strip ('-' :: Nat.toDigits 10 (n + 1)) = '-' :: Nat.toDigits 10 (n + 1) := by
      refine strip_signed (s := ['-']) ?_ (isDigit_toDigits (n + 1))
      intro c hc
      obtain rfl := List.mem_singleton.mp hc
      rfl
    rw [int?_of_unlimited, toList_negSucc, hstrip, signed?, natural?_toDigits]
    rfl

example : int? " +1_0\n" = some 10 := rfl

example : int? "1__0" = none := rfl

example : int? "-1_000" (some 3) = none := rfl

end PyInt
