import Mathlib

/-!
# Bytes and text

Text as UTF-8 and as latin-1.  Where bytes are not UTF-8 the longest beginning of a character
is replaced by one U+FFFD, and reading goes on after it.

## Main definitions

* `Utf8.encode`, `Utf8.decode` — text to bytes, and back with replacements.
* `Utf8.latin1` — a character for each byte.

## Main results

* `decode_encode` — **text reads back as it is.**
* `length_decode_le` — no byte gives two characters.
* `decode_eq_latin1_iff` — **the two readings of bytes agree exactly where all are ASCII.**
-/

namespace Utf8

/-- Text as bytes. -/
def encode (text : List Char) : List UInt8 := text.flatMap String.utf8EncodeChar

/-- The character that bytes begin with. -/
def first? (bytes : List UInt8) : Option Char := bytes.toByteArray.utf8DecodeChar? 0

def isContinuation (b : UInt8) : Bool := 0x80 ≤ b && b ≤ 0xbf

/-- Whether a second byte may follow a first in a character of three or of four bytes. -/
def maySecond (a b : UInt8) : Bool :=
  if a = 0xe0 then 0xa0 ≤ b && b ≤ 0xbf
  else if a = 0xed then 0x80 ≤ b && b ≤ 0x9f
  else if a = 0xf0 then 0x90 ≤ b && b ≤ 0xbf
  else if a = 0xf4 then 0x80 ≤ b && b ≤ 0x8f
  else 0xe1 ≤ a && a ≤ 0xf3 && isContinuation b

/-- How many bytes one replacement stands for, less one. -/
def replaced : List UInt8 → ℕ
  | a :: b :: c :: _ =>
      if maySecond a b then if 0xf0 ≤ a && isContinuation c then 2 else 1 else 0
  | [a, b] => if maySecond a b then 1 else 0
  | _ => 0

/-- Read bytes as text, after a number of bytes that have been read. -/
def decodeFrom : ℕ → List UInt8 → List Char
  | _, [] => []
  | k + 1, _ :: bytes => decodeFrom k bytes
  | 0, b :: bytes =>
      match first? (b :: bytes) with
      | some c => c :: decodeFrom (c.utf8Size - 1) bytes
      | none => '\uFFFD' :: decodeFrom (replaced (b :: bytes)) bytes

/-- Bytes as text. -/
def decode (bytes : List UInt8) : List Char := decodeFrom 0 bytes

/-- Bytes as text, each a character. -/
def latin1 (bytes : List UInt8) : List Char := bytes.map fun b => Char.ofNat b.toNat

@[simp] theorem decode_nil : decode [] = [] := rfl

@[simp] theorem encode_nil : encode [] = [] := rfl

theorem encode_cons (c : Char) (text : List Char) :
    encode (c :: text) = String.utf8EncodeChar c ++ encode text := rfl

theorem encode_append (s t : List Char) : encode (s ++ t) = encode s ++ encode t :=
  List.flatMap_append

/-! ### Reading back -/

theorem decodeFrom_append (l bytes : List UInt8) :
    decodeFrom l.length (l ++ bytes) = decode bytes := by
  induction l with
  | nil => rfl
  | cons b l ih => rw [List.length_cons, List.cons_append, decodeFrom, ih]

theorem first?_encode_append (c : Char) (bytes : List UInt8) :
    first? (String.utf8EncodeChar c ++ bytes) = some c := by
  rw [first?, List.toByteArray_append]
  exact ByteArray.utf8DecodeChar?_utf8EncodeChar_append

theorem decode_encodeChar_append (c : Char) (bytes : List UInt8) :
    decode (String.utf8EncodeChar c ++ bytes) = c :: decode bytes := by
  have hfirst := first?_encode_append c bytes
  have hlength := String.length_utf8EncodeChar c
  cases hc : String.utf8EncodeChar c with
  | nil =>
    rw [hc, List.length_nil] at hlength
    exact absurd hlength.symm c.utf8Size_pos.ne'
  | cons b l =>
    rw [hc] at hfirst hlength
    rw [List.cons_append] at hfirst ⊢
    rw [decode, decodeFrom, hfirst]
    dsimp only
    rw [← hlength, List.length_cons, Nat.add_sub_cancel, decodeFrom_append]

theorem decode_encode_append (text : List Char) (bytes : List UInt8) :
    decode (encode text ++ bytes) = text ++ decode bytes := by
  induction text with
  | nil => rfl
  | cons c text ih =>
    rw [encode_cons, List.append_assoc, decode_encodeChar_append, ih, List.cons_append]

/-- **Text reads back as it is.** -/
theorem decode_encode (text : List Char) : decode (encode text) = text := by
  have h := decode_encode_append text []
  rwa [List.append_nil, decode_nil, List.append_nil] at h

/-- No byte gives two characters. -/
theorem length_decodeFrom_le (k : ℕ) (bytes : List UInt8) :
    (decodeFrom k bytes).length ≤ bytes.length := by
  induction bytes generalizing k with
  | nil => simp [decodeFrom]
  | cons b bytes ih =>
    cases k with
    | zero =>
      rw [decodeFrom]
      split
      · exact Nat.succ_le_succ (ih _)
      · exact Nat.succ_le_succ (ih _)
    | succ k => exact (ih k).trans (Nat.le_succ _)

theorem length_decode_le (bytes : List UInt8) : (decode bytes).length ≤ bytes.length :=
  length_decodeFrom_le 0 bytes

/-! ### ASCII -/

/-- A character of one byte. -/
theorem encodeChar_of_lt {c : Char} (h : c.toNat < 0x80) :
    String.utf8EncodeChar c = [UInt8.ofNat c.toNat] := by
  have hsize : c.utf8Size = 1 := by
    rw [Char.utf8Size_eq_one_iff, UInt32.le_iff_toNat_le]
    exact Nat.le_of_lt_succ h
  rw [String.utf8EncodeChar_eq_singleton hsize]
  rfl

theorem toNat_ofNat_toNat (b : UInt8) : (Char.ofNat b.toNat).toNat = b.toNat :=
  (Char.toNat_ofNat _).trans (if_pos (Or.inl (b.toNat_lt.trans (by decide))))

/-- A byte of a character of its own. -/
theorem encodeChar_ofNat {b : UInt8} (h : b < 0x80) :
    String.utf8EncodeChar (Char.ofNat b.toNat) = [b] := by
  have hlt : b.toNat < 0x80 := UInt8.lt_iff_toNat_lt.mp h
  rw [encodeChar_of_lt (by rwa [toNat_ofNat_toNat]), toNat_ofNat_toNat, UInt8.ofNat_toNat]

theorem decode_cons_of_lt {b : UInt8} (h : b < 0x80) (bytes : List UInt8) :
    decode (b :: bytes) = Char.ofNat b.toNat :: decode bytes := by
  have hdecode := decode_encodeChar_append (Char.ofNat b.toNat) bytes
  rwa [encodeChar_ofNat h, List.singleton_append] at hdecode

theorem decode_append_of_lt {l : List UInt8} (h : ∀ b ∈ l, b < 0x80) (bytes : List UInt8) :
    decode (l ++ bytes) = latin1 l ++ decode bytes := by
  induction l with
  | nil => rfl
  | cons b l ih =>
    obtain ⟨hb, hl⟩ := List.forall_mem_cons.mp h
    rw [List.cons_append, decode_cons_of_lt hb, ih hl]
    rfl

/-- Bytes begin with the character that is read from them. -/
theorem exists_of_first? {bytes : List UInt8} {c : Char} (h : first? bytes = some c) :
    ∃ rest, bytes = String.utf8EncodeChar c ++ rest := by
  obtain ⟨rest, hrest⟩ := ByteArray.exists_of_utf8DecodeChar?_eq_some h
  refine ⟨rest.data.toList, ?_⟩
  have hlist := congrArg (fun b : ByteArray => b.data.toList) hrest
  simpa using hlist

/-- A byte that is a character by itself is ASCII. -/
theorem lt_of_first? {b : UInt8} {bytes : List UInt8} {c : Char}
    (h : first? (b :: bytes) = some c) (hsize : c.utf8Size = 1) : b < 0x80 := by
  obtain ⟨rest, hrest⟩ := exists_of_first? h
  rw [String.utf8EncodeChar_eq_singleton hsize, List.singleton_append] at hrest
  obtain ⟨rfl, -⟩ := List.cons.inj hrest
  rw [Char.utf8Size_eq_one_iff, UInt32.le_iff_toNat_le] at hsize
  have hle : c.val.toNat ≤ 127 := hsize
  rw [UInt8.lt_iff_toNat_lt, UInt32.toNat_toUInt8]
  show c.val.toNat % 256 < 128
  omega

theorem length_decodeFrom_succ_lt {bytes : List UInt8} (h : bytes ≠ []) (k : ℕ) :
    (decodeFrom (k + 1) bytes).length < bytes.length := by
  cases bytes with
  | nil => exact absurd rfl h
  | cons b bytes => exact Nat.lt_succ_of_le (length_decodeFrom_le k bytes)

/-- **The two readings of bytes agree exactly where all are ASCII.** -/
theorem decode_eq_latin1_iff (bytes : List UInt8) :
    decode bytes = latin1 bytes ↔ ∀ b ∈ bytes, b < 0x80 := by
  induction bytes with
  | nil => simp [latin1]
  | cons b bytes ih =>
    have hlatin1 : latin1 (b :: bytes) = Char.ofNat b.toNat :: latin1 bytes := rfl
    rw [List.forall_mem_cons, hlatin1]
    constructor
    · intro h
      have hb : b < 0x80 := by
        rw [decode, decodeFrom] at h
        cases hfirst : first? (b :: bytes) with
        | none =>
          -- the replacement is not the character of a byte
          rw [hfirst] at h
          have heq := congrArg Char.toNat (List.cons.inj h).1
          rw [toNat_ofNat_toNat] at heq
          have hlt := b.toNat_lt
          rw [← heq] at hlt
          exact absurd hlt (by decide)
        | some c =>
          rw [hfirst] at h
          by_cases hsize : c.utf8Size = 1
          · exact lt_of_first? hfirst hsize
          · -- a character of several bytes leaves the text shorter
            have hpos := c.utf8Size_pos
            obtain ⟨k, hk⟩ : ∃ k, c.utf8Size - 1 = k + 1 := ⟨c.utf8Size - 2, by omega⟩
            have hlength := congrArg List.length (List.cons.inj h).2
            obtain ⟨rest, hrest⟩ := exists_of_first? hfirst
            have hne : bytes ≠ [] := by
              rintro rfl
              have hle := congrArg List.length hrest
              rw [List.length_append, String.length_utf8EncodeChar, List.length_singleton] at hle
              omega
            have hshort := length_decodeFrom_succ_lt hne k
            rw [hk, latin1, List.length_map] at hlength
            omega
      refine ⟨hb, ih.mp ?_⟩
      rw [decode_cons_of_lt hb] at h
      exact (List.cons.inj h).2
    · rintro ⟨hb, hall⟩
      rw [decode_cons_of_lt hb, ih.mpr hall]

end Utf8
