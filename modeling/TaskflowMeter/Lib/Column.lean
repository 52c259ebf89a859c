import Mathlib

/-!
# Columns that hold encoded values

A table stores a value in some encoding and decodes it when the row is read.  A
`Column` holds only encodings that were written, so reading one cannot fail.

* `Codec` — an encoding with a decoder that inverts it.
* `Column.write`, `Column.read` — storing a value and reading it back.
-/

universe u v

/-- An encoding of `α` in `β`. -/
class Codec (α : Type u) (β : outParam (Type v)) where
  encode : α → β
  decode : β → Option α
  decode_encode (a : α) : decode (encode a) = some a

/-- A stored encoding of some value of `α`. -/
structure Column (α : Type u) {β : Type v} [Codec α β] where
  /-- What the database holds. -/
  raw : β
  written : ∃ a : α, Codec.encode a = raw

namespace Column

variable {α : Type u} {β : Type v} [Codec α β]

/-- Store a value. -/
def write (a : α) : Column α := ⟨Codec.encode a, a, rfl⟩

theorem decode_isSome (c : Column α) : (Codec.decode (α := α) c.raw).isSome := by
  obtain ⟨a, ha⟩ := c.written
  rw [← ha, Codec.decode_encode]
  rfl

/-- Read the value back. -/
def read (c : Column α) : α := (Codec.decode c.raw).get c.decode_isSome

@[simp] theorem read_write (a : α) : (write a).read = a := by
  simp only [read, write, Codec.decode_encode, Option.get_some]

@[simp] theorem write_read (c : Column α) : write c.read = c := by
  obtain ⟨raw, a, rfl⟩ := c
  have h : (write a).read = a := read_write a
  exact congrArg write h

theorem ext_raw {c d : Column α} (h : c.raw = d.raw) : c = d := by
  cases c; cases d; simp_all

instance [DecidableEq β] : DecidableEq (Column α) := fun c d =>
  decidable_of_iff (c.raw = d.raw) ⟨ext_raw, fun h => h ▸ rfl⟩

end Column
