import Mathlib

/-!
# Python values that are plain data

The values an event's `details`, a snapshot's `meta` or a JSON column can hold.
Python's `None` is `Json.null`, so a field declared `dict | None` is a `Json` and
`is None` is a comparison with `Json.null`.  Numbers are exact rationals: rounding,
infinities and NaN are outside the model, here and wherever the source has a
`float`, and so is what tells a `float` from an equal `int`.  Python compares
dictionaries without regard to the order of their keys; `Json.obj` lists its fields in
one fixed order, so that `==` is equality.

* `Json` — the values.
* `Json.truthy` — what `if value:` tests.
* `Json.pyStr` — the built-in `str`.
-/

namespace TaskflowMeter

/-- Plain data: what JSON can carry. -/
inductive Json where
  | null
  | bool (b : Bool)
  | num (q : ℚ)
  | str (s : String)
  | arr (items : List Json)
  | obj (fields : List (String × Json))
  deriving Repr, Inhabited

namespace Json

/-! ### Equality -/

mutual

/-- Whether two values are equal. -/
def beq : Json → Json → Bool
  | .null, .null => true
  | .bool a, .bool b => a == b
  | .num a, .num b => a == b
  | .str a, .str b => a == b
  | .arr a, .arr b => beqItems a b
  | .obj a, .obj b => beqFields a b
  | _, _ => false

/-- Whether two lists of values are equal. -/
def beqItems : List Json → List Json → Bool
  | [], [] => true
  | x :: xs, y :: ys => beq x y && beqItems xs ys
  | _, _ => false

/-- Whether two lists of fields are equal. -/
def beqFields : List (String × Json) → List (String × Json) → Bool
  | [], [] => true
  | (k, x) :: xs, (l, y) :: ys => k == l && beq x y && beqFields xs ys
  | _, _ => false

end

mutual

theorem beq_iff : ∀ a b : Json, beq a b = true ↔ a = b
  | .arr a, .arr b => by simpa [beq] using beqItems_iff a b
  | .obj a, .obj b => by simpa [beq] using beqFields_iff a b
  | .null, b => by cases b <;> simp [beq]
  | .bool _, b => by cases b <;> simp [beq]
  | .num _, b => by cases b <;> simp [beq]
  | .str _, b => by cases b <;> simp [beq]
  | .arr _, .null | .arr _, .bool _ | .arr _, .num _ | .arr _, .str _ | .arr _, .obj _ => by
    simp [beq]
  | .obj _, .null | .obj _, .bool _ | .obj _, .num _ | .obj _, .str _ | .obj _, .arr _ => by
    simp [beq]

theorem beqItems_iff : ∀ a b : List Json, beqItems a b = true ↔ a = b
  | [], b => by cases b <;> simp [beqItems]
  | x :: xs, [] => by simp [beqItems]
  | x :: xs, y :: ys => by simp [beqItems, beq_iff x y, beqItems_iff xs ys]

theorem beqFields_iff : ∀ a b : List (String × Json), beqFields a b = true ↔ a = b
  | [], b => by cases b <;> simp [beqFields]
  | (k, x) :: xs, [] => by simp [beqFields]
  | (k, x) :: xs, (l, y) :: ys => by
    simp [beqFields, beq_iff x y, beqFields_iff xs ys, and_assoc]

end

instance : DecidableEq Json := fun a b => decidable_of_iff _ (beq_iff a b)

/-! ### Truth and text -/

/-- What `if value:` tests. -/
def truthy : Json → Bool
  | .null => false
  | .bool b => b
  | .num q => q != 0
  | .str s => s != ""
  | .arr items => !items.isEmpty
  | .obj fields => !fields.isEmpty

mutual

/-- The built-in `repr`.  Escapes inside strings, and the text of a number that is
not an integer, are Lean's rather than Python's. -/
def repr : Json → String
  | .null => "None"
  | .bool b => if b then "True" else "False"
  | .num q => toString q
  | .str s => "'" ++ s ++ "'"
  | .arr items => "[" ++ ", ".intercalate (reprItems items) ++ "]"
  | .obj fields => "\x7b" ++ ", ".intercalate (reprFields fields) ++ "\x7d"

def reprItems : List Json → List String
  | [] => []
  | x :: xs => repr x :: reprItems xs

def reprFields : List (String × Json) → List String
  | [] => []
  | (k, x) :: xs => ("'" ++ k ++ "': " ++ repr x) :: reprFields xs

end

/-- The built-in `str`: a string is its own text. -/
def pyStr : Json → String
  | .str s => s
  | v => v.repr

@[simp] theorem pyStr_str (s : String) : pyStr (.str s) = s := rfl

/-- `None` or a string. -/
def ofOption : Option String → Json
  | none => .null
  | some s => .str s

end Json

end TaskflowMeter
