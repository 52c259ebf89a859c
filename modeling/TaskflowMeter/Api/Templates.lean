import TaskflowMeter.Api.Router

/-!
# What a compiled template matches

A template is filled in by a value for each of its parameters, which is not empty and has no
slash.  The matcher of a template accepts what the template is filled in to, and also lets one
line break through at the end, since `$` does.

## Main definitions

* `Fills` — the pieces of a template, filled in.
* `IsFilledIn` — a path is a template with values for its parameters.
* `AfterBreak` — a path is no such path, but would be without its last line break.

## Main results

* `isSome_matchPieces_iff` — **what the matcher accepts.**
* `Fills.of_matchPieces` — the values found are those of the path, where there are any.
* `rightAt_iff` — **a table is right about a path exactly where no line break is let through.**
-/

namespace TaskflowMeter

/-- A part of a template, filled in. -/
def Piece.fill (values : String → String) : Piece → List Char
  | literal text => text
  | param name => (values name).toList

theorem formatTemplate_eq (template : String) (values : String → String) :
    formatTemplate template values
      = String.ofList ((pieces template).flatMap (Piece.fill values)) := by
  rw [formatTemplate]
  congr 2

/-- Pieces are filled in with values. -/
inductive Fills : List Piece → List (String × List Char) → List Char → Prop
  | nil : Fills [] [] []
  | literal {rest : List Piece} {values : List (String × List Char)} {path : List Char}
      (text : List Char) (h : Fills rest values path) :
      Fills (.literal text :: rest) values (text ++ path)
  | param {rest : List Piece} {values : List (String × List Char)} {path : List Char}
      (name : String) {value : List Char} (hne : value ≠ []) (hslash : '/' ∉ value)
      (h : Fills rest values path) :
      Fills (.param name :: rest) ((name, value) :: values) (value ++ path)

theorem fills_nil_iff {values : List (String × List Char)} {path : List Char} :
    Fills [] values path ↔ values = [] ∧ path = [] := by
  constructor
  · rintro ⟨⟩
    exact ⟨rfl, rfl⟩
  · rintro ⟨rfl, rfl⟩
    exact .nil

theorem fills_literal_iff {text : List Char} {rest : List Piece}
    {values : List (String × List Char)} {path : List Char} :
    Fills (.literal text :: rest) values path
      ↔ ∃ path', path = text ++ path' ∧ Fills rest values path' := by
  constructor
  · rintro (_ | ⟨_, h⟩)
    exact ⟨_, rfl, h⟩
  · rintro ⟨path', rfl, h⟩
    exact .literal text h

theorem fills_param_iff {name : String} {rest : List Piece}
    {values : List (String × List Char)} {path : List Char} :
    Fills (.param name :: rest) values path
      ↔ ∃ value path' values', path = value ++ path' ∧ values = (name, value) :: values'
        ∧ value ≠ []
        ∧ '/' ∉ value ∧ Fills rest values' path' := by
  constructor
  · rintro (_ | _ | ⟨_, hne, hslash, h⟩)
    exact ⟨_, _, _, rfl, rfl, hne, hslash, h⟩
  · rintro ⟨value, path', values', rfl, rfl, hne, hslash, h⟩
    exact .param name hne hslash h

/-! ### What the matcher accepts -/

/-- The values found fill in the pieces, up to a line break. -/
theorem exists_fills_of_matchPieces {ps : List Piece} {path : List Char}
    {values : List (String × List Char)} (h : matchPieces ps path = some values) :
    ∃ path', (path = path' ∨ path = path' ++ ['\n']) ∧ Fills ps values path' := by
  induction ps generalizing path values with
  | nil =>
    rw [matchPieces] at h
    split at h
    · next hpath =>
      cases h
      exact ⟨[], hpath, .nil⟩
    · cases h
  | cons piece rest ih =>
    cases piece with
    | literal text =>
      rw [matchPieces] at h
      split at h
      · next path₁ hdrop =>
        obtain rfl := dropPrefix?_eq_some.mp hdrop
        obtain ⟨path', hpath, hfills⟩ := ih h
        refine ⟨text ++ path', ?_, .literal text hfills⟩
        rcases hpath with rfl | rfl
        · exact .inl rfl
        · exact .inr (List.append_assoc _ _ _).symm
      · cases h
    | param name =>
      obtain ⟨value, path₁, values', rfl, hne, hslash, hrest, rfl⟩ := exists_of_matchPieces_param h
      obtain ⟨path', hpath, hfills⟩ := ih hrest
      refine ⟨value ++ path', ?_, .param name hne hslash hfills⟩
      rcases hpath with rfl | rfl
      · exact .inl rfl
      · exact .inr (List.append_assoc _ _ _).symm

/-- A value that can be followed by a match is found, or a longer one. -/
theorem isSome_matchPieces_param {name : String} {rest : List Piece} {value path' : List Char}
    (hne : value ≠ []) (hslash : '/' ∉ value) (h : (matchPieces rest path').isSome) :
    (matchPieces (.param name :: rest) (value ++ path')).isSome := by
  obtain ⟨n, hn⟩ := Nat.exists_eq_succ_of_ne_zero (mt List.length_eq_zero_iff.mp hne)
  rw [matchPieces, List.findSome?_isSome_iff]
  have hpre : value <+: (value ++ path').takeWhile (· != '/') := by
    rw [List.takeWhile_append_of_pos]
    · exact List.prefix_append _ _
    · intro c hc
      rw [bne_iff_ne]
      rintro rfl
      exact hslash hc
  refine ⟨n, ?_, ?_⟩
  · have hle := hpre.length_le
    rw [List.mem_reverse, List.mem_range]
    omega
  · rw [List.drop_left' hn, Option.isSome_map]
    exact h

/-- **What the matcher accepts**: pieces filled in, and a line break or not. -/
theorem isSome_matchPieces_iff {ps : List Piece} {path : List Char} :
    (matchPieces ps path).isSome
      ↔ ∃ values path', (path = path' ∨ path = path' ++ ['\n']) ∧ Fills ps values path' := by
  constructor
  · intro h
    obtain ⟨values, hvalues⟩ := Option.isSome_iff_exists.mp h
    obtain ⟨path', hpath, hfills⟩ := exists_fills_of_matchPieces hvalues
    exact ⟨values, path', hpath, hfills⟩
  · rintro ⟨values, path', hpath, hfills⟩
    induction hfills generalizing path with
    | nil =>
      rw [matchPieces, if_pos (by simpa using hpath)]
      rfl
    | @literal rest values path₁ text _ ih =>
      obtain ⟨path₂, rfl, hpath₂⟩ : ∃ path₂, path = text ++ path₂
          ∧ (path₂ = path₁ ∨ path₂ = path₁ ++ ['\n']) := by
        rcases hpath with rfl | rfl
        · exact ⟨path₁, rfl, .inl rfl⟩
        · exact ⟨path₁ ++ ['\n'], List.append_assoc _ _ _, .inr rfl⟩
      rw [matchPieces, dropPrefix?_append]
      exact ih hpath₂
    | @param rest values path₁ name value hne hslash _ ih =>
      obtain ⟨path₂, rfl, hpath₂⟩ : ∃ path₂, path = value ++ path₂
          ∧ (path₂ = path₁ ∨ path₂ = path₁ ++ ['\n']) := by
        rcases hpath with rfl | rfl
        · exact ⟨path₁, rfl, .inl rfl⟩
        · exact ⟨path₁ ++ ['\n'], List.append_assoc _ _ _, .inr rfl⟩
      exact isSome_matchPieces_param hne hslash (ih hpath₂)

/-! ### Line breaks -/

/-- Text that can be moved by one character repeats it. -/
theorem eq_of_concat_eq_cons {text : List Char} {a c : Char} (h : text ++ [c] = a :: text) :
    a = c := by
  induction text with
  | nil => exact (List.cons.inj h).1.symm
  | cons b text ih =>
    obtain ⟨rfl, htail⟩ := List.cons.inj h
    exact ih htail

/-- Pieces end with literal text, which comes after a parameter if there is one. -/
def Shaped (ps : List Piece) : Prop :=
  ∃ text, ps = [.literal text] ∨ ∃ front name, ps = front ++ [.param name, .literal text]

theorem shaped_piecesFrom (k : ℕ) (text template : List Char) :
    Shaped (piecesFrom k text template) := by
  have hcons : ∀ {ps : List Piece} (text : List Char) (name : String), Shaped ps →
      Shaped (.literal text :: .param name :: ps) := by
    rintro ps text name ⟨last, rfl | ⟨front, name', rfl⟩⟩
    · exact ⟨last, .inr ⟨[.literal text], name, rfl⟩⟩
    · exact ⟨last, .inr ⟨.literal text :: .param name :: front, name', rfl⟩⟩
  induction k, text, template using piecesFrom.induct with
  | case1 k text => exact ⟨text, .inl (by rw [piecesFrom])⟩
  | case2 text k c template ih => rwa [piecesFrom]
  | case3 text c template name hname ih =>
    rw [piecesFrom, hname]
    exact hcons text _ ih
  | case4 text c template hname ih =>
    rw [piecesFrom, hname]
    exact ih

theorem shaped_pieces (template : String) : Shaped (pieces template) := shaped_piecesFrom _ _ _

theorem Shaped.of_cons {piece : Piece} {rest : List Piece} (h : Shaped (piece :: rest)) :
    rest = [] ∧ (∃ text, piece = .literal text) ∨ Shaped rest := by
  obtain ⟨text, heq | ⟨front, name, heq⟩⟩ := h
  · obtain ⟨rfl, rfl⟩ := List.cons.inj heq
    exact .inl ⟨rfl, text, rfl⟩
  · right
    cases front with
    | nil => exact ⟨text, .inl (List.cons.inj heq).2⟩
    | cons piece' front => exact ⟨text, .inr ⟨front, name, (List.cons.inj heq).2⟩⟩

theorem fills_append_iff {front back : List Piece} {path : List Char} :
    (∃ values, Fills (front ++ back) values path)
      ↔ ∃ left right, path = left ++ right ∧ (∃ values, Fills front values left)
        ∧ ∃ values, Fills back values right := by
  induction front generalizing path with
  | nil =>
    simp only [List.nil_append, fills_nil_iff, exists_eq_left]
    constructor
    · rintro ⟨values, h⟩
      exact ⟨[], path, rfl, rfl, values, h⟩
    · rintro ⟨left, right, rfl, rfl, h⟩
      exact h
  | cons piece front ih =>
    cases piece with
    | literal text =>
      constructor
      · rintro ⟨values, h⟩
        obtain ⟨path', rfl, h'⟩ := fills_literal_iff.mp h
        obtain ⟨left, right, rfl, ⟨values', hleft⟩, hright⟩ := ih.mp ⟨values, h'⟩
        exact ⟨text ++ left, right, (List.append_assoc _ _ _).symm,
          ⟨values', .literal text hleft⟩, hright⟩
      · rintro ⟨left, right, rfl, ⟨values, hleft⟩, hright⟩
        obtain ⟨left', rfl, hleft'⟩ := fills_literal_iff.mp hleft
        obtain ⟨values', h⟩ := ih.mpr ⟨left', right, rfl, ⟨values, hleft'⟩, hright⟩
        rw [List.append_assoc]
        exact ⟨values', .literal text h⟩
    | param name =>
      constructor
      · rintro ⟨values, h⟩
        obtain ⟨value, path', values', rfl, -, hne, hslash, h'⟩ := fills_param_iff.mp h
        obtain ⟨left, right, rfl, ⟨values'', hleft⟩, hright⟩ := ih.mp ⟨values', h'⟩
        exact ⟨value ++ left, right, (List.append_assoc _ _ _).symm,
          ⟨_, .param name hne hslash hleft⟩, hright⟩
      · rintro ⟨left, right, rfl, ⟨values, hleft⟩, hright⟩
        obtain ⟨value, left', values', rfl, -, hne, hslash, hleft'⟩ := fills_param_iff.mp hleft
        obtain ⟨values'', h⟩ := ih.mpr ⟨left', right, rfl, ⟨values', hleft'⟩, hright⟩
        rw [List.append_assoc]
        exact ⟨_, .param name hne hslash h⟩

/-- What a last parameter and the text after it are filled in to. -/
theorem fills_last_iff {name : String} {text path : List Char} :
    (∃ values, Fills [.param name, .literal text] values path)
      ↔ ∃ value, path = value ++ text ∧ value ≠ [] ∧ '/' ∉ value := by
  constructor
  · rintro ⟨values, h⟩
    obtain ⟨value, path', values', rfl, -, hne, hslash, h'⟩ := fills_param_iff.mp h
    obtain ⟨path'', rfl, h''⟩ := fills_literal_iff.mp h'
    obtain ⟨-, rfl⟩ := fills_nil_iff.mp h''
    exact ⟨value, by rw [List.append_nil], hne, hslash⟩
  · rintro ⟨value, rfl, hne, hslash⟩
    refine ⟨[(name, value)], .param name hne hslash ?_⟩
    exact fills_literal_iff.mpr ⟨[], (List.append_nil text).symm, .nil⟩

/-- **Where a longer path is pieces filled in, so is what the line break was taken off.**  The last
parameter takes the line break, since the text after it is line breaks only. -/
theorem Shaped.fills_concat {ps : List Piece} (hps : Shaped ps) {path before : List Char}
    (hpath : ∃ values, Fills ps values path)
    (hlonger : ∃ values, Fills ps values (before ++ (path ++ ['\n']))) :
    ∃ values, Fills ps values (path ++ ['\n']) := by
  obtain ⟨text, rfl | ⟨front, name, rfl⟩⟩ := hps
  · -- text alone has one length
    have hliteral : ∀ {path : List Char}, (∃ values, Fills [.literal text] values path)
        → path = text := by
      rintro path ⟨values, h⟩
      obtain ⟨path', rfl, h'⟩ := fills_literal_iff.mp h
      rw [(fills_nil_iff.mp h').2, List.append_nil]
    have hlength := congrArg List.length ((hliteral hlonger).trans (hliteral hpath).symm)
    rw [List.length_append, List.length_append, List.length_singleton] at hlength
    omega
  · obtain ⟨left, right, rfl, hfront, hlast⟩ := fills_append_iff.mp hpath
    obtain ⟨value, rfl, hne, hslash⟩ := fills_last_iff.mp hlast
    obtain ⟨left', right', heq, -, hlast'⟩ := fills_append_iff.mp hlonger
    obtain ⟨value', rfl, -⟩ := fills_last_iff.mp hlast'
    have hmove : text ++ ['\n'] = '\n' :: text := by
      have hsuffix : text <:+ text ++ ['\n'] := by
        have hend : text <:+ before ++ (left ++ (value ++ text) ++ ['\n']) := by
          rw [heq]
          exact ⟨left' ++ value', List.append_assoc _ _ _⟩
        have hend' : text ++ ['\n'] <:+ before ++ (left ++ (value ++ text) ++ ['\n']) :=
          ⟨before ++ (left ++ value), by simp⟩
        exact List.suffix_of_suffix_length_le hend hend' (by simp)
      obtain ⟨first, hfirst⟩ := hsuffix
      have hlength : first.length = 1 := by
        have hlength := congrArg List.length hfirst
        rw [List.length_append, List.length_append, List.length_singleton] at hlength
        omega
      obtain ⟨c, rfl⟩ := List.length_eq_one_iff.mp hlength
      rw [eq_of_concat_eq_cons hfirst.symm] at hfirst
      exact hfirst.symm
    refine fills_append_iff.mpr ⟨left, (value ++ ['\n']) ++ text, ?_, hfront, ?_⟩
    · simp [hmove]
    · exact fills_last_iff.mpr ⟨value ++ ['\n'], rfl, by simp, by simp [hslash]⟩

/-- No value that is longer than the one found can be followed by a match. -/
theorem longest_of_matchPieces_param {name : String} {rest : List Piece} {path : List Char}
    {values : List (String × List Char)}
      (h : matchPieces (.param name :: rest) path = some values) :
    ∃ value path' values', path = value ++ path' ∧ value ≠ [] ∧ '/' ∉ value
      ∧ matchPieces rest path' = some values' ∧ values = (name, value) :: values'
      ∧ ∀ longer path'', path = longer ++ path'' → '/' ∉ longer → (matchPieces rest path'').isSome →
        longer.length ≤ value.length := by
  obtain ⟨value, path', values', hpath, hne, hslash, hrest, hvalues⟩ :=
    exists_of_matchPieces_param h
  refine ⟨value, path', values', hpath, hne, hslash, hrest, hvalues, ?_⟩
  intro longer path'' hlonger hslash' hsome
  by_contra hlt
  rw [matchPieces] at h
  obtain ⟨before, n, after, hsplit, hn, hbefore⟩ := List.findSome?_eq_some_iff.mp h
  have hrange : ∀ {m : ℕ}, m ∈ (List.range (path.takeWhile (· != '/')).length).reverse
      ↔ m < (path.takeWhile (· != '/')).length := by simp
  -- the number tried is that of the value
  have hvalue : value.length = n + 1 := by
    obtain ⟨values'', -, heq⟩ := Option.map_eq_some_iff.mp hn
    rw [hvalues] at heq
    have htake : path.take (n + 1) = value := congrArg Prod.snd (List.cons.inj heq).1
    have hmem : n < (path.takeWhile (· != '/')).length := by
      rw [← hrange, hsplit]
      simp
    have hle := (List.takeWhile_prefix (l := path) fun c => c != '/').length_le
    rw [← htake, List.length_take]
    omega
  -- one that is longer is tried before it
  obtain ⟨m, hm⟩ : ∃ m, longer.length = m + 1 := ⟨longer.length - 1, by omega⟩
  have hmem : m < (path.takeWhile (· != '/')).length := by
    have hpre : longer <+: path.takeWhile (· != '/') := by
      rw [hlonger, List.takeWhile_append_of_pos]
      · exact List.prefix_append _ _
      · intro c hc
        rw [bne_iff_ne]
        rintro rfl
        exact hslash' hc
    have hle := hpre.length_le
    omega
  have htried : m ∈ before := by
    have hdecreasing : List.Pairwise (· > ·) (before ++ n :: after) := by
      rw [← hsplit, List.pairwise_reverse]
      exact List.pairwise_lt_range
    rw [← hrange, hsplit, List.mem_append, List.mem_cons] at hmem
    rcases hmem with hmem | rfl | hmem
    · exact hmem
    · omega
    · have hlt := (List.pairwise_cons.mp (List.pairwise_append.mp hdecreasing).2.1).1 m hmem
      omega
  have hnone := hbefore m htried
  rw [Option.map_eq_none_iff, hlonger, List.drop_left' hm] at hnone
  rw [hnone] at hsome
  cases hsome

/-- **The values found are those of the path**, where there are any that make it. -/
theorem Fills.of_matchPieces {ps : List Piece} (hps : ps = [] ∨ Shaped ps) {path : List Char}
    {values : List (String × List Char)} (h : matchPieces ps path = some values)
    (hfills : ∃ values, Fills ps values path) : Fills ps values path := by
  induction ps generalizing path values with
  | nil =>
    obtain ⟨values', hvalues'⟩ := hfills
    obtain ⟨rfl, rfl⟩ := fills_nil_iff.mp hvalues'
    rw [matchPieces, if_pos (.inl rfl)] at h
    cases h
    exact .nil
  | cons piece rest ih =>
    have hshaped := hps.resolve_left (List.cons_ne_nil _ _)
    cases piece with
    | literal text =>
      obtain ⟨values', hvalues'⟩ := hfills
      obtain ⟨path', rfl, hrest⟩ := fills_literal_iff.mp hvalues'
      rw [matchPieces, dropPrefix?_append] at h
      exact .literal text (ih (hshaped.of_cons.imp_left And.left) h ⟨values', hrest⟩)
    | param name =>
      have hrest : Shaped rest := by
        refine hshaped.of_cons.resolve_left ?_
        rintro ⟨-, text, heq⟩
        cases heq
      obtain ⟨value, path₁, values', hpath, hne, hslash, hmatch, rfl, hlongest⟩ :=
        longest_of_matchPieces_param h
      obtain ⟨values₀, hvalues₀⟩ := hfills
      obtain ⟨value₀, path₀, values₀', hpath₀, -, -, hslash₀, hfills₀⟩ :=
        fills_param_iff.mp hvalues₀
      have hle : value₀.length ≤ value.length :=
        hlongest value₀ path₀ hpath₀ hslash₀
          (isSome_matchPieces_iff.mpr ⟨_, path₀, .inl rfl, hfills₀⟩)
      obtain ⟨mid, rfl⟩ : ∃ mid, path₀ = mid ++ path₁ := by
        rw [hpath] at hpath₀
        rcases List.append_eq_append_iff.mp hpath₀ with ⟨mid, heq, -⟩ | ⟨mid, -, heq⟩
        · have hlength := congrArg List.length heq
          rw [List.length_append] at hlength
          obtain rfl : mid = [] := List.length_eq_zero_iff.mp (by omega)
          rw [List.append_nil] at heq
          rw [heq] at hpath₀
          exact ⟨[], (List.append_cancel_left hpath₀).symm⟩
        · exact ⟨mid, heq⟩
      have hexists : ∃ values, Fills rest values path₁ := by
        obtain ⟨path', hpath' | hpath', hfills'⟩ := exists_fills_of_matchPieces hmatch
        · exact ⟨values', hpath' ▸ hfills'⟩
        · rw [hpath'] at hfills₀ ⊢
          exact hrest.fills_concat ⟨values', hfills'⟩ ⟨values₀', hfills₀⟩
      rw [hpath]
      exact .param name hne hslash (ih (.inr hrest) hmatch hexists)

/-! ### Templates with values -/

/-- A path is a template with values for its parameters. -/
def IsFilledIn (template path : String) : Prop :=
  ∃ values : String → String, (∀ name, values name ≠ "" ∧ '/' ∉ (values name).toList)
    ∧ path = formatTemplate template values

theorem Fills.map_fst {ps : List Piece} {values : List (String × List Char)} {path : List Char}
    (h : Fills ps values path) : values.map Prod.fst = ps.filterMap Piece.name? := by
  induction h with
  | nil => rfl
  | literal text _ ih => exact ih
  | param name _ _ _ ih => exact congrArg (name :: ·) ih

theorem Fills.forall_value {ps : List Piece} {values : List (String × List Char)} {path : List Char}
    (h : Fills ps values path) : ∀ p ∈ values, p.2 ≠ [] ∧ '/' ∉ p.2 := by
  induction h with
  | nil => simp
  | literal text _ ih => exact ih
  | param name hne hslash _ ih => exact List.forall_mem_cons.mpr ⟨⟨hne, hslash⟩, ih⟩

theorem Fills.flatMap_fill {ps : List Piece} {values : List (String × List Char)} {path : List Char}
    (h : Fills ps values path) {f : String → String} (hf : ∀ p ∈ values, (f p.1).toList = p.2) :
    ps.flatMap (Piece.fill f) = path := by
  induction h with
  | nil => rfl
  | literal text _ ih =>
    rw [List.flatMap_cons, ih hf]
    rfl
  | param name hne hslash _ ih =>
    obtain ⟨hvalue, hrest⟩ := List.forall_mem_cons.mp hf
    rw [List.flatMap_cons, ih hrest, Piece.fill, hvalue]

theorem fills_flatMap_fill {f : String → String} (hf : ∀ name, f name ≠ "" ∧ '/' ∉ (f name).toList)
    (ps : List Piece) : ∃ values, Fills ps values (ps.flatMap (Piece.fill f)) := by
  induction ps with
  | nil => exact ⟨[], .nil⟩
  | cons piece ps ih =>
    obtain ⟨values, h⟩ := ih
    cases piece with
    | literal text => exact ⟨values, .literal text h⟩
    | param name =>
      have hne : (f name).toList ≠ [] := mt String.toList_eq_nil_iff.mp (hf name).1
      exact ⟨_, .param name hne (hf name).2 h⟩

/-- The names of the parameters differ. -/
def Distinct (template : String) : Prop := ((pieces template).filterMap Piece.name?).Nodup

theorem isFilledIn_iff {template : String} (hdistinct : Distinct template) {path : String} :
    IsFilledIn template path ↔ ∃ values, Fills (pieces template) values path.toList := by
  constructor
  · rintro ⟨f, hf, rfl⟩
    rw [formatTemplate_eq, String.toList_ofList]
    exact fills_flatMap_fill hf _
  · rintro ⟨values, h⟩
    have hnodup : (values.map Prod.fst).Nodup := by rwa [h.map_fst]
    have hlookup : ∀ p ∈ values, values.lookup p.1 = some p.2 :=
      fun p hp => (Dict.lookup_eq_some_iff hnodup).mpr hp
    refine ⟨fun name => ((values.lookup name).map String.ofList).getD "-", ?_, ?_⟩
    · intro name
      dsimp only
      cases hname : values.lookup name with
      | none => simp
      | some value =>
        have hvalue := h.forall_value _ ((Dict.lookup_eq_some_iff hnodup).mp hname)
        simpa using hvalue
    · rw [formatTemplate_eq, h.flatMap_fill, String.ofList_toList]
      intro p hp
      rw [hlookup p hp, Option.map_some, Option.getD_some, String.toList_ofList]

/-- The values found, as they are looked up. -/
theorem getD_groupdict {values : List (String × List Char)} (h : (values.map Prod.fst).Nodup)
    {p : String × List Char} (hp : p ∈ values) (default : String) :
    (Router.groupdict values).getD p.1 default = String.ofList p.2 := by
  have hget : (Router.groupdict values).get? p.1 = some (String.ofList p.2) := by
    have hfold : Router.groupdict values
        = (values.map fun q => (q.1, String.ofList q.2)).foldl (fun d q => d.set q.1 q.2) ∅ := by
      rw [Router.groupdict, List.foldl_map]
    have hnodup : ((values.map fun q => (q.1, String.ofList q.2)).map Prod.fst).Nodup := by
      rwa [List.map_map]
    rw [hfold, Dict.get?_eq_some_iff, Dict.entries_foldl_set hnodup (by simp)]
    exact List.mem_append_right _ (List.mem_map.mpr ⟨p, hp, rfl⟩)
  rw [Dict.getD, hget, Option.getD_some]

/-! ### Tables -/

variable {η : Type*}

/-- The matcher of a route accepts a path. -/
def Route.Matches (route : Route η) (path : String) : Prop :=
  ∃ pattern, route.compile = some pattern ∧ (matchPieces pattern path.toList).isSome

/-- A path is no template filled in, but is one with a line break after it. -/
def AfterBreak (template path : String) : Prop :=
  ¬ IsFilledIn template path ∧ ∃ before, path = before ++ "\n" ∧ IsFilledIn template before

/-- A table is right about a path: its matchers accept it where their templates can be filled in to
make it, and the parameters that are returned make it. -/
def Router.RightAt (router : Router η) (path : String) : Prop :=
  (∀ route ∈ router.routes, route.Matches path ↔ IsFilledIn route.template path)
    ∧ ∀ method route, (router.matchPath method path).outcome = .matched →
      (router.matchPath method path).route = some route →
      formatTemplate route.template ((router.matchPath method path).params.getD · "") = path

theorem compile_eq_some_iff {route : Route η} {pattern : List Piece} :
    route.compile = some pattern ↔ Distinct route.template ∧ pattern = pieces route.template := by
  rw [Route.compile]
  split
  · next h =>
    exact ⟨fun heq => ⟨h, (Option.some.inj heq).symm⟩, fun heq => congrArg some heq.2.symm⟩
  · next h => exact ⟨nofun, fun heq => absurd heq.1 h⟩

/-- What a table is made of. -/
theorem Router.of_init {routes : List (Route η)} {router : Router η}
    (h : Router.init routes = some router) :
    router.compiled = routes.map (fun route => (route, pieces route.template))
      ∧ ∀ route ∈ routes, Distinct route.template := by
  obtain ⟨compiled, hcompiled, rfl⟩ := Option.map_eq_some_iff.mp h
  clear h
  induction routes generalizing compiled with
  | nil =>
    cases hcompiled
    exact ⟨rfl, by simp⟩
  | cons route routes ih =>
    rw [List.mapM_cons] at hcompiled
    obtain ⟨p, hp, hcompiled⟩ := Option.bind_eq_some_iff.mp hcompiled
    obtain ⟨rest, hrest, hcompiled⟩ := Option.bind_eq_some_iff.mp hcompiled
    obtain rfl := Option.some.inj hcompiled
    obtain ⟨pattern, hpattern, rfl⟩ := Option.map_eq_some_iff.mp hp
    obtain ⟨hdistinct, rfl⟩ := compile_eq_some_iff.mp hpattern
    obtain ⟨hmap, hall⟩ := ih rest hrest
    refine ⟨?_, List.forall_mem_cons.mpr ⟨hdistinct, hall⟩⟩
    rw [List.map_cons]
    exact congrArg (_ :: ·) hmap

/-- What is matched is matched by a route of the table. -/
theorem exists_of_matched {method : String} {path : List Char}
    {compiled : List (Route η × List Piece)}
    {allowed : List String} (h : (Router.matchLoop method path compiled allowed).outcome
      = .matched) :
    ∃ p ∈ compiled, ∃ values, matchPieces p.2 path = some values ∧ p.1.method = method
      ∧ Router.matchLoop method path compiled allowed
        = { outcome := .matched, route := some p.1, params := Router.groupdict values } := by
  induction compiled generalizing allowed with
  | nil =>
    cases allowed <;> cases h
  | cons p compiled ih =>
    obtain ⟨route, pattern⟩ := p
    rw [Router.matchLoop] at h ⊢
    cases hvalues : matchPieces pattern path with
    | none =>
      rw [hvalues] at h
      obtain ⟨p, hp, hrest⟩ := ih h
      exact ⟨p, List.mem_cons_of_mem _ hp, hrest⟩
    | some values =>
      rw [hvalues] at h
      dsimp only at h ⊢
      split at h
      · next hmethod =>
        rw [if_pos hmethod]
        exact ⟨(route, pattern), List.mem_cons_self, values, hvalues, hmethod, rfl⟩
      · next hmethod =>
        rw [if_neg hmethod]
        obtain ⟨p, hp, hrest⟩ := ih h
        exact ⟨p, List.mem_cons_of_mem _ hp, hrest⟩

/-- The matcher of a template accepts what it is filled in to, and that with a line break. -/
theorem matches_iff {route : Route η} (hdistinct : Distinct route.template) {path : String} :
    route.Matches path
      ↔ IsFilledIn route.template path
        ∨ ∃ before, path = before ++ "\n" ∧ IsFilledIn route.template before := by
  have hmatches : route.Matches path
      ↔ (matchPieces (pieces route.template) path.toList).isSome := by
    constructor
    · rintro ⟨pattern, hpattern, hsome⟩
      rwa [(compile_eq_some_iff.mp hpattern).2] at hsome
    · exact fun hsome => ⟨_, compile_eq_some_iff.mpr ⟨hdistinct, rfl⟩, hsome⟩
  rw [hmatches, isSome_matchPieces_iff, isFilledIn_iff hdistinct]
  constructor
  · rintro ⟨values, path', hpath | hpath, hfills⟩
    · exact .inl ⟨values, hpath ▸ hfills⟩
    · refine .inr ⟨String.ofList path', ?_, (isFilledIn_iff hdistinct).mpr ⟨values, ?_⟩⟩
      · rw [← String.toList_inj, hpath, String.toList_append, String.toList_ofList]
        rfl
      · rwa [String.toList_ofList]
  · rintro (⟨values, hfills⟩ | ⟨before, rfl, hbefore⟩)
    · exact ⟨values, _, .inl rfl, hfills⟩
    · obtain ⟨values, hfills⟩ := (isFilledIn_iff hdistinct).mp hbefore
      exact ⟨values, before.toList, .inr String.toList_append, hfills⟩

/-- **A table is right about a path exactly where no template lets a line break through.** -/
theorem rightAt_iff {routes : List (Route η)} {router : Router η}
    (h : Router.init routes = some router)
    (path : String) : router.RightAt path ↔ ∀ route ∈ routes, ¬ AfterBreak route.template path := by
  obtain ⟨hcompiled, hdistinct⟩ := Router.of_init h
  have hroutes : router.routes = routes := by
    rw [Router.routes, hcompiled, List.map_map]
    exact List.map_id routes
  rw [Router.RightAt, hroutes]
  constructor
  · rintro ⟨hmatches, -⟩ route hroute ⟨hnot, hbreak⟩
    exact hnot ((hmatches route hroute).mp
      ((matches_iff (hdistinct route hroute)).mpr (.inr hbreak)))
  · intro hnot
    have hmatches : ∀ route ∈ routes, route.Matches path → IsFilledIn route.template path := by
      intro route hroute hmatch
      rcases (matches_iff (hdistinct route hroute)).mp hmatch with hfilled | hbreak
      · exact hfilled
      · by_contra hfilled
        exact hnot route hroute ⟨hfilled, hbreak⟩
    refine ⟨fun route hroute => ⟨hmatches route hroute, fun hfilled => ?_⟩, ?_⟩
    · exact (matches_iff (hdistinct route hroute)).mpr (.inl hfilled)
    · intro method route houtcome hfound
      obtain ⟨p, hp, values, hvalues, -, heq⟩ := exists_of_matched houtcome
      rw [Router.matchPath, heq] at hfound ⊢
      obtain rfl := Option.some.inj hfound
      rw [hcompiled] at hp
      obtain ⟨route, hroute, rfl⟩ := List.mem_map.mp hp
      have hmatch : route.Matches path :=
        ⟨_, compile_eq_some_iff.mpr ⟨hdistinct route hroute, rfl⟩, by rw [hvalues]; rfl⟩
      -- the path can be filled in, so the values found make it
      have hfills := Fills.of_matchPieces (.inr (shaped_pieces _)) hvalues
        ((isFilledIn_iff (hdistinct route hroute)).mp (hmatches route hroute hmatch))
      have hnodup : (values.map Prod.fst).Nodup := by
        rw [hfills.map_fst]
        exact hdistinct route hroute
      rw [formatTemplate_eq, hfills.flatMap_fill, String.ofList_toList]
      intro q hq
      rw [getD_groupdict hnodup hq, String.toList_ofList]

/-- The table of the service, and the path of a run. -/
theorem rightAt_iff_flow :
    theRouter.RightAt "/api/v1/flows/r-1"
      ↔ ∀ route ∈ buildRoutes, ¬ AfterBreak route.template "/api/v1/flows/r-1" :=
  rightAt_iff init_buildRoutes _

/-- **A line break is let through.** -/
theorem break_let_through : ¬ theRouter.RightAt "/healthz\n" := by
  rintro ⟨hmatches, -⟩
  have hroute : (⟨"GET", Routes.HEALTH, .health,
      "health"⟩ : Route Endpoint) ∈ theRouter.routes := by
    decide +kernel
  have hpieces : pieces Routes.HEALTH = [.literal "/healthz".toList] := by decide +kernel
  obtain ⟨values, -, hpath⟩ := (hmatches _ hroute).mp
      ⟨pieces Routes.HEALTH, by decide +kernel, by decide +kernel⟩
  rw [formatTemplate_eq, hpieces] at hpath
  have hlength := congrArg String.length hpath
  revert hlength
  exact (by decide +kernel : "/healthz\n".length ≠ (String.ofList "/healthz".toList).length)

end TaskflowMeter
