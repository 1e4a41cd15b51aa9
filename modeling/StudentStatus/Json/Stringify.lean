import StudentStatus.Json.Struct

/-!
# JSON.stringify

What JavaScript writes for a value, and what the Go decoder reads of it. A JavaScript string is a
sequence of UTF-16 code units; `JSON.stringify` writes a surrogate without partner as an escape, and
the decoder reads U+FFFD for it (`string_quoteUnits`). A number is written as a literal of the JSON
grammar, which the decoder keeps (`number_append`).

An object whose members are null, booleans, numbers or strings is read back member by member. An
array or an object in the place of a field is read as one, or is nested too deeply to be read; in
either case it cannot be stored to a field (`unmarshal_stringify_iff`).
-/

set_option autoImplicit false
set_option relaxedAutoImplicit false

namespace StudentStatus.Json

/-! ### JavaScript values -/

/-- A JavaScript string: its UTF-16 code units. -/
abbrev JsString := List UInt16

/-- The text of a string as UTF-8 carries it: surrogate pairs are joined, and a surrogate without
partner becomes U+FFFD. -/
def JsString.text (s : JsString) : String :=
  String.ofList (joinSurrogates (s.map fun u ↦ .unit u.toNat))

/-- The code units of a character. -/
def charUnits (c : Char) : JsString :=
  if c.toNat < 0x10000 then [c.toNat.toUInt16]
  else [(0xD800 + (c.toNat - 0x10000) / 0x400).toUInt16,
    (0xDC00 + (c.toNat - 0x10000) % 0x400).toUInt16]

/-- The code units of a text. -/
def units (s : String) : JsString := s.toList.flatMap charUnits

/-- A number as JavaScript writes it: a literal of the grammar. -/
structure NumberLiteral where
  literal : List Char
  wellFormed : number literal = some (literal, [])

/-- A value that `JSON.parse` can return and that `JSON.stringify` writes. An infinity is written as
`null` and counts as that. -/
inductive JsValue : Type
  | null
  | bool (b : Bool)
  | number (n : NumberLiteral)
  | string (s : JsString)
  | array (elements : List JsValue)
  | object (members : List (JsString × JsValue))

/-! ### The writer -/

def isSurrogate (u : UInt16) : Bool := isHighSurrogate u.toNat || isLowSurrogate u.toNat

/-- A `\u` escape with lower-case digits. -/
def unicodeEscape (u : UInt16) : List Char :=
  ['\\', 'u', Nat.digitChar (u.toNat / 0x1000 % 16), Nat.digitChar (u.toNat / 0x100 % 16),
    Nat.digitChar (u.toNat / 0x10 % 16), Nat.digitChar (u.toNat % 16)]

/-- A code unit that is not part of a surrogate pair, inside a string literal. -/
def quoteUnit (u : UInt16) : List Char :=
  if u = 0x08 then ['\\', 'b']
  else if u = 0x09 then ['\\', 't']
  else if u = 0x0A then ['\\', 'n']
  else if u = 0x0C then ['\\', 'f']
  else if u = 0x0D then ['\\', 'r']
  else if u = 0x22 then ['\\', '"']
  else if u = 0x5C then ['\\', '\\']
  else if u.toNat < 0x20 ∨ isSurrogate u then unicodeEscape u
  else [Char.ofNat u.toNat]

/-- The characters between the quotes of a string literal. -/
def quoteUnits : JsString → List Char
  | [] => []
  | [u] => quoteUnit u
  | u :: v :: rest =>
    if isHighSurrogate u.toNat && isLowSurrogate v.toNat then
      Char.ofNat (0x10000 + (u.toNat - 0xD800) * 0x400 + (v.toNat - 0xDC00)) :: quoteUnits rest
    else quoteUnit u ++ quoteUnits (v :: rest)

/-- A string literal. -/
def quote (s : JsString) : List Char := '"' :: quoteUnits s ++ ['"']

mutual

/-- The text of a value. -/
def stringify : JsValue → List Char
  | .null => "null".toList
  | .bool b => (if b then "true" else "false").toList
  | .number n => n.literal
  | .string s => quote s
  | .array elements => '[' :: stringifyElements elements ++ [']']
  | .object members => '\x7b' :: stringifyMembers members ++ ['\x7d']

/-- The elements of an array, separated by commas. -/
def stringifyElements : List JsValue → List Char
  | [] => []
  | [element] => stringify element
  | element :: next :: rest => stringify element ++ ',' :: stringifyElements (next :: rest)

/-- The members of an object, separated by commas. -/
def stringifyMembers : List (JsString × JsValue) → List Char
  | [] => []
  | [(name, v)] => quote name ++ ':' :: stringify v
  | (name, v) :: next :: rest =>
    quote name ++ ':' :: (stringify v ++ ',' :: stringifyMembers (next :: rest))

end

/-! ### Strings -/

/-- The piece as which the parser sees a code unit that was written on its own. -/
def unitPiece (u : UInt16) : Piece :=
  if u = 0x08 ∨ u = 0x09 ∨ u = 0x0A ∨ u = 0x0C ∨ u = 0x0D ∨ u = 0x22 ∨ u = 0x5C then
    .rune (Char.ofNat u.toNat)
  else if u.toNat < 0x20 ∨ isSurrogate u then .unit u.toNat
  else .rune (Char.ofNat u.toNat)

theorem toNat_ofNat_of_isValidChar {n : ℕ} (h : n.isValidChar) : (Char.ofNat n).toNat = n := by
  rw [Char.ofNat, dif_pos h]
  rfl

theorem toNat_ofNat_unit {u : UInt16} (h : isSurrogate u = false) :
    (Char.ofNat u.toNat).toNat = u.toNat := by
  have hlt := u.toNat_lt
  simp only [isSurrogate, isHighSurrogate, isLowSurrogate, Bool.or_eq_false_iff,
    Bool.and_eq_false_iff, decide_eq_false_iff_not] at h
  have hvalid : u.toNat.isValidChar := by
    unfold Nat.isValidChar
    omega
  exact toNat_ofNat_of_isValidChar hvalid

/-- The character of a surrogate pair lies outside the basic plane. -/
theorem le_toNat_ofNat_pair {u v : UInt16}
    (hpair : (isHighSurrogate u.toNat && isLowSurrogate v.toNat) = true) :
    0x10000 ≤ (Char.ofNat (0x10000 + (u.toNat - 0xD800) * 0x400 + (v.toNat - 0xDC00))).toNat := by
  have hlt := u.toNat_lt
  have hlt' := v.toNat_lt
  simp only [isHighSurrogate, isLowSurrogate, Bool.and_eq_true, decide_eq_true_eq] at hpair
  have hvalid : (0x10000 + (u.toNat - 0xD800) * 0x400 + (v.toNat - 0xDC00)).isValidChar := by
    unfold Nat.isValidChar
    omega
  rw [toNat_ofNat_of_isValidChar hvalid]
  omega

/-- A piece that is a code unit is the unit that was written. -/
theorem toNat_eq_of_unitPiece {u : UInt16} {v : ℕ} (h : unitPiece u = .unit v) : u.toNat = v := by
  unfold unitPiece at h
  split_ifs at h
  exact Piece.unit.inj h

/-- The scanner reads a code unit that was written on its own as its piece. -/
theorem scanString_quoteUnit (u : UInt16) (rest : List Char) :
    scanString (quoteUnit u ++ rest) =
      (scanString rest).map fun scanned ↦ (unitPiece u :: scanned.1, scanned.2) := by
  by_cases hshort : u = 0x08 ∨ u = 0x09 ∨ u = 0x0A ∨ u = 0x0C ∨ u = 0x0D ∨ u = 0x22 ∨ u = 0x5C
  · rcases hshort with rfl | rfl | rfl | rfl | rfl | rfl | rfl <;>
      exact scanString_escape (by decide) rfl rest
  have hquote : quoteUnit u =
      if u.toNat < 0x20 ∨ isSurrogate u then unicodeEscape u else [Char.ofNat u.toNat] := by
    simp only [not_or] at hshort
    simp [quoteUnit, hshort]
  rw [hquote, unitPiece, if_neg hshort]
  split_ifs with hescape
  · exact scanString_unit (hex4?_digitChars u.toNat_lt) rest
  · rw [not_or, Bool.not_eq_true] at hescape
    have htoNat := toNat_ofNat_unit hescape.2
    have hne (c : Char) (hc : u.toNat ≠ c.toNat) : Char.ofNat u.toNat ≠ c := by
      rintro rfl
      exact hc htoNat.symm
    have hunit (n : UInt16) (hn : u ≠ n) : u.toNat ≠ n.toNat := fun heq ↦
      hn (UInt16.toNat_inj.mp heq)
    simp only [not_or] at hshort
    refine scanString_rune (hne '"' (hunit 0x22 hshort.2.2.2.2.2.1))
      (hne '\\' (hunit 0x5C hshort.2.2.2.2.2.2)) ?_ rest
    rw [htoNat]
    exact hescape.1

theorem joinSurrogates_unit_cons {u : ℕ} {pieces : List Piece}
    (h : ∀ v rest, pieces = .unit v :: rest → ¬ (isHighSurrogate u ∧ isLowSurrogate v)) :
    joinSurrogates (.unit u :: pieces) = ofUnit u :: joinSurrogates pieces := by
  cases pieces with
  | nil => rfl
  | cons piece rest =>
    cases piece with
    | rune c => rfl
    | unit v =>
      have hpair : (isHighSurrogate u && isLowSurrogate v) = false := by
        have hnot := h v rest rfl
        rwa [← Bool.and_eq_true, Bool.not_eq_true] at hnot
      rw [joinSurrogates]
      simp only [hpair, Bool.false_eq_true, if_false]

theorem joinSurrogates_pair {u v : ℕ} (hpair : (isHighSurrogate u && isLowSurrogate v) = true)
    (pieces : List Piece) : joinSurrogates (.unit u :: .unit v :: pieces) =
      Char.ofNat (0x10000 + (u - 0xD800) * 0x400 + (v - 0xDC00)) :: joinSurrogates pieces := by
  rw [joinSurrogates]
  simp only [hpair, if_true]

/-- A code unit on its own reads the same as its piece. -/
theorem joinSurrogates_unitPiece (u : UInt16) {pieces : List Piece}
    (h : ∀ v rest, pieces = .unit v :: rest → ¬ (isHighSurrogate u.toNat ∧ isLowSurrogate v)) :
    joinSurrogates (unitPiece u :: pieces) = ofUnit u.toNat :: joinSurrogates pieces := by
  have hrune (hu : isSurrogate u = false) : ofUnit u.toNat = Char.ofNat u.toNat := by
    rw [isSurrogate] at hu
    rw [ofUnit, hu]
    rfl
  unfold unitPiece
  split_ifs with hshort hescape
  · have hplain : isSurrogate u = false := by
      rcases hshort with rfl | rfl | rfl | rfl | rfl | rfl | rfl <;> rfl
    rw [hrune hplain]
    rfl
  · exact joinSurrogates_unit_cons h
  · rw [not_or, Bool.not_eq_true] at hescape
    rw [hrune hescape.2]
    rfl

/-- The scanner reads the characters of a string literal as pieces that join to its text. A piece
that is a code unit is one of the string, so that no pair arises that the string does not have. -/
theorem scanString_quoteUnits (s : JsString) (rest : List Char) :
    ∃ pieces, scanString (quoteUnits s ++ '"' :: rest) = some (pieces, rest) ∧
      joinSurrogates pieces = joinSurrogates (s.map fun u ↦ .unit u.toNat) ∧
      ∀ v more, pieces = .unit v :: more → s.head?.map UInt16.toNat = some v := by
  induction s using quoteUnits.induct with
  | case1 => exact ⟨[], scanString_quote rest, rfl, by rintro v more ⟨⟩⟩
  | case2 u =>
    refine ⟨[unitPiece u], ?_, ?_, fun v more heq ↦
      congrArg some (toNat_eq_of_unitPiece (List.cons.inj heq).1)⟩
    · rw [quoteUnits, scanString_quoteUnit, scanString_quote]
      rfl
    · rw [joinSurrogates_unitPiece u (by rintro v rest ⟨⟩)]
      exact (joinSurrogates_unit_cons (by rintro v rest ⟨⟩)).symm
  | case3 u v more hpair ih =>
    obtain ⟨pieces, hscan, hjoin, -⟩ := ih
    set c := Char.ofNat (0x10000 + (u.toNat - 0xD800) * 0x400 + (v.toNat - 0xDC00))
    have hlarge : 0x10000 ≤ c.toNat := le_toNat_ofNat_pair hpair
    have hne (d : Char) (hd : d.toNat < 0x10000) : c ≠ d := by
      rintro rfl
      exact absurd hd (Nat.not_lt_of_le hlarge)
    refine ⟨.rune c :: pieces, ?_, ?_, by rintro w rest' ⟨⟩⟩
    · rw [quoteUnits, if_pos hpair, List.cons_append, scanString_rune (hne '"' (by decide))
        (hne '\\' (by decide)) (by omega), hscan]
      rfl
    · rw [List.map_cons, List.map_cons, joinSurrogates_pair hpair, ← hjoin]
      rfl
  | case4 u v more hpair ih =>
    obtain ⟨pieces, hscan, hjoin, hfirst⟩ := ih
    have hlone : ∀ w rest', pieces = .unit w :: rest' →
        ¬ (isHighSurrogate u.toNat ∧ isLowSurrogate w) := by
      intro w rest' heq
      rw [← Option.some.inj (hfirst w rest' heq), ← Bool.and_eq_true]
      exact hpair
    refine ⟨unitPiece u :: pieces, ?_, ?_, fun w rest' heq ↦
      congrArg some (toNat_eq_of_unitPiece (List.cons.inj heq).1)⟩
    · rw [quoteUnits, if_neg hpair, List.append_assoc, scanString_quoteUnit, hscan]
      rfl
    · have hunits : joinSurrogates ((u :: v :: more).map fun u ↦ .unit u.toNat) =
          ofUnit u.toNat :: joinSurrogates ((v :: more).map fun u ↦ .unit u.toNat) := by
        refine joinSurrogates_unit_cons ?_
        rintro w rest' ⟨⟩
        rw [← Bool.and_eq_true]
        exact hpair
      rw [joinSurrogates_unitPiece u hlone, hjoin, hunits]

/-- The decoder reads a string literal as the text of the string. -/
theorem string_quoteUnits (s : JsString) (rest : List Char) :
    string (quoteUnits s ++ '"' :: rest) = some (s.text, rest) := by
  obtain ⟨pieces, hscan, hjoin, -⟩ := scanString_quoteUnits s rest
  simp only [string, hscan, Option.bind_eq_bind, Option.bind_some, Option.pure_def, hjoin]
  rfl

/-! ### Number literals -/

section Numbers

variable {tail : List Char}

theorem digits_eq_some {text ds rest : List Char} (h : digits text = some (ds, rest)) :
    text = ds ++ rest ∧ ds ≠ [] ∧ (∀ c ∈ ds, c.isDigit) ∧ ∀ c ∈ rest.head?, ¬ c.isDigit := by
  rw [digits, List.span_eq_takeWhile_dropWhile] at h
  have hrest := List.head?_dropWhile_not Char.isDigit text
  cases htake : text.takeWhile Char.isDigit with
  | nil =>
    rw [htake] at h
    cases h
  | cons c cs =>
    rw [htake] at h
    cases h
    have hall := List.all_eq_true.mp (List.all_takeWhile (p := Char.isDigit) (l := text))
    refine ⟨?_, List.cons_ne_nil _ _, fun d hd ↦ hall d (htake ▸ hd), ?_⟩
    · rw [← htake, List.takeWhile_append_dropWhile]
    · intro d hd
      rw [Option.mem_def.mp hd] at hrest
      simpa using hrest

/-- Digits end before a text that does not continue a number. -/
theorem digits_append_tail (htail : EndsNumber tail) {text ds rest : List Char}
    (h : digits text = some (ds, rest)) : digits (text ++ tail) = some (ds, rest ++ tail) := by
  obtain ⟨rfl, hne, hds, hrest⟩ := digits_eq_some h
  rw [List.append_assoc]
  refine digits_append hne hds fun c hc ↦ ?_
  cases rest with
  | nil => exact (htail c hc).1
  | cons d rest => exact hrest c hc

theorem integer_cons_of_ne {c : Char} (hc : c ≠ '0') (rest : List Char) :
    integer (c :: rest) = digits (c :: rest) := by
  unfold integer
  split
  · next heq => exact absurd (List.cons.inj heq).1 hc
  · rfl

theorem integer_append_tail (htail : EndsNumber tail) {text int rest : List Char}
    (h : integer text = some (int, rest)) : integer (text ++ tail) = some (int, rest ++ tail) := by
  cases text with
  | nil => cases h
  | cons c text =>
    by_cases hc : c = '0'
    · subst hc
      cases h
      rfl
    · rw [integer_cons_of_ne hc] at h
      rw [List.cons_append, integer_cons_of_ne hc]
      exact digits_append_tail htail h

theorem fraction_cons_of_ne {c : Char} (hc : c ≠ '.') (rest : List Char) :
    fraction (c :: rest) = some ([], c :: rest) := by
  unfold fraction
  split
  · next heq => exact absurd (List.cons.inj heq).1 hc
  · rfl

theorem fraction_append_tail (htail : EndsNumber tail) {text frac rest : List Char}
    (h : fraction text = some (frac, rest)) :
    fraction (text ++ tail) = some (frac, rest ++ tail) := by
  cases text with
  | nil =>
    cases h
    exact fraction_of_endsNumber htail
  | cons c text =>
    by_cases hc : c = '.'
    · subst hc
      change (digits text).bind (fun part ↦ some ('.' :: part.1, part.2)) = _ at h
      change (digits (text ++ tail)).bind (fun part ↦ some ('.' :: part.1, part.2)) = _
      obtain ⟨part, hpart, hfrac⟩ := Option.bind_eq_some_iff.mp h
      rw [digits_append_tail htail hpart]
      cases hfrac
      rfl
    · rw [fraction_cons_of_ne hc] at h
      cases h
      rw [List.cons_append, fraction_cons_of_ne hc]

theorem exponent_cons_of_ne {c : Char} (hc : ¬ (c = 'e' ∨ c = 'E')) (rest : List Char) :
    exponent (c :: rest) = some ([], c :: rest) :=
  if_neg hc

theorem exponent_cons_cons {e : Char} (he : e = 'e' ∨ e = 'E') (s : Char) (text : List Char) :
    exponent (e :: s :: text) =
      if s = '+' ∨ s = '-' then
        (digits text).bind fun part ↦ some (e :: s :: part.1, part.2)
      else (digits (s :: text)).bind fun part ↦ some (e :: part.1, part.2) :=
  if_pos he

theorem exponent_append_tail (htail : EndsNumber tail) {text exp rest : List Char}
    (h : exponent text = some (exp, rest)) :
    exponent (text ++ tail) = some (exp, rest ++ tail) := by
  cases text with
  | nil =>
    cases h
    exact exponent_of_endsNumber htail
  | cons e text =>
    by_cases he : e = 'e' ∨ e = 'E'
    · cases text with
      | nil => exact absurd ((if_pos he).symm.trans h) (Option.some_ne_none _).symm
      | cons s text =>
        rw [exponent_cons_cons he] at h
        rw [List.cons_append, List.cons_append, exponent_cons_cons he]
        split_ifs at h ⊢ with hs
        · obtain ⟨part, hpart, hexp⟩ := Option.bind_eq_some_iff.mp h
          rw [digits_append_tail htail hpart]
          cases hexp
          rfl
        · obtain ⟨part, hpart, hexp⟩ := Option.bind_eq_some_iff.mp h
          have happend := digits_append_tail htail hpart
          rw [List.cons_append] at happend
          rw [happend]
          cases hexp
          rfl
    · rw [exponent_cons_of_ne he] at h
      cases h
      rw [List.cons_append, exponent_cons_of_ne he]

theorem sign_cons_of_ne {c : Char} (hc : c ≠ '-') (rest : List Char) :
    sign (c :: rest) = ([], c :: rest) := by
  unfold sign
  split
  · next heq => exact absurd (List.cons.inj heq).1 hc
  · rfl

/-- A number literal ends before a text that does not continue it. -/
theorem number_append_tail (htail : EndsNumber tail) {text literal rest : List Char}
    (h : number text = some (literal, rest)) :
    number (text ++ tail) = some (literal, rest ++ tail) := by
  have hsign : sign (text ++ tail) = ((sign text).1, (sign text).2 ++ tail) := by
    cases text with
    | nil => cases h
    | cons c text =>
      by_cases hc : c = '-'
      · subst hc
        rfl
      · rw [sign_cons_of_ne hc, List.cons_append, sign_cons_of_ne hc]
  simp only [number, Option.bind_eq_bind, Option.bind_eq_some_iff, Option.pure_def,
    Option.some.injEq, Prod.exists] at h ⊢
  obtain ⟨int, rest₁, hint, frac, rest₂, hfrac, exp, rest₃, hexp, heq⟩ := h
  cases heq
  refine ⟨int, rest₁ ++ tail, ?_, frac, rest₂ ++ tail, fraction_append_tail htail hfrac, exp,
    rest ++ tail, exponent_append_tail htail hexp, by rw [hsign]⟩
  exact hsign ▸ integer_append_tail htail hint

theorem number_append (n : NumberLiteral) (htail : EndsNumber tail) :
    number (n.literal ++ tail) = some (n.literal, tail) :=
  number_append_tail htail n.wellFormed

theorem digits_head {c : Char} {text : List Char} {part : List Char × List Char}
    (h : digits (c :: text) = some part) : c.isDigit := by
  obtain ⟨heq, hne, hds, -⟩ := digits_eq_some h
  cases hcons : part.1 with
  | nil => exact absurd hcons hne
  | cons d ds =>
    rw [hcons, List.cons_append] at heq
    rw [(List.cons.inj heq).1]
    exact hds d (hcons ▸ List.mem_cons_self)

/-- A number literal starts with a minus sign or a digit. -/
theorem NumberLiteral.eq_cons (n : NumberLiteral) :
    ∃ c rest, n.literal = c :: rest ∧ ∀ d : Char, d ≠ '-' → ¬ d.isDigit → c ≠ d := by
  have h := n.wellFormed
  cases hliteral : n.literal with
  | nil =>
    rw [hliteral] at h
    cases h
  | cons c rest =>
    refine ⟨c, rest, rfl, ?_⟩
    rintro d hminus hdigit rfl
    rw [hliteral, number, sign_cons_of_ne hminus] at h
    obtain ⟨part, hint, -⟩ := Option.bind_eq_some_iff.mp h
    by_cases hzero : c = '0'
    · exact hdigit (hzero ▸ by decide)
    · rw [integer_cons_of_ne hzero] at hint
      exact hdigit (digits_head hint)

end Numbers

/-! ### Values -/

/-- The value that the decoder reads for null, a boolean, a number or a string. -/
def JsValue.scalar? : JsValue → Option Value
  | .null => some .null
  | .bool b => some (.bool b)
  | .number n => some (.number n.literal)
  | .string s => some (.string s.text)
  | .array _ | .object _ => none

/-- The value is an array or an object. -/
def Value.IsComposite : Value → Prop
  | .array _ | .object _ => True
  | _ => False

/-- A scalar is read back, where the text after it does not continue a number. -/
theorem scalar_stringify {v : JsValue} {w : Value} (h : v.scalar? = some w) {tail : List Char}
    (htail : EndsNumber tail) : scalar (stringify v ++ tail) = some (w, tail) := by
  cases v with
  | null =>
    cases h
    rfl
  | bool b =>
    cases h
    cases b <;> rfl
  | string s =>
    cases h
    have hstring := string_quoteUnits s tail
    simp [stringify, quote, scalar, hstring]
  | number n =>
    cases h
    have hnumber := number_append n htail
    obtain ⟨c, rest, hcons, hne⟩ := n.eq_cons
    change scalar (n.literal ++ tail) = some (.number n.literal, tail)
    rw [hcons, List.cons_append] at hnumber ⊢
    simp only [scalar, hne '"' (by decide) (by decide), hne 'n' (by decide) (by decide),
      hne 't' (by decide) (by decide), hne 'f' (by decide) (by decide), if_false, hnumber]
    rfl
  | array elements => cases h
  | object members => cases h

/-- The first character of a scalar opens neither an array nor an object. -/
theorem stringify_eq_cons_of_scalar {v : JsValue} {w : Value} (h : v.scalar? = some w) :
    ∃ c rest, stringify v = c :: rest ∧ isSpace c = false ∧ c ≠ '[' ∧ c ≠ '\x7b' := by
  cases v with
  | null => exact ⟨'n', _, rfl, by decide, by decide, by decide⟩
  | bool b => cases b <;> exact ⟨_, _, rfl, by decide, by decide, by decide⟩
  | string s => exact ⟨'"', _, rfl, by decide, by decide, by decide⟩
  | number n =>
    obtain ⟨c, rest, hcons, hne⟩ := n.eq_cons
    refine ⟨c, rest, hcons, ?_, hne _ (by decide) (by decide), hne _ (by decide) (by decide)⟩
    simp only [isSpace, Bool.or_eq_false_iff, decide_eq_false_iff_not]
    exact ⟨⟨⟨hne _ (by decide) (by decide), hne _ (by decide) (by decide)⟩,
      hne _ (by decide) (by decide)⟩, hne _ (by decide) (by decide)⟩
  | array elements => cases h
  | object members => cases h

theorem value_stringify {v : JsValue} {w : Value} (h : v.scalar? = some w) (depth : ℕ)
    {tail : List Char} (htail : EndsNumber tail) :
    value depth (stringify v ++ tail) = some (w, tail) := by
  have hscalar := scalar_stringify h htail
  obtain ⟨c, cs, hcons, hspace, hbracket, hbrace⟩ := stringify_eq_cons_of_scalar h
  rw [hcons, List.cons_append] at hscalar ⊢
  cases depth with
  | zero => rw [value, skipSpace_cons hspace, hscalar]
  | succ depth =>
    rw [value, skipSpace_cons hspace]
    split
    · next heq => exact absurd (List.cons.inj heq).1 hbracket
    · next heq => exact absurd (List.cons.inj heq).1 hbrace
    · exact hscalar

theorem isComposite_of_array {value : List Char → Option (Value × List Char)}
    {text rest : List Char} {w : Value} (h : array value text = some (w, rest)) :
    w.IsComposite := by
  unfold array at h
  split at h
  · cases h
    trivial
  · obtain ⟨part, -, hpart⟩ := Option.bind_eq_some_iff.mp h
    cases hpart
    trivial

theorem isComposite_of_object {value : List Char → Option (Value × List Char)}
    {text rest : List Char} {w : Value} (h : object value text = some (w, rest)) :
    w.IsComposite := by
  unfold object at h
  split at h
  · cases h
    trivial
  · obtain ⟨part, -, hpart⟩ := Option.bind_eq_some_iff.mp h
    cases hpart
    trivial

/-- What is read for an array or an object, if anything is, is one. -/
theorem isComposite_of_value {v : JsValue} (h : v.scalar? = none) {depth : ℕ}
    {tail rest : List Char} {w : Value}
    (hvalue : value depth (stringify v ++ tail) = some (w, rest)) :
    w.IsComposite := by
  have hopen : (∃ text, stringify v ++ tail = '[' :: text) ∨
      ∃ text, stringify v ++ tail = '\x7b' :: text := by
    cases v with
    | array elements => exact Or.inl ⟨_, rfl⟩
    | object members => exact Or.inr ⟨_, rfl⟩
    | _ => cases h
  rcases hopen with ⟨text, heq⟩ | ⟨text, heq⟩ <;> rw [heq] at hvalue <;> cases depth
  -- without depth left, the bracket or the brace is no scalar
  · rw [value, skipSpace_cons (by decide)] at hvalue
    cases hvalue
  · rw [value, skipSpace_cons (by decide)] at hvalue
    exact isComposite_of_array hvalue
  · rw [value, skipSpace_cons (by decide)] at hvalue
    cases hvalue
  · rw [value, skipSpace_cons (by decide)] at hvalue
    exact isComposite_of_object hvalue

/-! ### Objects -/

/-- The member that the decoder reads for a member with a scalar. -/
def readMember (member : JsString × JsValue) : Option (String × Value) :=
  member.2.scalar?.map fun w ↦ (member.1.text, w)

theorem membersAfter_eq_some {value : List Char → Option (Value × List Char)} {fuel : ℕ}
    {member : String × Value} {tail rest : List Char} {parsed : List (String × Value)}
    (h : membersAfter value fuel member tail = some (parsed, rest)) : member ∈ parsed := by
  unfold membersAfter at h
  split at h
  · obtain ⟨part, -, hpart⟩ := Option.bind_eq_some_iff.mp h
    cases hpart
    exact List.mem_cons_self
  · cases h
    exact List.mem_cons_self
  · cases h

/-- The parser reads the name of a member and goes on with its value. -/
theorem members_quote (depth fuel : ℕ) (name : JsString) (text : List Char) :
    members (value depth) (fuel + 1) (quote name ++ ':' :: text) =
      (value depth text).bind fun part ↦
        membersAfter (value depth) fuel (name.text, part.1) part.2 := by
  have hquote := skipSpace_cons (c := '"') (by decide) (quoteUnits name ++ '"' :: ':' :: text)
  have hcolon := skipSpace_cons (c := ':') (by decide) text
  simp only [quote, List.cons_append, List.append_assoc, List.nil_append, members, hquote,
    string_quoteUnits, Option.bind_eq_bind, Option.bind_some, hcolon]
  rfl

theorem stringifyMembers_cons_cons (name : JsString) (v : JsValue) (next : JsString × JsValue)
    (more : List (JsString × JsValue)) : stringifyMembers ((name, v) :: next :: more) =
      quote name ++ ':' :: (stringify v ++ ',' :: stringifyMembers (next :: more)) := by
  rw [stringifyMembers]

/-- Members with scalars are read back, up to the brace that closes the object. -/
theorem members_stringifyMembers (depth : ℕ) (rest : List Char) :
    ∀ (ms : List (JsString × JsValue)) (parsed : List (String × Value)), ms ≠ [] →
      ms.map readMember = parsed.map some → ∀ fuel, ms.length ≤ fuel →
      members (value depth) fuel (stringifyMembers ms ++ '\x7d' :: rest) = some (parsed, rest)
  | [], _, hne, _, _, _ => absurd rfl hne
  | _ :: _, [], _, hread, _, _ => by cases hread
  | _ :: _, _ :: _, _, _, 0, hfuel => absurd hfuel (Nat.not_succ_le_zero _)
  | [(name, v)], member :: parsed, _, hread, fuel + 1, _ => by
    obtain ⟨hmember, hnil⟩ := List.cons.inj hread
    obtain ⟨w, hw, rfl⟩ := Option.map_eq_some_iff.mp hmember
    have hbrace : EndsNumber ('\x7d' :: rest) := by rintro c ⟨⟩; decide
    rw [stringifyMembers, List.append_assoc, List.cons_append, members_quote,
      value_stringify hw depth hbrace, List.map_eq_nil_iff.mp hnil.symm, Option.bind_some,
      membersAfter, skipSpace_cons (by decide)]
    rfl
  | (name, v) :: next :: more, member :: parsed, _, hread, fuel + 1, hfuel => by
    obtain ⟨hmember, hrest⟩ := List.cons.inj hread
    obtain ⟨w, hw, rfl⟩ := Option.map_eq_some_iff.mp hmember
    have ih := members_stringifyMembers depth rest (next :: more) parsed (List.cons_ne_nil _ _)
      hrest fuel (Nat.le_of_succ_le_succ hfuel)
    have hcomma (text : List Char) : EndsNumber (',' :: text) := by rintro c ⟨⟩; decide
    rw [stringifyMembers_cons_cons, List.append_assoc, List.cons_append, List.append_assoc,
      List.cons_append, members_quote, value_stringify hw depth (hcomma _), Option.bind_some,
      membersAfter, skipSpace_cons (by decide)]
    simp only [ih]
    rfl

/-- Where members hold an array or an object, the members that are read hold one under the same
name. -/
theorem members_stringifyMembers_composite (depth : ℕ) (rest : List Char) :
    ∀ (ms : List (JsString × JsValue)), (∃ member ∈ ms, member.2.scalar? = none) →
      ∀ fuel parsed rest',
        members (value depth) fuel (stringifyMembers ms ++ '\x7d' :: rest) = some (parsed, rest') →
        ∃ member ∈ ms, ∃ w : Value, w.IsComposite ∧ (member.1.text, w) ∈ parsed
  | [], hcomposite, _, _, _, _ => by
    obtain ⟨member, hmem, -⟩ := hcomposite
    cases hmem
  | _ :: _, _, 0, _, _, hread => by cases hread
  | (name, v) :: more, hcomposite, fuel + 1, parsed, rest', hread => by
    obtain ⟨text, htext, hmore⟩ : ∃ text,
        stringifyMembers ((name, v) :: more) ++ '\x7d' :: rest =
          quote name ++ ':' :: (stringify v ++ text) ∧ EndsNumber text ∧
        (more = [] ∨ text = ',' :: (stringifyMembers more ++ '\x7d' :: rest)) := by
      cases more with
      | nil =>
        refine ⟨'\x7d' :: rest, ?_, by rintro c ⟨⟩; decide, Or.inl rfl⟩
        rw [stringifyMembers, List.append_assoc, List.cons_append]
      | cons next more =>
        refine ⟨',' :: (stringifyMembers (next :: more) ++ '\x7d' :: rest), ?_,
          by rintro c ⟨⟩; decide, Or.inr rfl⟩
        rw [stringifyMembers_cons_cons, List.append_assoc, List.cons_append, List.append_assoc,
          List.cons_append]
    rw [htext, members_quote] at hread
    obtain ⟨part, hvalue, hafter⟩ := Option.bind_eq_some_iff.mp hread
    cases hv : v.scalar? with
    | none =>
      exact ⟨(name, v), List.mem_cons_self, part.1, isComposite_of_value hv hvalue,
        membersAfter_eq_some hafter⟩
    | some w =>
      -- the composite member is a later one
      obtain ⟨member, hmem, hnone⟩ := hcomposite
      have hlater : member ∈ more := by
        rcases List.mem_cons.mp hmem with rfl | hlater
        · cases hv.symm.trans hnone
        · exact hlater
      obtain rfl : text = ',' :: (stringifyMembers more ++ '\x7d' :: rest) :=
        hmore.2.resolve_left (List.ne_nil_of_mem hlater)
      rw [value_stringify hv depth hmore.1] at hvalue
      cases hvalue
      rw [membersAfter, skipSpace_cons (by decide)] at hafter
      obtain ⟨later, hread', hparsed⟩ := Option.bind_eq_some_iff.mp hafter
      cases hparsed
      obtain ⟨member', hmem', w', hw', hin⟩ := members_stringifyMembers_composite depth rest more
        ⟨member, hlater, hnone⟩ fuel later.1 later.2 hread'
      exact ⟨member', List.mem_cons_of_mem _ hmem', w', hw', List.mem_cons_of_mem _ hin⟩

theorem length_le_length_stringifyMembers (ms : List (JsString × JsValue)) :
    ms.length ≤ (stringifyMembers ms).length := by
  induction ms with
  | nil => exact Nat.zero_le _
  | cons member rest ih =>
    obtain ⟨name, v⟩ := member
    cases rest with
    | nil =>
      simp only [stringifyMembers, quote, List.length_append, List.length_cons]
      omega
    | cons next more =>
      rw [stringifyMembers_cons_cons]
      simp only [quote, List.length_append, List.length_cons] at ih ⊢
      omega

theorem stringifyMembers_eq_quote {ms : List (JsString × JsValue)} (hne : ms ≠ []) :
    ∃ text, stringifyMembers ms = '"' :: text := by
  cases ms with
  | nil => exact absurd rfl hne
  | cons member rest =>
    obtain ⟨name, v⟩ := member
    cases rest with
    | nil =>
      rw [stringifyMembers]
      exact ⟨_, rfl⟩
    | cons next more =>
      rw [stringifyMembers_cons_cons]
      exact ⟨_, rfl⟩

/-- Reading an object is reading its members. -/
theorem parse_stringify_object {ms : List (JsString × JsValue)} (hne : ms ≠ []) :
    parse (String.ofList (stringify (.object ms))) =
      (members (value (maxNestingDepth - 1)) ((stringifyMembers ms ++ ['\x7d']).length + 1)
        (stringifyMembers ms ++ ['\x7d'])).bind fun part ↦
          if part.2.all isSpace then some (.object part.1) else none := by
  have hopen := skipSpace_cons (c := '\x7b') (by decide) (stringifyMembers ms ++ ['\x7d'])
  obtain ⟨text, htext⟩ := stringifyMembers_eq_quote hne
  have hobject : object (value (maxNestingDepth - 1)) (stringifyMembers ms ++ ['\x7d']) =
      (members (value (maxNestingDepth - 1)) ((stringifyMembers ms ++ ['\x7d']).length + 1)
        (stringifyMembers ms ++ ['\x7d'])).bind fun part ↦ some (.object part.1, part.2) := by
    unfold object
    rw [htext, List.cons_append, skipSpace_cons (by decide)]
    rfl
  have hvalue : value maxNestingDepth (stringify (.object ms)) =
      object (value (maxNestingDepth - 1)) (stringifyMembers ms ++ ['\x7d']) := by
    change value (maxNestingDepth - 1 + 1) _ = _
    rw [value, stringify, List.cons_append, hopen]
    rfl
  rw [parse, String.toList_ofList, hvalue, hobject, Option.bind_eq_bind, Option.bind_assoc]
  rfl

/-- Either every member has a scalar, or one has an array or an object. -/
theorem readMember_cases (ms : List (JsString × JsValue)) :
    (∃ parsed : List (String × Value), ms.map readMember = parsed.map some) ∨
      ∃ member ∈ ms, member.2.scalar? = none := by
  induction ms with
  | nil => exact Or.inl ⟨[], rfl⟩
  | cons member ms ih =>
    rcases ih with ⟨parsed, hparsed⟩ | ⟨other, hmem, hnone⟩
    · cases hscalar : member.2.scalar? with
      | none => exact Or.inr ⟨member, List.mem_cons_self, hscalar⟩
      | some w =>
        refine Or.inl ⟨(member.1.text, w) :: parsed, ?_⟩
        rw [List.map_cons, List.map_cons, hparsed, readMember, hscalar]
        rfl
    · exact Or.inr ⟨other, List.mem_cons_of_mem _ hmem, hnone⟩

theorem foldlM_eq_none_of_mem {α β : Type} {f : β → α → Option β} {l : List α} {x : α}
    (hx : x ∈ l) (hfail : ∀ b, f b x = none) (b : β) : l.foldlM f b = none := by
  induction l generalizing b with
  | nil => cases hx
  | cons a l ih =>
    rw [List.foldlM_cons]
    rcases List.mem_cons.mp hx with rfl | hx
    · rw [hfail]
      rfl
    · cases f b a with
      | none => rfl
      | some b' => exact ih hx b'

section Decode

variable {τ : Type} [Struct τ]

/-- Store a member with a scalar; an array or an object is an error. -/
def storeJsMember (s : τ) (member : JsString × JsValue) : Option τ :=
  (readMember member).bind (storeMember s)

theorem storeMember_composite {name : String} {w : Value} (hw : w.IsComposite)
    (hfound : (findField name : Option (Field τ)).isSome) (s : τ) :
    storeMember s (name, w) = none := by
  obtain ⟨field, hfield⟩ := Option.isSome_iff_exists.mp hfound
  unfold storeMember
  rw [hfield]
  cases field <;> cases w <;> first | rfl | exact hw.elim

/-- What the decoder makes of a non-empty object whose members name fields: it stores them in order,
and fails at an array or an object. -/
theorem unmarshal_stringify_iff {ms : List (JsString × JsValue)} (hne : ms ≠ [])
    (hfound : ∀ member ∈ ms, (findField member.1.text : Option (Field τ)).isSome) {t : τ} :
    unmarshal (String.ofList (stringify (.object ms))) = .ok t ↔
      ms.foldlM storeJsMember Struct.zero = some t := by
  rcases readMember_cases ms with ⟨parsed, hparsed⟩ | ⟨member, hmem, hnone⟩
  · have hfuel : ms.length ≤ (stringifyMembers ms ++ ['\x7d']).length + 1 := by
      have hlength := length_le_length_stringifyMembers ms
      rw [List.length_append]
      omega
    have hfold (s : τ) : ms.foldlM storeJsMember s = parsed.foldlM storeMember s := by
      have hmap : ms.foldlM storeJsMember s =
          (ms.map readMember).foldlM (fun s member ↦ member.bind (storeMember s)) s := by
        rw [List.foldlM_map]
        rfl
      rw [hmap, hparsed, List.foldlM_map]
      rfl
    unfold unmarshal
    rw [parse_stringify_object hne,
      members_stringifyMembers _ [] ms parsed hne hparsed _ hfuel, hfold]
    simp only [Option.bind_some, List.all_nil, if_true]
    cases parsed.foldlM storeMember (Struct.zero : τ) <;> simp
  · have hfold : ms.foldlM storeJsMember (Struct.zero : τ) = none :=
      foldlM_eq_none_of_mem hmem (fun s ↦ by rw [storeJsMember, readMember, hnone]; rfl) _
    rw [hfold]
    refine iff_of_false (fun hdecoded ↦ ?_) (by simp)
    unfold unmarshal at hdecoded
    rw [parse_stringify_object hne] at hdecoded
    cases hmembers : members (value (maxNestingDepth - 1))
        ((stringifyMembers ms ++ ['\x7d']).length + 1) (stringifyMembers ms ++ ['\x7d']) with
    | none =>
      rw [hmembers] at hdecoded
      cases hdecoded
    | some part =>
      obtain ⟨member', hmem', w, hw, hin⟩ := members_stringifyMembers_composite _ [] ms
        ⟨member, hmem, hnone⟩ _ part.1 part.2 hmembers
      have hfail : part.1.foldlM storeMember (Struct.zero : τ) = none :=
        foldlM_eq_none_of_mem hin (storeMember_composite hw (hfound member' hmem')) _
      rw [hmembers, Option.bind_some] at hdecoded
      split_ifs at hdecoded
      simp only [hfail, reduceCtorEq] at hdecoded

end Decode

end StudentStatus.Json
