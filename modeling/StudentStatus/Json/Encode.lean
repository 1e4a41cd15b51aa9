import StudentStatus.Json.Text
import Mathlib.Data.List.TakeDrop
import Mathlib.Tactic.IntervalCases
import Mathlib.Tactic.NormNum

/-!
# The encoder and its round trip

Go's `json.Marshal` on a struct of strings, integers and booleans writes a flat object: the members
in field order, without white space, the strings escaped for JSON and for HTML. `encodeObject` is
that text, and `parse_encodeObject` says that the parser reads back the members that were written.

The proof follows the text: a character (`scanString_encodeChar`), a string literal
(`string_encodeString`), a decimal literal (`number_formatInt`), a scalar (`scalar_encode`), the
members up to the closing brace (`members_encodeMembers`).
-/

set_option autoImplicit false
set_option relaxedAutoImplicit false

namespace StudentStatus.Json

/-! ### The encoder -/

/-- The characters that the encoder writes as a `\u` escape: control characters without a short
escape, the characters special in HTML, and the two line separators of JavaScript. -/
def isUnitEscaped (c : Char) : Bool :=
  c.toNat < 0x20 || c = '<' || c = '>' || c = '&' || c = '\u2028' || c = '\u2029'

/-- A character inside a string literal. -/
def encodeChar (c : Char) : List Char :=
  if c = '"' ∨ c = '\\' then ['\\', c]
  else if c = '\n' then ['\\', 'n']
  else if c = '\r' then ['\\', 'r']
  else if c = '\t' then ['\\', 't']
  else if isUnitEscaped c then
    ['\\', 'u', Nat.digitChar (c.toNat / 0x1000 % 16), Nat.digitChar (c.toNat / 0x100 % 16),
      Nat.digitChar (c.toNat / 0x10 % 16), Nat.digitChar (c.toNat % 16)]
  else [c]

/-- A string literal with its quotes. -/
def encodeString (s : String) : List Char := '"' :: s.toList.flatMap encodeChar ++ ['"']

/-- An integer in decimal. -/
def formatInt : ℤ → List Char
  | .ofNat n => Nat.toDigits 10 n
  | .negSucc n => '-' :: Nat.toDigits 10 (n + 1)

/-- The field values that a flat struct holds. -/
inductive Scalar : Type
  | string (s : String)
  | int (i : Int64)
  | bool (b : Bool)
  deriving DecidableEq

namespace Scalar

def encode : Scalar → List Char
  | .string s => encodeString s
  | .int i => formatInt i.toInt
  | .bool b => (if b then "true" else "false").toList

/-- The value that the text of a field value denotes. -/
def toValue : Scalar → Value
  | .string s => .string s
  | .int i => .number (formatInt i.toInt)
  | .bool b => .bool b

end Scalar

/-- One member of an object. -/
def encodeMember (member : String × Scalar) : List Char :=
  encodeString member.1 ++ ':' :: member.2.encode

/-- The members of an object, separated by commas. -/
def encodeMembers : List (String × Scalar) → List Char
  | [] => []
  | [member] => encodeMember member
  | member :: rest => encodeMember member ++ ',' :: encodeMembers rest

theorem encodeMembers_cons_cons (member next : String × Scalar) (more : List (String × Scalar)) :
    encodeMembers (member :: next :: more) =
      encodeMember member ++ ',' :: encodeMembers (next :: more) := rfl

/-- A flat object. -/
def encodeObject (members : List (String × Scalar)) : List Char :=
  '\x7b' :: encodeMembers members ++ ['\x7d']

/-! ### Strings -/

/-- The piece as which the parser sees an encoded character. -/
def pieceOf (c : Char) : Piece :=
  if c = '"' ∨ c = '\\' ∨ c = '\n' ∨ c = '\r' ∨ c = '\t' then .rune c
  else if isUnitEscaped c then .unit c.toNat
  else .rune c

theorem hexDigit?_digitChar {n : ℕ} (h : n < 16) : hexDigit? (Nat.digitChar n) = some n := by
  interval_cases n <;> rfl

/-- Four hexadecimal digits denote the code unit that was written. -/
theorem hex4?_digitChars {u : ℕ} (h : u < 0x10000) :
    hex4? (Nat.digitChar (u / 0x1000 % 16)) (Nat.digitChar (u / 0x100 % 16))
      (Nat.digitChar (u / 0x10 % 16)) (Nat.digitChar (u % 16)) = some u := by
  simp only [hex4?, hexDigit?_digitChar (Nat.mod_lt _ (by decide : 16 > 0)), Option.bind_eq_bind,
    Option.bind_some, Option.pure_def, Option.some.injEq]
  omega

theorem toNat_lt_of_isUnitEscaped {c : Char} (h : isUnitEscaped c) : c.toNat < 0x10000 := by
  simp only [isUnitEscaped, Bool.or_eq_true, decide_eq_true_eq] at h
  rcases h with ((((h | rfl) | rfl) | rfl) | rfl) | rfl
  · omega
  all_goals decide

theorem scanString_quote (rest : List Char) : scanString ('"' :: rest) = some ([], rest) := by
  rw [scanString.eq_def]
  rfl

theorem scanString_rune {c : Char} (hquote : c ≠ '"') (hbackslash : c ≠ '\\')
    (hcontrol : ¬ c.toNat < 0x20) (rest : List Char) :
    scanString (c :: rest) =
      (scanString rest).map fun scanned ↦ (.rune c :: scanned.1, scanned.2) := by
  rw [scanString.eq_def]
  simp only [hquote, hbackslash, hcontrol, if_false]
  cases scanString rest <;> rfl

theorem scanString_escape {e c : Char} (hu : e ≠ 'u') (he : escape? e = some c) (rest : List Char) :
    scanString ('\\' :: e :: rest) =
      (scanString rest).map fun scanned ↦ (.rune c :: scanned.1, scanned.2) := by
  rw [scanString.eq_def]
  simp only [hu, if_false, he]
  cases scanString rest <;> rfl

theorem scanString_unit {h₁ h₂ h₃ h₄ : Char} {u : ℕ} (hu : hex4? h₁ h₂ h₃ h₄ = some u)
    (rest : List Char) :
    scanString ('\\' :: 'u' :: h₁ :: h₂ :: h₃ :: h₄ :: rest) =
      (scanString rest).map fun scanned ↦ (.unit u :: scanned.1, scanned.2) := by
  rw [scanString.eq_def]
  simp only [hu]
  cases scanString rest <;> rfl

/-- The scanner reads an encoded character as its piece. -/
theorem scanString_encodeChar (c : Char) (rest : List Char) :
    scanString (encodeChar c ++ rest) =
      (scanString rest).map fun scanned ↦ (pieceOf c :: scanned.1, scanned.2) := by
  unfold encodeChar pieceOf
  by_cases hself : c = '"' ∨ c = '\\'
  · have hescape : c ≠ 'u' ∧ escape? c = some c := by rcases hself with rfl | rfl <;> decide
    have hpiece : c = '"' ∨ c = '\\' ∨ c = '\n' ∨ c = '\r' ∨ c = '\t' := by tauto
    rw [if_pos hself, if_pos hpiece]
    exact scanString_escape hescape.1 hescape.2 rest
  rw [if_neg hself]
  by_cases hn : c = '\n'
  · subst hn
    exact scanString_escape (by decide) rfl rest
  rw [if_neg hn]
  by_cases hr : c = '\r'
  · subst hr
    exact scanString_escape (by decide) rfl rest
  rw [if_neg hr]
  by_cases ht : c = '\t'
  · subst ht
    exact scanString_escape (by decide) rfl rest
  have hpiece : ¬ (c = '"' ∨ c = '\\' ∨ c = '\n' ∨ c = '\r' ∨ c = '\t') := by tauto
  rw [if_neg ht, if_neg hpiece]
  by_cases hunit : isUnitEscaped c
  · rw [if_pos hunit, if_pos hunit]
    exact scanString_unit (hex4?_digitChars (toNat_lt_of_isUnitEscaped hunit)) rest
  · rw [if_neg hunit, if_neg hunit]
    refine scanString_rune (fun h ↦ hself (Or.inl h)) (fun h ↦ hself (Or.inr h)) (fun h ↦ ?_) rest
    simp [isUnitEscaped, h] at hunit

theorem scanString_flatMap_encodeChar (cs : List Char) (rest : List Char) :
    scanString (cs.flatMap encodeChar ++ '"' :: rest) = some (cs.map pieceOf, rest) := by
  induction cs with
  | nil => exact scanString_quote rest
  | cons c cs ih =>
    rw [List.flatMap_cons, List.append_assoc, scanString_encodeChar, ih]
    rfl

/-- A character is not a surrogate. -/
theorem not_surrogate (c : Char) :
    isHighSurrogate c.toNat = false ∧ isLowSurrogate c.toNat = false := by
  have hvalid : c.toNat < 0xD800 ∨ 0xDFFF < c.toNat ∧ c.toNat < 0x110000 := c.valid
  simp only [isHighSurrogate, isLowSurrogate, Bool.and_eq_false_iff, decide_eq_false_iff_not]
  omega

theorem ofUnit_toNat (c : Char) : ofUnit c.toNat = c := by
  unfold ofUnit
  rw [(not_surrogate c).1, (not_surrogate c).2]
  exact Char.ofNat_toNat c

/-- The pieces of encoded characters join to these characters: none of them is a surrogate. -/
theorem joinSurrogates_map_pieceOf (cs : List Char) : joinSurrogates (cs.map pieceOf) = cs := by
  have hunit (c : Char) (pieces : List Piece) :
      joinSurrogates (.unit c.toNat :: pieces) = c :: joinSurrogates pieces := by
    cases pieces with
    | nil => simp [joinSurrogates, ofUnit_toNat]
    | cons piece pieces =>
      cases piece with
      | rune d => simp [joinSurrogates, ofUnit_toNat]
      | unit v => simp [joinSurrogates, ofUnit_toNat, (not_surrogate c).1]
  induction cs with
  | nil => rfl
  | cons c cs ih =>
    have hpiece : pieceOf c = .rune c ∨ pieceOf c = .unit c.toNat := by
      unfold pieceOf
      split_ifs <;> simp
    rw [List.map_cons]
    rcases hpiece with h | h
    · rw [h]
      exact congrArg (c :: ·) ih
    · rw [h, hunit, ih]

/-- The parser reads back an encoded string literal. -/
theorem string_encodeString (s : String) (rest : List Char) :
    string (s.toList.flatMap encodeChar ++ '"' :: rest) = some (s, rest) := by
  simp only [string, scanString_flatMap_encodeChar, Option.bind_eq_bind, Option.bind_some,
    Option.pure_def, joinSurrogates_map_pieceOf, String.ofList_toList]

/-! ### Numbers -/

/-- The text does not continue a number literal. -/
def EndsNumber (text : List Char) : Prop :=
  ∀ c ∈ text.head?, ¬ c.isDigit ∧ c ≠ '.' ∧ c ≠ 'e' ∧ c ≠ 'E'

theorem isDigit_digitChar {n : ℕ} (h : n < 10) : (Nat.digitChar n).isDigit := by
  interval_cases n <;> rfl

theorem isDigit_of_mem_toDigits (n : ℕ) : ∀ c ∈ Nat.toDigits 10 n, c.isDigit := by
  induction n using Nat.strongRecOn with
  | _ n ih =>
    intro c hc
    by_cases hn : n < 10
    · rw [Nat.toDigits_of_lt_base hn, List.mem_singleton] at hc
      exact hc ▸ isDigit_digitChar hn
    · rw [Nat.toDigits_of_base_le (by decide) (by omega), List.mem_append,
        List.mem_singleton] at hc
      rcases hc with hc | rfl
      · exact ih (n / 10) (by omega) c hc
      · exact isDigit_digitChar (Nat.mod_lt _ (by decide))

/-- A decimal that starts with a zero is the number zero. -/
theorem toDigits_eq_zero_cons {n : ℕ} {ds : List Char} (h : Nat.toDigits 10 n = '0' :: ds) :
    ds = [] := by
  have hpos : ∀ n : ℕ, 0 < n → ∀ ds, Nat.toDigits 10 n ≠ '0' :: ds := by
    intro n
    induction n using Nat.strongRecOn with
    | _ n ih =>
      intro hn ds hds
      by_cases hlt : n < 10
      · rw [Nat.toDigits_of_lt_base hlt] at hds
        have hhead := (List.cons.inj hds).1
        interval_cases n <;> exact absurd hhead (by decide)
      · rw [Nat.toDigits_of_base_le (by decide) (by omega)] at hds
        cases hquot : Nat.toDigits 10 (n / 10) with
        | nil => exact Nat.toDigits_ne_nil hquot
        | cons c cs =>
          rw [hquot] at hds
          have hc := (List.cons.inj hds).1
          exact ih (n / 10) (by omega) (by omega) cs (hc ▸ hquot)
  by_cases hn : 0 < n
  · exact absurd h (hpos n hn ds)
  · rw [Nat.eq_zero_of_not_pos hn] at h
    exact (List.cons.inj h).2.symm

theorem digits_append {ds rest : List Char} (hne : ds ≠ []) (hds : ∀ c ∈ ds, c.isDigit)
    (hrest : ∀ c ∈ rest.head?, ¬ c.isDigit) : digits (ds ++ rest) = some (ds, rest) := by
  have hspan : (ds ++ rest).span Char.isDigit = (ds, rest) := by
    rw [List.span_eq_takeWhile_dropWhile, List.takeWhile_append_of_pos hds,
      List.dropWhile_append_of_pos hds]
    cases rest with
    | nil => simp
    | cons c rest => simp [hrest c rfl]
  unfold digits
  rw [hspan]
  cases ds with
  | nil => exact absurd rfl hne
  | cons c ds => rfl

theorem integer_toDigits (n : ℕ) {rest : List Char} (hrest : EndsNumber rest) :
    integer (Nat.toDigits 10 n ++ rest) = some (Nat.toDigits 10 n, rest) := by
  have hdigits := digits_append Nat.toDigits_ne_nil (isDigit_of_mem_toDigits n)
    fun c hc ↦ (hrest c hc).1
  cases hn : Nat.toDigits 10 n with
  | nil => exact absurd hn Nat.toDigits_ne_nil
  | cons c cs =>
    rw [hn] at hdigits
    by_cases hzero : c = '0'
    · subst hzero
      rw [toDigits_eq_zero_cons hn]
      rfl
    · rw [List.cons_append] at hdigits ⊢
      unfold integer
      split
      · next heq => exact absurd (List.cons.inj heq).1 hzero
      · exact hdigits

theorem fraction_of_endsNumber {rest : List Char} (hrest : EndsNumber rest) :
    fraction rest = some ([], rest) := by
  unfold fraction
  split
  · exact absurd rfl (hrest _ rfl).2.1
  · rfl

theorem exponent_of_endsNumber {rest : List Char} (hrest : EndsNumber rest) :
    exponent rest = some ([], rest) := by
  cases rest with
  | nil => rfl
  | cons e rest =>
    exact if_neg (not_or.mpr (hrest e rfl).2.2)

/-- The parser reads back an encoded integer. -/
theorem number_formatInt (i : ℤ) {rest : List Char} (hrest : EndsNumber rest) :
    number (formatInt i ++ rest) = some (formatInt i, rest) := by
  cases i with
  | ofNat n =>
    have hsign : sign (Nat.toDigits 10 n ++ rest) = ([], Nat.toDigits 10 n ++ rest) := by
      cases hn : Nat.toDigits 10 n with
      | nil => exact absurd hn Nat.toDigits_ne_nil
      | cons c cs =>
        have hdigit := isDigit_of_mem_toDigits n c (hn ▸ List.mem_cons_self)
        rw [List.cons_append]
        unfold sign
        split
        · next heq => exact absurd ((List.cons.inj heq).1 ▸ hdigit) (by decide)
        · rfl
    simp [number, formatInt, hsign, integer_toDigits n hrest, fraction_of_endsNumber hrest,
      exponent_of_endsNumber hrest]
  | negSucc n =>
    have hsign : sign ('-' :: (Nat.toDigits 10 (n + 1) ++ rest)) =
        (['-'], Nat.toDigits 10 (n + 1) ++ rest) := rfl
    simp [number, formatInt, hsign, integer_toDigits (n + 1) hrest, fraction_of_endsNumber hrest,
      exponent_of_endsNumber hrest]

/-! ### Objects -/

theorem skipSpace_cons {c : Char} (h : isSpace c = false) (rest : List Char) :
    skipSpace (c :: rest) = c :: rest := by
  rw [skipSpace, List.dropWhile_cons_of_neg (by simp [h])]

/-- A decimal literal starts with a digit or a minus sign. -/
theorem formatInt_eq_cons (i : ℤ) :
    ∃ c rest, formatInt i = c :: rest ∧ ∀ d : Char, d ≠ '-' → ¬ d.isDigit → c ≠ d := by
  cases i with
  | negSucc n => exact ⟨'-', _, rfl, fun d hd _ heq ↦ hd heq.symm⟩
  | ofNat n =>
    cases hn : Nat.toDigits 10 n with
    | nil => exact absurd hn Nat.toDigits_ne_nil
    | cons c cs =>
      have hc := isDigit_of_mem_toDigits n c (hn ▸ List.mem_cons_self)
      exact ⟨c, cs, hn, fun d _ hd heq ↦ hd (heq ▸ hc)⟩

/-- The first character of an encoded field value opens a scalar. -/
theorem Scalar.encode_eq_cons (s : Scalar) :
    ∃ c rest, s.encode = c :: rest ∧ isSpace c = false ∧ c ≠ '[' ∧ c ≠ '\x7b' := by
  cases s with
  | string s => exact ⟨'"', _, rfl, by decide, by decide, by decide⟩
  | bool b => cases b <;> exact ⟨_, _, rfl, by decide, by decide, by decide⟩
  | int i =>
    obtain ⟨c, rest, hcons, hne⟩ := formatInt_eq_cons i.toInt
    refine ⟨c, rest, hcons, ?_, hne _ (by decide) (by decide), hne _ (by decide) (by decide)⟩
    simp only [isSpace, Bool.or_eq_false_iff, decide_eq_false_iff_not]
    exact ⟨⟨⟨hne _ (by decide) (by decide), hne _ (by decide) (by decide)⟩,
      hne _ (by decide) (by decide)⟩, hne _ (by decide) (by decide)⟩

/-- The parser reads back an encoded field value. -/
theorem scalar_encode (s : Scalar) {rest : List Char} (hrest : EndsNumber rest) :
    scalar (s.encode ++ rest) = some (s.toValue, rest) := by
  cases s with
  | string s =>
    have hstring := string_encodeString s rest
    simp [Scalar.encode, Scalar.toValue, encodeString, scalar, hstring]
  | bool b => cases b <;> rfl
  | int i =>
    have hnumber := number_formatInt i.toInt hrest
    obtain ⟨c, cs, hcons, hne⟩ := formatInt_eq_cons i.toInt
    change scalar (formatInt i.toInt ++ rest) = some (.number (formatInt i.toInt), rest)
    rw [hcons, List.cons_append] at hnumber ⊢
    simp only [scalar, hne '"' (by decide) (by decide), hne 'n' (by decide) (by decide),
      hne 't' (by decide) (by decide), hne 'f' (by decide) (by decide), if_false, hnumber]
    rfl

theorem value_encode (s : Scalar) (depth : ℕ) {rest : List Char} (hrest : EndsNumber rest) :
    value depth (s.encode ++ rest) = some (s.toValue, rest) := by
  have hscalar := scalar_encode s hrest
  obtain ⟨c, cs, hcons, hspace, hbracket, hbrace⟩ := s.encode_eq_cons
  rw [hcons, List.cons_append] at hscalar ⊢
  cases depth with
  | zero => rw [value, skipSpace_cons hspace, hscalar]
  | succ depth =>
    rw [value, skipSpace_cons hspace]
    split
    · next heq => exact absurd (List.cons.inj heq).1 hbracket
    · next heq => exact absurd (List.cons.inj heq).1 hbrace
    · exact hscalar

/-- How the parser of members goes on after a member, by the delimiter that follows it. -/
def membersAfter (value : List Char → Option (Value × List Char)) (fuel : ℕ)
    (member : String × Value) (tail : List Char) : Option (List (String × Value) × List Char) :=
  match skipSpace tail with
  | ',' :: text => do
    let (rest, text) ← members value fuel text
    return (member :: rest, text)
  | '\x7d' :: text => return ([member], text)
  | _ => none

/-- The parser reads back one encoded member and continues at the delimiter after it. -/
theorem members_encodeMember (depth fuel : ℕ) (member : String × Scalar) {tail : List Char}
    (htail : EndsNumber tail) :
    members (value depth) (fuel + 1) (encodeMember member ++ tail) =
      membersAfter (value depth) fuel (member.1, member.2.toValue) tail := by
  have hquote := skipSpace_cons (c := '"') (by decide)
    (member.1.toList.flatMap encodeChar ++ '"' :: ':' :: (member.2.encode ++ tail))
  have hcolon := skipSpace_cons (c := ':') (by decide) (member.2.encode ++ tail)
  simp only [encodeMember, encodeString, List.cons_append, List.append_assoc, List.nil_append,
    members, hquote, string_encodeString, Option.bind_eq_bind, Option.bind_some, hcolon,
    value_encode member.2 depth htail]
  rfl

/-- The parser reads back encoded members, up to the brace that closes the object. -/
theorem members_encodeMembers (depth : ℕ) (rest : List Char) :
    ∀ (encoded : List (String × Scalar)), encoded ≠ [] → ∀ fuel, encoded.length ≤ fuel →
      members (value depth) fuel (encodeMembers encoded ++ '\x7d' :: rest) =
        some (encoded.map fun member ↦ (member.1, member.2.toValue), rest)
  | [], hne, _, _ => absurd rfl hne
  | [member], _, 0, hfuel => absurd hfuel (Nat.not_succ_le_zero _)
  | [member], _, fuel + 1, _ => by
    rw [encodeMembers, members_encodeMember depth fuel member (by rintro c ⟨⟩; decide),
      membersAfter, skipSpace_cons (by decide)]
    rfl
  | member :: next :: more, _, 0, hfuel => absurd hfuel (Nat.not_succ_le_zero _)
  | member :: next :: more, _, fuel + 1, hfuel => by
    have ih := members_encodeMembers depth rest (next :: more) (List.cons_ne_nil _ _) fuel
      (Nat.le_of_succ_le_succ hfuel)
    rw [encodeMembers_cons_cons, List.append_assoc, List.cons_append,
      members_encodeMember depth fuel member (by rintro c ⟨⟩; decide), membersAfter,
      skipSpace_cons (by decide)]
    simp only [ih]
    rfl

theorem length_le_length_encodeMembers (encoded : List (String × Scalar)) :
    encoded.length ≤ (encodeMembers encoded).length := by
  induction encoded with
  | nil => exact Nat.zero_le _
  | cons member rest ih =>
    cases rest with
    | nil => simp [encodeMembers, encodeMember, encodeString]
    | cons next more =>
      simp only [encodeMembers, encodeMember, encodeString, List.length_append, List.length_cons]
        at ih ⊢
      omega

/-- The parser reads back the members of an encoded object. -/
theorem parse_encodeObject (encoded : List (String × Scalar)) :
    parse (String.ofList (encodeObject encoded)) =
      some (.object (encoded.map fun member ↦ (member.1, member.2.toValue))) := by
  have hopen := skipSpace_cons (c := '\x7b') (by decide) (encodeMembers encoded ++ ['\x7d'])
  have hobject : object (value (maxNestingDepth - 1)) (encodeMembers encoded ++ ['\x7d']) =
      some (.object (encoded.map fun member ↦ (member.1, member.2.toValue)), []) := by
    cases encoded with
    | nil => rfl
    | cons member rest =>
      have hmembers := members_encodeMembers (maxNestingDepth - 1) [] (member :: rest)
        (List.cons_ne_nil _ _) ((encodeMembers (member :: rest) ++ ['\x7d']).length + 1)
        (by
          have := length_le_length_encodeMembers (member :: rest)
          rw [List.length_append]
          omega)
      obtain ⟨tail, htail⟩ : ∃ tail, encodeMembers (member :: rest) ++ ['\x7d'] = '"' :: tail := by
        cases rest <;> exact ⟨_, rfl⟩
      unfold object
      rw [hmembers, htail, skipSpace_cons (by decide)]
      rfl
  have hvalue : value maxNestingDepth (encodeObject encoded) =
      some (.object (encoded.map fun member ↦ (member.1, member.2.toValue)), []) := by
    change value (maxNestingDepth - 1 + 1) _ = _
    rw [value, encodeObject, List.cons_append, hopen]
    exact hobject
  rw [parse, String.toList_ofList, hvalue]
  rfl

end StudentStatus.Json
