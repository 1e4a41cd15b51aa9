import Mathlib.Data.List.Forall2
import Mathlib.Data.List.Infix

/-!
# Sequences of classes

Regular expressions without repetition, grouping and alternatives: a sequence of atoms, each of
which accepts single letters. A text matches a sequence when it is as long and each letter is
accepted by its atom, and a search looks for a match anywhere in the text (`search_iff`).

`parse` reads such a sequence from the text of a JavaScript pattern over UTF-16 code units. A class
in brackets lists the units it accepts, whatever they mean outside of brackets; a dot accepts every
unit but a line terminator; any other unit that has no meaning in patterns stands for itself. What
goes beyond that (escapes, ranges, negated classes, anchors, groups and quantifiers) is not read.
-/

set_option autoImplicit false
set_option relaxedAutoImplicit false

namespace StudentStatus.Regex

/-! ### Matching -/

section Matching

variable {α β : Type} (accepts : β → α → Bool)

/-- Some initial part of the text matches. -/
def matchesHere : List β → List α → Bool
  | [], _ => true
  | _ :: _, [] => false
  | atom :: pattern, letter :: text => accepts atom letter && matchesHere pattern text

/-- Some part of the text matches. -/
def search (pattern : List β) : List α → Bool
  | [] => matchesHere accepts pattern []
  | letter :: text => matchesHere accepts pattern (letter :: text) || search pattern text

/-- Every letter is accepted by its atom. -/
def Matches (pattern : List β) (found : List α) : Prop :=
  List.Forall₂ (fun atom letter ↦ accepts atom letter = true) pattern found

variable {accepts}

theorem matchesHere_iff {pattern : List β} {text : List α} :
    matchesHere accepts pattern text = true ↔
      ∃ found after, text = found ++ after ∧ Matches accepts pattern found := by
  induction pattern generalizing text with
  | nil => exact ⟨fun _ ↦ ⟨[], text, rfl, .nil⟩, fun _ ↦ by rw [matchesHere]⟩
  | cons atom pattern ih =>
    cases text with
    | nil =>
      constructor
      · intro h
        cases h
      · rintro ⟨found, after, heq, hmatches⟩
        rw [(List.append_eq_nil_iff.mp heq.symm).1] at hmatches
        cases hmatches
    | cons letter text =>
      rw [matchesHere, Bool.and_eq_true, ih]
      constructor
      · rintro ⟨hatom, found, after, rfl, hmatches⟩
        exact ⟨letter :: found, after, rfl, .cons hatom hmatches⟩
      · rintro ⟨found, after, heq, hmatches⟩
        cases hmatches with
        | cons hatom hmatches =>
          obtain ⟨rfl, rfl⟩ := List.cons.inj heq
          exact ⟨hatom, _, after, rfl, hmatches⟩

/-- A search succeeds exactly when some part of the text matches. -/
theorem search_iff {pattern : List β} {text : List α} :
    search accepts pattern text = true ↔
      ∃ before found after, text = before ++ (found ++ after) ∧ Matches accepts pattern found := by
  induction text with
  | nil =>
    rw [search, matchesHere_iff]
    constructor
    · rintro ⟨found, after, heq, hmatches⟩
      exact ⟨[], found, after, heq, hmatches⟩
    · rintro ⟨before, found, after, heq, hmatches⟩
      exact ⟨found, after, (List.append_eq_nil_iff.mp heq.symm).2.symm, hmatches⟩
  | cons letter text ih =>
    rw [search, Bool.or_eq_true, matchesHere_iff, ih]
    constructor
    · rintro (⟨found, after, heq, hmatches⟩ | ⟨before, found, after, rfl, hmatches⟩)
      · exact ⟨[], found, after, heq, hmatches⟩
      · exact ⟨letter :: before, found, after, rfl, hmatches⟩
    · rintro ⟨before, found, after, heq, hmatches⟩
      cases before with
      | nil => exact Or.inl ⟨found, after, heq, hmatches⟩
      | cons _ before =>
        obtain ⟨rfl, rfl⟩ := List.cons.inj heq
        exact Or.inr ⟨before, found, after, rfl, hmatches⟩

theorem matches_cons_iff {atom : β} {pattern : List β} {found : List α} :
    Matches accepts (atom :: pattern) found ↔ ∃ letter rest, found = letter :: rest ∧
      accepts atom letter = true ∧ Matches accepts pattern rest := by
  unfold Matches
  rw [List.forall₂_cons_left_iff]
  constructor
  · rintro ⟨letter, rest, hatom, hmatches, heq⟩
    exact ⟨letter, rest, heq, hatom, hmatches⟩
  · rintro ⟨letter, rest, heq, hatom, hmatches⟩
    exact ⟨letter, rest, hatom, hmatches, heq⟩

/-- A sequence of atoms that accept one letter each matches the text of these letters only. -/
theorem matches_map_iff {atomOf : α → β}
    (hatom : ∀ letter other, accepts (atomOf letter) other = true ↔ letter = other)
    {letters found : List α} :
    Matches accepts (letters.map atomOf) found ↔ letters = found := by
  unfold Matches
  simp [List.forall₂_map_left_iff, hatom, List.forall₂_eq_eq_eq]

end Matching

/-! ### JavaScript patterns -/

/-- An atom of a pattern over UTF-16 code units. -/
inductive Atom : Type
  | unit (u : UInt16)
  | any
  | oneOf (set : List UInt16)
  deriving DecidableEq

/-- Line feed, carriage return, line separator and paragraph separator. -/
def isLineTerminator (u : UInt16) : Bool := u = 0x0A || u = 0x0D || u = 0x2028 || u = 0x2029

def Atom.accepts : Atom → UInt16 → Bool
  | .unit u, v => u = v
  | .any, v => !isLineTerminator v
  | .oneOf set, v => set.contains v

/-- The units that have a meaning in a pattern, other than the dot and the opening bracket. -/
def syntaxUnits : List UInt16 :=
  "^$\\*+?()]\x7b\x7d|".toList.map fun c ↦ c.toNat.toUInt16

/-- Read a pattern, from inside a class whose units so far are given, or from outside. -/
def parse : Option (List UInt16) → List UInt16 → Option (List Atom)
  | none, [] => some []
  | some _, [] => none
  | none, u :: rest =>
    -- `.` and `[`, where `[^` would negate the class
    if u = 0x2E then (parse none rest).map (.any :: ·)
    else if u = 0x5B then if rest.head? = some 0x5E then none else parse (some []) rest
    else if syntaxUnits.contains u then none
    else (parse none rest).map (.unit u :: ·)
  | some set, u :: rest =>
    -- `]`, and `\` or `-`, which do not stand for themselves
    if u = 0x5D then (parse none rest).map (.oneOf set.reverse :: ·)
    else if u = 0x5C ∨ u = 0x2D then none
    else parse (some (u :: set)) rest

/-- `text.match(pattern)` is not null; `none` for a pattern that is not read. -/
def isMatch (text pattern : List UInt16) : Option Bool :=
  (parse none pattern).map fun atoms ↦ search Atom.accepts atoms text

end StudentStatus.Regex
