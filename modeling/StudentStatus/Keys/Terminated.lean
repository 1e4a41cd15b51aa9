import Mathlib.Data.List.Infix
import Mathlib.Order.Lattice
import Mathlib.Tactic.SplitIfs

/-!
# Terminated words

A sequence of words written one after the other, each closed by a stop letter (`terminated`). When
no word contains the stop letter the text determines the words (`terminated_injective`), and one
text starts with another exactly when its words do (`terminated_prefix_iff`): a word that begins
with another one is not confused with it. The words between the stop letters of a text give it back
(`terminated_splitOn`), and they begin another text's words exactly when that text is the same or
goes on with a stop letter (`splitOn_prefix_iff`).
-/

set_option autoImplicit false
set_option relaxedAutoImplicit false

namespace StudentStatus.Keys

variable {α : Type} {stop : α}

/-- The words in order, each followed by the stop letter. -/
def terminated (stop : α) (words : List (List α)) : List α :=
  words.flatMap fun word ↦ word ++ [stop]

@[simp] theorem terminated_nil : terminated stop [] = [] := rfl

theorem terminated_cons (word : List α) (words : List (List α)) :
    terminated stop (word :: words) = word ++ stop :: terminated stop words := by
  simp [terminated]

theorem terminated_append (words others : List (List α)) :
    terminated stop (words ++ others) = terminated stop words ++ terminated stop others :=
  List.flatMap_append

/-- A terminated text ends with the stop letter. -/
theorem getLast?_terminated {words : List (List α)} (h : words ≠ []) :
    (terminated stop words).getLast? = some stop := by
  rw [← List.dropLast_append_getLast h, terminated_append, terminated_cons, terminated_nil,
    List.getLast?_append_of_ne_nil _ (by simp), List.getLast?_concat]

/-- The first stop letter of a text ends its first word. -/
theorem append_stop_prefix_iff {word other rest otherRest : List α} (hword : stop ∉ word)
    (hother : stop ∉ other) :
    word ++ stop :: rest <+: other ++ stop :: otherRest ↔ word = other ∧ rest <+: otherRest := by
  induction word generalizing other with
  | nil =>
    cases other with
    | nil => simp
    | cons letter other =>
      have hne : stop ≠ letter := fun heq ↦ hother (heq ▸ List.mem_cons_self)
      simp [List.cons_prefix_cons, hne]
  | cons letter word ih =>
    cases other with
    | nil =>
      have hne : letter ≠ stop := fun heq ↦ hword (heq ▸ List.mem_cons_self)
      simp [List.cons_prefix_cons, hne]
    | cons letter' other =>
      rw [List.cons_append, List.cons_append, List.cons_prefix_cons,
        ih (List.not_mem_of_not_mem_cons hword) (List.not_mem_of_not_mem_cons hother),
        List.cons.injEq, and_assoc]

/-- The first stop letter splits a text in one way. -/
theorem append_stop_inj {word other rest otherRest : List α} (hword : stop ∉ word)
    (hother : stop ∉ other) (h : word ++ stop :: rest = other ++ stop :: otherRest) :
    word = other ∧ rest = otherRest := by
  have hbegins : word ++ stop :: rest <+: other ++ stop :: otherRest := by rw [h]
  obtain ⟨rfl, -⟩ := (append_stop_prefix_iff hword hother).mp hbegins
  exact ⟨rfl, (List.cons.inj (List.append_cancel_left h)).2⟩

/-- One terminated text starts with another exactly when its words do. -/
theorem terminated_prefix_iff {words others : List (List α)} (hwords : ∀ word ∈ words, stop ∉ word)
    (hothers : ∀ word ∈ others, stop ∉ word) :
    terminated stop words <+: terminated stop others ↔ words <+: others := by
  induction words generalizing others with
  | nil => simp
  | cons word words ih =>
    cases others with
    | nil => simp [terminated_cons]
    | cons other others =>
      rw [terminated_cons, terminated_cons,
        append_stop_prefix_iff (hwords _ List.mem_cons_self) (hothers _ List.mem_cons_self),
        ih (fun w hw ↦ hwords w (List.mem_cons_of_mem _ hw))
          (fun w hw ↦ hothers w (List.mem_cons_of_mem _ hw)), List.cons_prefix_cons]

/-- A terminated text determines its words. -/
theorem terminated_injective {words others : List (List α)} (hwords : ∀ word ∈ words, stop ∉ word)
    (hothers : ∀ word ∈ others, stop ∉ word) (h : terminated stop words = terminated stop others) :
    words = others := by
  have hprefix := (terminated_prefix_iff hwords hothers).mp (h ▸ List.prefix_rfl)
  have hprefix' := (terminated_prefix_iff hothers hwords).mp (h ▸ List.prefix_rfl)
  exact hprefix.eq_of_length_le hprefix'.length_le

/-- Where no letter comes before the stop letter, closed words are ordered as the words are. -/
theorem lt_of_append_stop_lt [LinearOrder α] (hmin : ∀ letter, stop ≤ letter)
    {word other : List α} (h : word ++ [stop] < other ++ [stop]) : word < other := by
  induction word generalizing other with
  | nil =>
    cases other with
    | nil => exact absurd h (List.lt_irrefl _)
    | cons letter other => exact List.nil_lt_cons letter other
  | cons letter word ih =>
    cases other with
    | nil =>
      rw [List.cons_append, List.nil_append, List.cons_lt_cons_iff] at h
      rcases h with hlt | ⟨-, hnil⟩
      · exact absurd hlt (not_lt_of_ge (hmin letter))
      · exact absurd hnil (List.not_lt_nil _)
    | cons letter' other =>
      rw [List.cons_append, List.cons_append, List.cons_lt_cons_iff] at h
      rw [List.cons_lt_cons_iff]
      exact h.imp_right (And.imp_right ih)

/-- A common beginning does not decide the order. -/
theorem lt_of_append_lt [LinearOrder α] (first : List α) {word other : List α}
    (h : first ++ word < first ++ other) : word < other := by
  induction first with
  | nil => exact h
  | cons letter first ih =>
    rw [List.cons_append, List.cons_append, List.cons_lt_cons_iff] at h
    rcases h with hlt | ⟨-, hrest⟩
    · exact absurd hlt (lt_irrefl _)
    · exact ih hrest

/-! ### Splitting -/

section Splitting

variable [BEq α] [LawfulBEq α]

/-- The words between the stop letters of a text, each closed again, are the text and one more stop
letter. -/
theorem terminated_splitOn (text : List α) :
    terminated stop (text.splitOn stop) = text ++ [stop] := by
  induction text with
  | nil => rw [List.splitOn_nil, terminated_cons, terminated_nil]
  | cons letter text ih =>
    rw [List.splitOn_cons_eq_if_modifyHead]
    split_ifs with hstop
    · rw [terminated_cons, ih, eq_of_beq hstop]
      rfl
    · cases hwords : text.splitOn stop with
      | nil => exact absurd hwords (List.splitOn_ne_nil stop text)
      | cons word words =>
        rw [hwords, terminated_cons] at ih
        rw [List.modifyHead_cons, terminated_cons, List.cons_append, ih, List.cons_append]

/-- The words of a text begin another's exactly when the texts are the same or the other goes on
with a stop letter. -/
theorem splitOn_prefix_iff {text other : List α} :
    text.splitOn stop <+: other.splitOn stop ↔ text = other ∨ text ++ [stop] <+: other := by
  constructor
  · rintro ⟨words, hwords⟩
    have hterminated :
        terminated stop (text.splitOn stop) <+: terminated stop (other.splitOn stop) := by
      rw [← hwords, terminated_append]
      exact List.prefix_append _ _
    rw [terminated_splitOn, terminated_splitOn, List.prefix_concat_iff] at hterminated
    exact hterminated.imp_left List.append_cancel_right
  · rintro (rfl | ⟨rest, rfl⟩)
    · exact List.prefix_rfl
    · rw [List.append_assoc, List.singleton_append, List.splitOn_append_cons_self]
      exact List.prefix_append _ _

end Splitting

end StudentStatus.Keys
