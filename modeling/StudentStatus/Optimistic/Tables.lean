import StudentStatus.Optimistic.Chain

/-!
# Tables in one key space

A table keeps, for each index, the entries that were put there, latest first. A chain keeps a table
when the key at which an index is placed has just these entries as its history, encoded. Several
tables share a chain: a commit at the place of an index is an entry of its table (`Keeps.put`) and
leaves every table alone that places no index there (`Keeps.frame`).
-/

set_option autoImplicit false
set_option relaxedAutoImplicit false

namespace StudentStatus.Optimistic

variable {I A : Type}

/-- A table with one more entry at an index. -/
def put [DecidableEq I] (table : I → List A) (index : I) (entry : A) : I → List A :=
  Function.update table index (entry :: table index)

section Put

variable [DecidableEq I] (table : I → List A) (index : I) (entry : A)

@[simp] theorem put_self : put table index entry index = entry :: table index :=
  Function.update_self _ _ _

theorem put_of_ne {other : I} (h : other ≠ index) : put table index entry other = table other :=
  Function.update_of_ne h _ _

end Put

variable {K V : Type} [DecidableEq K]

/-- The chain holds the entries of every index at the place of the index. -/
def Keeps (place : I → K) (encode : I → A → V) (chain : Chain K V) (table : I → List A) : Prop :=
  ∀ index, chain.history (place index) = (table index).map (encode index)

namespace Keeps

variable {place : I → K} {encode : I → A → V} {chain : Chain K V} {table : I → List A}

theorem nil : Keeps place encode ([] : Chain K V) fun _ ↦ [] := fun _ ↦ rfl

/-- The value at the place of an index is its latest entry. -/
theorem value_eq (h : Keeps place encode chain table) (index : I) :
    chain.value (place index) = (table index).head?.map (encode index) := by
  rw [Chain.value, h index, List.head?_map]

theorem value_eq_none_iff (h : Keeps place encode chain table) {index : I} :
    chain.value (place index) = none ↔ table index = [] := by
  rw [h.value_eq, Option.map_eq_none_iff, List.head?_eq_none_iff]

/-- A commit of an entry at the place of its index. -/
theorem put [DecidableEq I] (h : Keeps place encode chain table)
    (hplace : Function.Injective place) (index : I) (entry : A) :
    Keeps place encode ([(place index, encode index entry)] :: chain)
      (put table index entry) := by
  intro other
  rw [Chain.history_cons_singleton]
  by_cases heq : other = index
  · subst heq
    rw [if_pos rfl, put_self, List.map_cons, h other]
  · rw [if_neg fun hkey ↦ heq (hplace hkey).symm, put_of_ne _ _ _ heq]
    exact h other

/-- A commit at a key where the table places nothing. -/
theorem frame (h : Keeps place encode chain table) {key : K} (hkey : ∀ index, place index ≠ key)
    (stored : V) : Keeps place encode ([(key, stored)] :: chain) table := by
  intro index
  rw [Chain.history_cons_singleton, if_neg fun heq ↦ hkey index heq.symm]
  exact h index

end Keeps

end StudentStatus.Optimistic
