import StudentStatus.Chaincode.Stub
import StudentStatus.Keys.Terminated

/-!
# Composite keys

A composite key is a terminated sequence of its object type and attributes after a first U+0000.
Parts that the stub accepts hold no U+0000, so a key determines its parts (`compositeKey_inj`) and
extends the keys of the initial sequences of its parts only (`extendsKey_compositeKey_iff`).
-/

set_option autoImplicit false
set_option relaxedAutoImplicit false

namespace StudentStatus.Chaincode

open Keys

theorem toList_injective : Function.Injective String.toList := fun _ _ ↦ String.toList_inj.mp

theorem compositeKey_eq (objectType : String) (attributes : List String) :
    (compositeKey objectType attributes).toList = minUnicodeRune ::
      terminated minUnicodeRune ((objectType :: attributes).map String.toList) := by
  rw [compositeKey, String.toList_ofList, terminated, List.flatMap_map]

theorem compositeKey_ne_empty (objectType : String) (attributes : List String) :
    compositeKey objectType attributes ≠ "" := by
  intro h
  have hlist := congrArg String.toList h
  rw [compositeKey_eq] at hlist
  exact absurd hlist (List.cons_ne_nil _ _)

/-- A composite key ends with the separator. -/
theorem getLast?_compositeKey (objectType : String) (attributes : List String) :
    (compositeKey objectType attributes).toList.getLast? = some minUnicodeRune := by
  rw [compositeKey_eq, List.getLast?_cons, getLast?_terminated (by simp), Option.getD_some]

/-- An accepted part holds no separator. -/
theorem separator_not_mem {parts : List String} (h : parts.all isCompositeKeyPart) :
    ∀ word ∈ parts.map String.toList, minUnicodeRune ∉ word := by
  intro word hword hmem
  obtain ⟨part, hpart, rfl⟩ := List.mem_map.mp hword
  have hchar := List.all_eq_true.mp (List.all_eq_true.mp h part hpart) _ hmem
  simp at hchar

section Parts

variable {objectType objectType' : String} {attributes attributes' : List String}
  (hparts : (objectType :: attributes).all isCompositeKeyPart)
  (hparts' : (objectType' :: attributes').all isCompositeKeyPart)

include hparts hparts'

/-- A composite key extends another when its parts do. -/
theorem extendsKey_compositeKey_iff :
    extendsKey (compositeKey objectType attributes) (compositeKey objectType' attributes') ↔
      objectType :: attributes <+: objectType' :: attributes' := by
  rw [extendsKey, List.isPrefixOf_iff_prefix, compositeKey_eq, compositeKey_eq,
    List.cons_prefix_cons, terminated_prefix_iff (separator_not_mem hparts)
      (separator_not_mem hparts'),
    List.prefix_map_iff_of_injective toList_injective]
  simp

/-- A composite key determines its parts. -/
theorem compositeKey_inj (h : compositeKey objectType attributes =
    compositeKey objectType' attributes') :
    objectType = objectType' ∧ attributes = attributes' := by
  have hlist := congrArg String.toList h
  rw [compositeKey_eq, compositeKey_eq] at hlist
  have hwords := terminated_injective (separator_not_mem hparts) (separator_not_mem hparts')
    (List.cons.inj hlist).2
  exact List.cons.inj (List.map_injective_iff.mpr toList_injective hwords)

end Parts

namespace Stub.Lawful

variable {stub : Stub} (hstub : stub.Lawful)

include hstub

/-- When the stub makes a composite key. -/
theorem createCompositeKey_eq_ok_iff {objectType : String} {attributes : List String}
    {key : String} : stub.createCompositeKey objectType attributes = .ok key ↔
      (objectType :: attributes).all isCompositeKeyPart ∧
        key = compositeKey objectType attributes := by
  by_cases h : (objectType :: attributes).all isCompositeKeyPart
  · rw [hstub.createCompositeKey_ok _ _ h, Except.ok.injEq]
    exact ⟨fun heq ↦ ⟨h, heq.symm⟩, fun heq ↦ heq.2.symm⟩
  · obtain ⟨err, herr⟩ := hstub.createCompositeKey_error _ _ h
    simp only [herr, reduceCtorEq, h, false_and]

/-- A key that does not begin with U+0000, such as an identity number, is no composite key. -/
theorem createCompositeKey_ne {key : String} (h : key.toList.head? ≠ some minUnicodeRune)
    (objectType : String) (attributes : List String) :
    stub.createCompositeKey objectType attributes ≠ .ok key := by
  intro hkey
  rw [(hstub.createCompositeKey_eq_ok_iff.mp hkey).2, compositeKey_eq] at h
  exact h rfl

/-- Two keys that the stub makes are equal only when their parts are. -/
theorem createCompositeKey_inj {objectType objectType' : String}
    {attributes attributes' : List String} {key : String}
    (h : stub.createCompositeKey objectType attributes = .ok key)
    (h' : stub.createCompositeKey objectType' attributes' = .ok key) :
    objectType = objectType' ∧ attributes = attributes' := by
  obtain ⟨hparts, hkey⟩ := hstub.createCompositeKey_eq_ok_iff.mp h
  obtain ⟨hparts', hkey'⟩ := hstub.createCompositeKey_eq_ok_iff.mp h'
  exact compositeKey_inj hparts hparts' (hkey.symm.trans hkey')

end Stub.Lawful

end StudentStatus.Chaincode
