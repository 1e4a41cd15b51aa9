import StudentStatus.Chaincode.WriteIsolation

/-!
# Permanence of a registration

Nothing deletes a record. Once a student is created under an ID that does not begin with U+0000, the
key of that ID holds a student record in every later ledger: `CreateStudent` rejects the ID from
then on, grades go to other keys, and `UpdateStudent` keeps the id and the creation date and changes
the school only if it gives one. The school is therefore the last one that an update gave, or the
one of the creation (`registration_permanent`).
-/

set_option autoImplicit false
set_option relaxedAutoImplicit false

namespace StudentStatus.Chaincode

open Interaction Optimistic Json

/-- The school that a transaction gives for the student, if it is an update that gives one. -/
def givenSchool (studentID : String) (tx : Transaction) : Option String :=
  match tx.command with
  | .updateStudent id studentUpdateJSON =>
    if id = studentID then
      ((unmarshal studentUpdateJSON : Except DecodeError Student).toOption.map
        Student.school).filter fun school ↦ school ≠ ""
    else none
  | _ => none

/-- The operation creates or updates the student with this ID. -/
def Invocation.WritesStudent (studentID : String) : Invocation → Prop
  | .command (.createStudent studentJSON) =>
    ∃ student : Student, unmarshal studentJSON = .ok student ∧ student.id = studentID
  | .command (.updateStudent id _) => id = studentID
  | _ => False

/-- The key holds a record of the registration: the student's, with this creation date and
school. -/
def HoldsRegistration (ledger : Ledger) (studentID creationDate school : String) : Prop :=
  ∃ record, HoldsStudent ledger studentID record ∧ record.id = studentID ∧
    record.creationDate = creationDate ∧ record.school = school

/-- A ledger on which the key holds a student record has a value there. -/
theorem HoldsRegistration.value_ne_none {ledger : Ledger} {studentID creationDate school : String}
    (h : HoldsRegistration ledger studentID creationDate school) :
    ledger.value studentID ≠ none := by
  obtain ⟨record, hholds, -⟩ := h
  rw [hholds]
  exact Option.some_ne_none _

theorem HoldsStudent.storedStudent_eq {ledger : Ledger} {key : String} {student : Student}
    (h : HoldsStudent ledger key student) : storedStudent ledger key = .ok student :=
  (storedStudent_eq_ok_iff ledger).mpr ⟨_, h, unmarshal_marshal student⟩

/-- A write to another key keeps the registration. -/
theorem HoldsRegistration.cons_of_ne {ledger : Ledger} {studentID creationDate school : String}
    (h : HoldsRegistration ledger studentID creationDate school) {key : String}
    (hne : key ≠ studentID) (text : String) :
    HoldsRegistration ([(key, text)] :: ledger) studentID creationDate school := by
  obtain ⟨record, hholds, hrecord⟩ := h
  refine ⟨record, ?_, hrecord⟩
  rw [HoldsStudent, Chain.value_cons_singleton, if_neg hne]
  exact hholds

/-- A successful update of a stored student keeps the registration, with the school that it gives
if it gives one. -/
theorem HoldsRegistration.update {ctx : Context} {ledger : Ledger}
    {studentID creationDate school : String}
    (h : HoldsRegistration ledger studentID creationDate school) {text : String}
    {existOne student : Student}
    (accepts : UpdateAccepts ctx ledger studentID text existOne student) :
    HoldsRegistration ([(studentID, marshal (updatedStudent existOne student))] :: ledger) studentID
      creationDate (if student.school ≠ "" then student.school else school) := by
  obtain ⟨record, hholds, hid, hdate, hschool⟩ := h
  cases Except.ok.inj (hholds.storedStudent_eq.symm.trans accepts.stored)
  refine ⟨updatedStudent existOne student, ?_, hid, hdate, ?_⟩
  · rw [HoldsStudent, Chain.value_cons_singleton, if_pos rfl]
  · rw [← hschool]
    rfl

/-- An update of the student gives the school that it decodes to, unless that is empty. -/
theorem givenSchool_update {client : ClientIdentity} {now : Time} {studentID text : String}
    {student : Student} (hdecoded : unmarshal text = .ok student) :
    givenSchool studentID ⟨client, now, .updateStudent studentID text⟩ =
      if student.school ≠ "" then some student.school else none := by
  by_cases hschool : student.school = "" <;>
    simp [givenSchool, hdecoded, Except.toOption, hschool, Option.filter]

variable {stub : Stub}

/-- One successful transaction keeps the registration. -/
theorem Effect.holdsRegistration (hstub : stub.Lawful) {tx : Transaction} {older : Ledger}
    {read key text : String}
    (heffect : Effect (tx.context stub) older tx.command read key text) {studentID : String}
    (hID : studentID.toList.head? ≠ some minUnicodeRune) {creationDate school : String}
    (h : HoldsRegistration older studentID creationDate school) :
    HoldsRegistration ([(key, text)] :: older) studentID creationDate
      ((givenSchool studentID tx).getD school) := by
  obtain ⟨client, now, command⟩ := tx
  cases heffect with
  | @create _ student accepts =>
    have hne : student.id ≠ studentID := by
      rintro rfl
      exact h.value_ne_none accepts.fresh
    exact h.cons_of_ne hne _
  | @update _ _ existOne student accepts =>
    by_cases hupdated : read = studentID
    · subst hupdated
      have hkept := h.update accepts
      rw [givenSchool_update accepts.decoded]
      split_ifs at hkept ⊢ <;> exact hkept
    · have hnone (text : String) :
          givenSchool studentID ⟨client, now, .updateStudent read text⟩ = none :=
        if_neg hupdated
      rw [hnone]
      exact h.cons_of_ne hupdated _
  | @grade _ _ _ _ key accepts =>
    have hne : key ≠ studentID := by
      rintro rfl
      exact hstub.createCompositeKey_ne hID _ _ accepts.composed
    exact h.cons_of_ne hne _

/-- A registration that has happened is kept by every later successful transaction. -/
theorem HoldsRegistration.later (hstub : stub.Lawful) {studentID : String}
    (hID : studentID.toList.head? ≠ some minUnicodeRune) {creationDate school : String}
    {created : List Transaction} (hcreated : ∀ older, Reaches stub created older →
      HoldsRegistration older studentID creationDate school)
    (later : List Transaction) {ledger : Ledger} (h : Reaches stub (later ++ created) ledger) :
    HoldsRegistration ledger studentID creationDate
      ((later.findSome? (givenSchool studentID)).getD school) := by
  induction later generalizing ledger with
  | nil => exact hcreated ledger h
  | cons tx later ih =>
    obtain ⟨older, read, key, text, holder, heffect, rfl⟩ := reaches_cons_iff.mp h
    have hkept := heffect.holdsRegistration hstub hID (ih holder)
    rw [List.findSome?_cons]
    cases hgiven : givenSchool studentID tx with
    | none => simpa [hgiven] using hkept
    | some given => simpa [hgiven] using hkept

/-- No operation but the creation and the update of a student changes its key. -/
theorem value_endorse_of_not_writesStudent (hstub : stub.Lawful) {studentID : String}
    (hID : studentID.toList.head? ≠ some minUnicodeRune) (client : ClientIdentity) (now : Time)
    (ledger : Ledger) {invocation : Invocation} (hother : ¬ invocation.WritesStudent studentID) :
    Chain.value ((endorse ⟨stub, client, now⟩ ledger invocation).writes :: ledger) studentID =
      ledger.value studentID := by
  cases invocation with
  | query query =>
    rw [writes_endorse_query, Chain.value_cons]
    rfl
  | command command =>
    rcases endorse_command_cases ⟨stub, client, now⟩ ledger command with
      ⟨read, key, text, heffect, hendorse⟩ | ⟨-, err, hendorse⟩
    · have hne : key ≠ studentID := by
        rintro rfl
        cases heffect with
        | create accepts => exact hother ⟨_, accepts.decoded, rfl⟩
        | update accepts => exact hother rfl
        | grade accepts => exact hstub.createCompositeKey_ne hID _ _ accepts.composed
      rw [hendorse, Chain.value_cons_singleton, if_neg hne]
    · rw [hendorse, Chain.value_cons]
      rfl

/-- A payload with the ID of a stored record is rejected. -/
theorem endorse_createStudent_of_isSome (ctx : Context) {ledger : Ledger} {studentJSON : String}
    {student : Student} (hdecoded : unmarshal studentJSON = .ok student)
    (hvalue : ledger.value student.id ≠ none) :
    ∃ err, endorse ctx ledger (.command (.createStudent studentJSON)) = ⟨.error err, []⟩ := by
  rcases endorse_command_cases ctx ledger (.createStudent studentJSON) with
    ⟨read, key, text, heffect, -⟩ | ⟨-, hrejected⟩
  · obtain ⟨student', accepts, -⟩ := heffect.of_createStudent
    cases Except.ok.inj (hdecoded.symm.trans accepts.decoded)
    exact absurd accepts.fresh hvalue
  · exact hrejected

/-- After a student was created, in every later ledger of the run: its key holds a student record
with its id, the creation date of that creation and the last school that was given since then, or
else the one assigned at the creation; the ID cannot be created again; and only an update of the
student changes the key. -/
theorem registration_permanent (hstub : stub.Lawful) {studentID : String}
    (hID : studentID.toList.head? ≠ some minUnicodeRune) {client : ClientIdentity} {now : Time}
    {studentJSON : String} {student : Student} (hdecoded : unmarshal studentJSON = .ok student)
    (hstudent : student.id = studentID) {later earlier : List Transaction} {ledger : Ledger}
    (h : Reaches stub (later ++ ⟨client, now, .createStudent studentJSON⟩ :: earlier) ledger) :
    HoldsRegistration ledger studentID now.format
        ((later.findSome? (givenSchool studentID)).getD
          (createdStudent ⟨stub, client, now⟩ student).school) ∧
      (∀ ctx again (student' : Student), unmarshal again = .ok student' →
        student'.id = studentID →
        ∃ err, endorse ctx ledger (.command (.createStudent again)) = ⟨.error err, []⟩) ∧
      ∀ client' now' invocation, ¬ invocation.WritesStudent studentID →
        Chain.value ((endorse ⟨stub, client', now'⟩ ledger invocation).writes :: ledger) studentID =
          ledger.value studentID := by
  subst hstudent
  have hcreated : ∀ older,
      Reaches stub (⟨client, now, .createStudent studentJSON⟩ :: earlier) older →
      HoldsRegistration older student.id now.format
        (createdStudent ⟨stub, client, now⟩ student).school := by
    intro older holder
    obtain ⟨oldest, read, key, text, -, heffect, rfl⟩ := reaches_cons_iff.mp holder
    obtain ⟨student', accepts, -, rfl, rfl⟩ := heffect.of_createStudent
    cases Except.ok.inj (hdecoded.symm.trans accepts.decoded)
    refine ⟨createdStudent ⟨stub, client, now⟩ student, ?_, rfl, rfl, rfl⟩
    rw [HoldsStudent, Chain.value_cons_singleton, if_pos rfl]
    rfl
  have hholds := HoldsRegistration.later hstub hID hcreated later h
  refine ⟨hholds, fun ctx again student' hagain hid ↦ ?_,
    fun client' now' invocation ↦ value_endorse_of_not_writesStudent hstub hID client' now' ledger⟩
  exact endorse_createStudent_of_isSome ctx hagain (hid ▸ hholds.value_ne_none)

/-- The sample student, moved to the second school. -/
def relocated : Student := ⟨"s1", "Ada", 2023, "Mathematics", "School2MSP", false, noon.format⟩

/-- The update that moves the student. -/
def relocation : Transaction := ⟨school1Manager, noon, .updateStudent "s1" (marshal relocated)⟩

theorem reaches_relocation : Reaches fabricStub [relocation, enrolment]
    [[("s1", marshal relocated)], [("s1", marshal ada)]] := by
  have accepts : UpdateAccepts (relocation.context fabricStub) [[("s1", marshal ada)]] "s1"
      (marshal relocated) ada relocated :=
    { manager := isManager_school1Manager
      stored := storedStudent_ada
      decoded := unmarshal_marshal relocated
      keyed := by decide }
  have hupdated : updatedStudent ada relocated = relocated := rfl
  have heffect := Effect.update accepts
  rw [hupdated] at heffect
  exact reaches_enrolment.cons heffect

theorem givenSchool_relocation : givenSchool "s1" relocation = some "School2MSP" :=
  (givenSchool_update (unmarshal_marshal relocated)).trans (if_pos (by decide))

theorem registration_permanent_relocation :
    HoldsRegistration [[("s1", marshal relocated)], [("s1", marshal ada)]] "s1" noon.format
      "School2MSP" := by
  have hrun : Reaches fabricStub
      ([relocation] ++ ⟨school1Manager, noon, .createStudent (marshal ada)⟩ :: [])
      [[("s1", marshal relocated)], [("s1", marshal ada)]] := reaches_relocation
  have hID : "s1".toList.head? ≠ some minUnicodeRune := by decide
  have hstudent : ada.id = "s1" := rfl
  have hkept :=
    (registration_permanent fabricStub_lawful hID (unmarshal_marshal ada) hstudent hrun).1
  rw [List.findSome?_singleton, givenSchool_relocation, Option.getD_some] at hkept
  exact hkept

end StudentStatus.Chaincode
