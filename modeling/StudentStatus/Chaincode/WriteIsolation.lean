import StudentStatus.Chaincode.CompositeKeys
import StudentStatus.Chaincode.RecordInvariant

/-!
# Write isolation between schools

What a client of a school may write: no operation should change the record of another school's
student, file a grade for one, or leave a record with another school (`WritesIsolated`).
`CreateStudent` sets the client's MSP itself and `CreateStudentGrade` asks `QueryStudent`, which
looks at the school; `UpdateStudent` asks for a manager only, of whatever school. `StaysInSchool` is
when an operation respects the boundary all the same, and `writesIsolated_iff` shows that it does
exactly then.
-/

set_option autoImplicit false
set_option relaxedAutoImplicit false

namespace StudentStatus.Chaincode

open Interaction Optimistic Json

/-- A student record is stored under the key. -/
def HoldsStudent (ledger : Ledger) (key : String) (student : Student) : Prop :=
  ledger.value key = some (marshal student)

/-- The student ID that an operation is about. -/
def Invocation.addressed : Invocation → Option String
  | .command (.createStudent studentJSON) =>
    (unmarshal studentJSON : Except DecodeError Student).toOption.map Student.id
  | .command (.updateStudent studentID _) => some studentID
  | .command (.createStudentGrade studentID _) => some studentID
  | .query .initLedger => none
  | .query (.studentExists studentID) => some studentID
  | .query (.queryStudent studentID) => some studentID
  | .query (.queryAllStudents _ _) => none
  | .query (.queryStudentGrades studentId) => some studentId

/-- Writes that leave the students of other schools than `msp` alone. -/
structure LeavesOthers (stub : Stub) (msp : String) (ledger : Ledger)
    (writes : List (String × String)) : Prop where
  /-- The record of another school's student is unchanged. -/
  unchanged : ∀ key student, HoldsStudent ledger key student → student.school ≠ msp →
    HoldsStudent (writes :: ledger) key student
  /-- No grade is filed for another school's student. -/
  ungraded : ∀ studentID student, HoldsStudent ledger studentID student → student.school ≠ msp →
    ∀ school key (grade : StudentGrade),
      stub.createCompositeKey compositeKeyStudentGrade [studentID, school] = .ok key →
      (key, marshal grade) ∉ writes
  /-- A student record that is written has the school `msp`. -/
  ownSchool : ∀ key (student : Student), (key, marshal student) ∈ writes → student.school = msp

/-- The operation, if it succeeds, leaves the students of other schools than the client's alone. -/
def WritesIsolated (ctx : Context) (ledger : Ledger) (invocation : Invocation) : Prop :=
  ∀ response, (endorse ctx ledger invocation).response = .ok response →
    LeavesOthers ctx.stub ctx.client.mspID ledger (endorse ctx ledger invocation).writes

/-- The operation respects the school boundary: an update that is accepted finds no record of
another school and leaves the client's, and an accepted grade is not filed over the record of a
student of another school. -/
def StaysInSchool (ctx : Context) (ledger : Ledger) : Invocation → Prop
  | .command (.updateStudent studentID studentUpdateJSON) => ∀ existOne student,
    UpdateAccepts ctx ledger studentID studentUpdateJSON existOne student →
    (∀ stored, HoldsStudent ledger studentID stored → stored.school = ctx.client.mspID) ∧
      (if student.school ≠ "" then student.school else existOne.school) = ctx.client.mspID
  | .command (.createStudentGrade studentID gradeJSON) => ∀ student grade key,
    GradeAccepts ctx ledger studentID gradeJSON student grade key →
    ∀ stored, HoldsStudent ledger key stored → stored.school = ctx.client.mspID
  | _ => True

variable {ctx : Context} {ledger : Ledger}

theorem leavesOthers_nil (stub : Stub) (msp : String) (ledger : Ledger) :
    LeavesOthers stub msp ledger [] where
  unchanged _ _ hholds _ := hholds
  ungraded _ _ _ _ _ _ _ _ := List.not_mem_nil
  ownSchool _ _ hmem := by cases hmem

/-- A student record leaves the others alone when it has the own school and replaces no record of
another school. -/
theorem leavesOthers_student_iff {stub : Stub} {msp : String} {key : String} {written : Student} :
    LeavesOthers stub msp ledger [(key, marshal written)] ↔
      (∀ stored, HoldsStudent ledger key stored → stored.school = msp) ∧ written.school = msp := by
  constructor
  · intro h
    have hown := h.ownSchool key written (List.mem_singleton_self _)
    refine ⟨fun stored hholds ↦ by_contra fun hforeign ↦ ?_, hown⟩
    have hkept := h.unchanged key stored hholds hforeign
    rw [HoldsStudent, Chain.value_cons_singleton, if_pos rfl, Option.some.injEq] at hkept
    rw [marshal_injective hkept] at hown
    exact hforeign hown
  · rintro ⟨hstored, hown⟩
    refine ⟨fun other stored hholds hforeign ↦ ?_, ?_, ?_⟩
    · have hne : key ≠ other := by
        rintro rfl
        exact hforeign (hstored stored hholds)
      rw [HoldsStudent, Chain.value_cons_singleton, if_neg hne]
      exact hholds
    · intro studentID student _ _ school other grade _ hmem
      obtain ⟨-, htext⟩ := Prod.mk.inj (List.mem_singleton.mp hmem)
      exact marshal_student_ne_marshal_grade written grade htext.symm
    · intro other student hmem
      obtain ⟨-, htext⟩ := Prod.mk.inj (List.mem_singleton.mp hmem)
      rwa [marshal_injective htext]

/-- A grade leaves the others alone when it is not a foreign student's and is not filed over the
record of one. -/
theorem leavesOthers_grade_iff {stub : Stub} {msp : String} {key : String} {grade : StudentGrade}
    (hungraded : ∀ studentID student school, HoldsStudent ledger studentID student →
      stub.createCompositeKey compositeKeyStudentGrade [studentID, school] = .ok key →
      student.school = msp) :
    LeavesOthers stub msp ledger [(key, marshal grade)] ↔
      ∀ stored, HoldsStudent ledger key stored → stored.school = msp := by
  constructor
  · intro h stored hholds
    by_contra hforeign
    have hkept := h.unchanged key stored hholds hforeign
    rw [HoldsStudent, Chain.value_cons_singleton, if_pos rfl, Option.some.injEq] at hkept
    exact marshal_student_ne_marshal_grade stored grade hkept.symm
  · intro hstored
    refine ⟨fun other stored hholds hforeign ↦ ?_, ?_, ?_⟩
    · have hne : key ≠ other := by
        rintro rfl
        exact hforeign (hstored stored hholds)
      rw [HoldsStudent, Chain.value_cons_singleton, if_neg hne]
      exact hholds
    · intro studentID student hholds hforeign school other filed hkey hmem
      obtain ⟨rfl, -⟩ := Prod.mk.inj (List.mem_singleton.mp hmem)
      exact hforeign (hungraded studentID student school hholds hkey)
    · intro other student hmem
      obtain ⟨-, htext⟩ := Prod.mk.inj (List.mem_singleton.mp hmem)
      exact absurd htext (marshal_student_ne_marshal_grade student grade)

theorem writesIsolated_of_error {invocation : Invocation} {abort : Abort}
    {writes : List (String × String)} (h : endorse ctx ledger invocation = ⟨.error abort, writes⟩) :
    WritesIsolated ctx ledger invocation := by
  intro response hok
  rw [h] at hok
  cases hok

theorem writesIsolated_iff_of_ok {invocation : Invocation} {response : Response}
    {writes : List (String × String)} (h : endorse ctx ledger invocation = ⟨.ok response, writes⟩) :
    WritesIsolated ctx ledger invocation ↔
      LeavesOthers ctx.stub ctx.client.mspID ledger writes := by
  unfold WritesIsolated
  rw [h]
  exact ⟨fun hisolated ↦ hisolated response rfl, fun hleaves _ _ ↦ hleaves⟩

/-! ### The operations -/

section Operations

variable (hschool : ctx.client.mspID ≠ educationBureauMSP)

include hschool

/-- `CreateStudent` respects the boundary: the ID is new and the school is the client's. -/
theorem CreateAccepts.leavesOthers {studentJSON : String} {student : Student}
    (accepts : CreateAccepts ctx ledger studentJSON student) :
    LeavesOthers ctx.stub ctx.client.mspID ledger
      [(student.id, marshal (createdStudent ctx student))] := by
  refine leavesOthers_student_iff.mpr ⟨fun stored hholds ↦ ?_, if_pos hschool⟩
  rw [HoldsStudent, accepts.fresh] at hholds
  cases hholds

/-- A grade that is accepted is one of a student of the client's school. -/
theorem GradeAccepts.leavesOthers_iff (hstub : ctx.stub.Lawful) (hwell : WellFormed ledger)
    {studentID gradeJSON : String} {student : Student} {grade : StudentGrade} {key : String}
    (accepts : GradeAccepts ctx ledger studentID gradeJSON student grade key)
    (hother : ctx.client.id ≠ studentID) :
    LeavesOthers ctx.stub ctx.client.mspID ledger [(key, marshal (createdGrade ctx grade key))] ↔
      ∀ stored, HoldsStudent ledger key stored → stored.school = ctx.client.mspID := by
  refine leavesOthers_grade_iff fun otherID stored school hholds hkey ↦ ?_
  obtain ⟨-, hattributes⟩ := hstub.createCompositeKey_inj accepts.composed hkey
  obtain ⟨hid, -⟩ := List.cons.inj hattributes
  rw [hwell.id_of_stored accepts.stored] at hid
  have hstored : storedStudent ledger studentID = .ok stored :=
    (storedStudent_eq_ok_iff ledger).mpr ⟨_, hid ▸ hholds, unmarshal_marshal stored⟩
  cases Except.ok.inj (hstored.symm.trans accepts.stored)
  have hvisible := (accepts.visible.resolve_left hother).resolve_left hschool
  exact hvisible.symm

end Operations

/-- On a reachable ledger an operation by a client of a school, about another ID than the client's,
leaves the students of other schools alone exactly when it respects the school boundary. -/
theorem writesIsolated_iff {stub : Stub} (hstub : stub.Lawful) (h : Reachable stub ledger)
    {client : ClientIdentity} (hschool : client.mspID ≠ educationBureauMSP) (now : Time)
    {invocation : Invocation} (hother : invocation.addressed ≠ some client.id) :
    WritesIsolated ⟨stub, client, now⟩ ledger invocation ↔
      StaysInSchool ⟨stub, client, now⟩ ledger invocation := by
  cases invocation with
  | query query =>
    refine iff_of_true (fun response _ ↦ ?_) trivial
    rw [writes_endorse_query]
    exact leavesOthers_nil _ _ _
  | command command =>
    rcases endorse_command_cases ⟨stub, client, now⟩ ledger command with
      ⟨read, key, text, heffect, hendorse⟩ | ⟨hno, abort, hendorse⟩
    · rw [writesIsolated_iff_of_ok hendorse]
      cases heffect with
      | create accepts => exact iff_of_true (accepts.leavesOthers hschool) trivial
      | @update _ studentUpdateJSON existOne student accepts =>
        rw [leavesOthers_student_iff]
        constructor
        · intro hleaves existOne' student' accepts'
          cases Except.ok.inj (accepts.stored.symm.trans accepts'.stored)
          cases Except.ok.inj (accepts.decoded.symm.trans accepts'.decoded)
          exact hleaves
        · exact fun hstays ↦ hstays existOne student accepts
      | @grade _ gradeJSON student grade _ accepts =>
        have hid : client.id ≠ read := fun heq ↦ hother (congrArg some heq.symm)
        rw [accepts.leavesOthers_iff hschool hstub h.wellFormed hid]
        constructor
        · intro hleaves student' grade' key' accepts'
          cases Except.ok.inj (accepts.stored.symm.trans accepts'.stored)
          cases Except.ok.inj (accepts.composed.symm.trans accepts'.composed)
          exact hleaves
        · exact fun hstays ↦ hstays student grade key accepts
    · refine iff_of_true (writesIsolated_of_error hendorse) ?_
      cases command with
      | createStudent studentJSON => trivial
      | updateStudent studentID studentUpdateJSON =>
        exact fun existOne student accepts ↦ absurd (.update accepts) (hno _ _ _)
      | createStudentGrade studentID gradeJSON =>
        exact fun student grade key accepts ↦ absurd (.grade accepts) (hno _ _ _)

/-- The school's own update of its student is isolated. -/
theorem writesIsolated_iff_school1Manager :
    WritesIsolated ⟨fabricStub, school1Manager, noon⟩ [[("s1", marshal ada)]]
      (.command (.updateStudent "s1" "\x7b\x7d")) := by
  refine (writesIsolated_iff fabricStub_lawful ⟨_, reaches_enrolment⟩ (by decide) noon ?_).mpr ?_
  · decide
  · intro existOne student accepts
    obtain rfl := Except.ok.inj (storedStudent_ada.symm.trans accepts.stored)
    obtain rfl := Except.ok.inj (unmarshal_emptyObject.symm.trans accepts.decoded)
    refine ⟨fun stored hholds ↦ ?_, by decide⟩
    rw [← marshal_injective (Option.some.inj (value_ada.symm.trans hholds))]
    decide

/-- The other school's update of the student is not. -/
theorem writesIsolated_school2Manager :
    Reachable fabricStub [[("s1", marshal ada)]] ∧
      ¬ WritesIsolated ⟨fabricStub, school2Manager, noon⟩ [[("s1", marshal ada)]]
        (.command (.updateStudent "s1" "\x7b\x7d")) := by
  refine ⟨⟨_, reaches_enrolment⟩, ?_⟩
  have haccepts : UpdateAccepts ⟨fabricStub, school2Manager, noon⟩ _ _ _ _ _ :=
    updateAccepts_ada isManager_school2Manager
  rw [writesIsolated_iff_of_ok (Effect.update haccepts).endorse_eq, leavesOthers_student_iff]
  intro hleaves
  exact absurd (hleaves.1 ada value_ada) (by decide)

end StudentStatus.Chaincode
