import StudentStatus.Chaincode.Transactions

/-!
# Endorsements and the clock

Every peer executes a proposal with its own clock. The clock is read by `CreateStudent` and
`CreateStudentGrade` only, right before they store what they accepted, and it goes into the stored
record at the precision of a second. Two peers with the same ledger therefore agree on everything
but an accepted one of these, on which they agree when their clocks format alike
(`endorse_eq_iff`).
-/

set_option autoImplicit false
set_option relaxedAutoImplicit false

namespace StudentStatus.Chaincode

open Interaction Optimistic Json

/-- The proposal is accepted by an operation that puts the clock reading into what it stores. What
is accepted does not depend on the clock, so any reading can stand here. -/
def Stamps (ctx : Context) (ledger : Ledger) : Invocation → Prop
  | .command (.createStudent studentJSON) =>
    ∃ student, CreateAccepts ctx ledger studentJSON student
  | .command (.createStudentGrade studentID gradeJSON) =>
    ∃ student grade key, GradeAccepts ctx ledger studentID gradeJSON student grade key
  | _ => False

/-! ### Operations without the clock -/

/-- The call is not the clock's. -/
def Call.IsTimeless (call : Call) : Prop := call ≠ .now

theorem Call.IsReading.isTimeless {call : Call} (h : call.IsReading) : call.IsTimeless := by
  rintro rfl
  exact h

theorem timeless_updateStudent (studentID studentUpdateJSON : String) :
    (updateStudent studentID studentUpdateJSON).Uses Call.IsTimeless := by
  refine Program.uses_bind ((uses_assertManager _).mono fun _ h ↦ h.isReading.isTimeless) fun _ ↦ ?_
  refine Program.uses_bind ((reading_getStudent _).mono fun _ h ↦ h.isTimeless) fun existOne ↦ ?_
  refine Program.uses_bind (uses_orFail _ _) fun student ↦ ?_
  refine Program.uses_bind ((Program.uses_ask _).mpr fun heq ↦ by cases heq) fun put ↦ ?_
  exact uses_orFail _ _

variable {stub : Stub} {client : ClientIdentity} {ledger : Ledger} {now now' : Time}

/-- A run that does not read the clock is the same for all clocks. -/
theorem endorse_eq_of_timeless {invocation : Invocation}
    (h : invocation.run.Uses Call.IsTimeless) :
    endorse ⟨stub, client, now⟩ ledger invocation =
      endorse ⟨stub, client, now'⟩ ledger invocation := by
  have hagree (call : Call) (hcall : call.IsTimeless) :
      Context.answer ⟨stub, client, now⟩ ledger call =
        Context.answer ⟨stub, client, now'⟩ ledger call := by
    cases call with
    | now => exact absurd rfl hcall
    | _ => rfl
  have hrun := Program.run_congr_of_uses h hagree
  unfold endorse Program.observed
  rw [hrun.1, hrun.2]

/-! ### Operations that stamp -/

/-- What `CreateStudent` returns does not depend on the clock. -/
theorem result_createStudent_clock (studentJSON : String) :
    (createStudent studentJSON).result (Context.answer ⟨stub, client, now⟩ ledger) =
      (createStudent studentJSON).result (Context.answer ⟨stub, client, now'⟩ ledger) := by
  unfold createStudent
  simp [Context.answer]

/-- What `CreateStudentGrade` returns does not depend on the clock. -/
theorem result_createStudentGrade_clock (studentID gradeJSON : String) :
    (createStudentGrade studentID gradeJSON).result (Context.answer ⟨stub, client, now⟩ ledger) =
      (createStudentGrade studentID gradeJSON).result
        (Context.answer ⟨stub, client, now'⟩ ledger) := by
  unfold createStudentGrade
  simp [Context.answer, result_queryStudent]

theorem CreateAccepts.clock {studentJSON : String} {student : Student}
    (h : CreateAccepts ⟨stub, client, now⟩ ledger studentJSON student) :
    CreateAccepts ⟨stub, client, now'⟩ ledger studentJSON student := { h with }

theorem GradeAccepts.clock {studentID gradeJSON : String} {student : Student}
    {grade : StudentGrade} {key : String}
    (h : GradeAccepts ⟨stub, client, now⟩ ledger studentID gradeJSON student grade key) :
    GradeAccepts ⟨stub, client, now'⟩ ledger studentID gradeJSON student grade key := { h with }

/-- Commands that return alike are endorsed alike when they write alike. -/
theorem endorse_command_eq_iff {command : Command}
    (hresult : command.run.result (Context.answer ⟨stub, client, now⟩ ledger) =
      command.run.result (Context.answer ⟨stub, client, now'⟩ ledger)) :
    endorse ⟨stub, client, now⟩ ledger (.command command) =
        endorse ⟨stub, client, now'⟩ ledger (.command command) ↔
      command.run.observed (Context.answer ⟨stub, client, now⟩ ledger) writeOf =
        command.run.observed (Context.answer ⟨stub, client, now'⟩ ledger) writeOf := by
  unfold endorse Invocation.run
  simp [hresult]

/-- Two accepted creations agree when the clocks format alike. -/
theorem writes_createStudent_clock_iff {studentJSON : String} {student : Student}
    (h : CreateAccepts ⟨stub, client, now⟩ ledger studentJSON student) :
    (createStudent studentJSON).observed (Context.answer ⟨stub, client, now⟩ ledger) writeOf =
        (createStudent studentJSON).observed (Context.answer ⟨stub, client, now'⟩ ledger) writeOf ↔
      now.format = now'.format := by
  rw [(createStudent_of_accepts h).2.2, (createStudent_of_accepts h.clock).2.2]
  simp only [List.cons.injEq, Prod.mk.injEq, true_and, and_true, marshal_injective.eq_iff]
  simp [createdStudent]

/-- Two accepted grades agree when the clocks format alike. -/
theorem writes_createStudentGrade_clock_iff {studentID gradeJSON : String} {student : Student}
    {grade : StudentGrade} {key : String}
    (h : GradeAccepts ⟨stub, client, now⟩ ledger studentID gradeJSON student grade key) :
    (createStudentGrade studentID gradeJSON).observed
          (Context.answer ⟨stub, client, now⟩ ledger) writeOf =
        (createStudentGrade studentID gradeJSON).observed
          (Context.answer ⟨stub, client, now'⟩ ledger) writeOf ↔
      now.format = now'.format := by
  rw [(createStudentGrade_of_accepts h).2.2, (createStudentGrade_of_accepts h.clock).2.2]
  simp only [List.cons.injEq, Prod.mk.injEq, true_and, and_true, marshal_injective.eq_iff]
  simp [createdGrade]

/-- Two peers endorse a creation alike exactly when it is not accepted or their clocks format
alike. -/
theorem endorse_createStudent_eq_iff (studentJSON : String) :
    endorse ⟨stub, client, now⟩ ledger (.command (.createStudent studentJSON)) =
        endorse ⟨stub, client, now'⟩ ledger (.command (.createStudent studentJSON)) ↔
      ¬ (∃ student, CreateAccepts ⟨stub, client, now⟩ ledger studentJSON student) ∨
        now.format = now'.format := by
  rw [endorse_command_eq_iff (result_createStudent_clock studentJSON)]
  by_cases h : ∃ student, CreateAccepts ⟨stub, client, now⟩ ledger studentJSON student
  · obtain ⟨student, accepts⟩ := h
    exact (writes_createStudent_clock_iff accepts).trans
      (or_iff_right (not_not_intro ⟨student, accepts⟩)).symm
  · refine iff_of_true ?_ (Or.inl h)
    have hnow := not_exists.mp h
    have hnow' (student : Student) :
        ¬ CreateAccepts ⟨stub, client, now'⟩ ledger studentJSON student :=
      fun accepts ↦ hnow student accepts.clock
    exact (createStudent_rejects hnow).2.trans (createStudent_rejects hnow').2.symm

/-- Two peers endorse a grading alike exactly when it is not accepted or their clocks format
alike. -/
theorem endorse_createStudentGrade_eq_iff (studentID gradeJSON : String) :
    endorse ⟨stub, client, now⟩ ledger (.command (.createStudentGrade studentID gradeJSON)) =
        endorse ⟨stub, client, now'⟩ ledger (.command (.createStudentGrade studentID gradeJSON)) ↔
      ¬ (∃ student grade key,
          GradeAccepts ⟨stub, client, now⟩ ledger studentID gradeJSON student grade key) ∨
        now.format = now'.format := by
  rw [endorse_command_eq_iff (result_createStudentGrade_clock studentID gradeJSON)]
  by_cases h : ∃ student grade key,
      GradeAccepts ⟨stub, client, now⟩ ledger studentID gradeJSON student grade key
  · obtain ⟨student, grade, key, accepts⟩ := h
    exact (writes_createStudentGrade_clock_iff accepts).trans
      (or_iff_right (not_not_intro ⟨student, grade, key, accepts⟩)).symm
  · refine iff_of_true ?_ (Or.inl h)
    have hnow (student grade key) :
        ¬ GradeAccepts ⟨stub, client, now⟩ ledger studentID gradeJSON student grade key :=
      fun accepts ↦ h ⟨student, grade, key, accepts⟩
    have hnow' (student grade key) :
        ¬ GradeAccepts ⟨stub, client, now'⟩ ledger studentID gradeJSON student grade key :=
      fun accepts ↦ hnow student grade key accepts.clock
    exact (createStudentGrade_rejects hnow).2.trans (createStudentGrade_rejects hnow').2.symm

/-- Two peers with the same ledger endorse a proposal alike exactly when it is not one that stamps,
or their clocks format alike. -/
theorem endorse_eq_iff (stub : Stub) (client : ClientIdentity) (ledger : Ledger) (now now' : Time)
    (invocation : Invocation) :
    endorse ⟨stub, client, now⟩ ledger invocation =
        endorse ⟨stub, client, now'⟩ ledger invocation ↔
      ¬ Stamps ⟨stub, client, now⟩ ledger invocation ∨ now.format = now'.format := by
  cases invocation with
  | query query =>
    have htimeless : (Invocation.query query).run.Uses Call.IsTimeless :=
      (reading_query query).mono fun _ h ↦ h.isTimeless
    exact iff_of_true (endorse_eq_of_timeless htimeless) (Or.inl id)
  | command command =>
    cases command with
    | createStudent studentJSON => exact endorse_createStudent_eq_iff studentJSON
    | updateStudent studentID studentUpdateJSON =>
      have htimeless : (Invocation.command (.updateStudent studentID studentUpdateJSON)).run.Uses
          Call.IsTimeless :=
        Program.uses_bind (timeless_updateStudent studentID studentUpdateJSON) fun _ ↦ trivial
      exact iff_of_true (endorse_eq_of_timeless htimeless) (Or.inl id)
    | createStudentGrade studentID gradeJSON =>
      exact endorse_createStudentGrade_eq_iff studentID gradeJSON

/-- Two peers whose clocks are a second apart do not endorse an enrolment alike. -/
theorem endorse_enrolment_ne :
    endorse ⟨fabricStub, school1Manager, noon⟩ [] (.command enrolment.command) ≠
      endorse ⟨fabricStub, school1Manager, { noon with second := 1 }⟩ []
        (.command enrolment.command) := by
  intro heq
  have hwrites := (endorse_command_eq_iff (result_createStudent_clock (marshal ada))).mp heq
  have hformat := (writes_createStudent_clock_iff (createAccepts_ada fabricStub)).mp hwrites
  exact absurd hformat (by decide +kernel)

end StudentStatus.Chaincode
