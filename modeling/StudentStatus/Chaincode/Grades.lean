import StudentStatus.Chaincode.Students

/-!
# Grade operations

`grade.go`. Grading reads the student's record through `queryStudent` and writes the entry, without
reading it, at the composite key of the student and the student's school. The query walks the keys
that extend the partial composite key of the student, and for each of them the history of the key
that its current entry names.

`GradeAccepts` says when grading succeeds if no call fails, `createStudentGrade_of_accepts` and
`createStudentGrade_rejects` what it then read and wrote.
-/

set_option autoImplicit false
set_option relaxedAutoImplicit false

namespace StudentStatus.Chaincode

open Interaction Json

/-- `CompositeKeyStudentGrade` -/
def compositeKeyStudentGrade : String := "StudentGrade"

/-- The inner loop of `QueryStudentGrades`: the entries in the history of a key. -/
def collectHistory : List (Except StubError String) → Contract (List StudentGrade)
  | [] => pure []
  | resp :: rest => do
    let value ← orFail .stub resp
    let gradeHistory : StudentGrade ← orFail .json (unmarshal value)
    let gradeHistories ← collectHistory rest
    return gradeHistory :: gradeHistories

/-- The outer loop of `QueryStudentGrades`: the histories of the keys that the entries name. -/
def collectGrades : List (Except StubError KV) → Contract (List StudentGrade)
  | [] => pure []
  | resp :: rest => do
    let resp ← orFail .stub resp
    let grade : StudentGrade ← orFail .json (unmarshal resp.value)
    let innerIter : Except StubError (List (Except StubError String)) ←
      perform (.getHistoryForKey grade.id)
    let innerIter ← orFail .stub innerIter
    let gradeHistories ← collectHistory innerIter
    let others ← collectGrades rest
    return gradeHistories ++ others

def queryStudentGrades (studentId : String) : Contract (List StudentGrade) := do
  let student ← queryStudent studentId
  let iterator : Except StubError (List (Except StubError KV)) ←
    perform (.getStateByPartialCompositeKey compositeKeyStudentGrade [student.id])
  let iterator ← orFail .stub iterator
  collectGrades iterator

def createStudentGrade (studentID gradeJSON : String) : Contract Unit := do
  let student ← queryStudent studentID
  assertManager []
  let grade : StudentGrade ← orFail .json (unmarshal gradeJSON)
  let key : Except StubError String ←
    perform (.createCompositeKey compositeKeyStudentGrade [student.id, student.school])
  let key ← orFail .stub key
  let now : Time ← perform .now
  let grade := { grade with id := key, modificationDate := now.format }
  let put : Except StubError Unit ← perform (.putState key (marshal grade))
  orFail .stub put

theorem uses_collectHistory {allowed : Call → Prop} (items : List (Except StubError String)) :
    (collectHistory items).Uses allowed := by
  induction items with
  | nil => trivial
  | cons resp rest ih =>
    refine Program.uses_bind (uses_orFail _ _) fun value ↦ ?_
    refine Program.uses_bind (uses_orFail _ _) fun gradeHistory ↦ ?_
    exact Program.uses_bind ih fun _ ↦ trivial

/-- The outer loop asks for histories only. -/
theorem uses_collectGrades (items : List (Except StubError KV)) :
    (collectGrades items).Uses fun call ↦ ∃ key, call = .getHistoryForKey key := by
  induction items with
  | nil => trivial
  | cons resp rest ih =>
    refine Program.uses_bind (uses_orFail _ _) fun resp ↦ ?_
    refine Program.uses_bind (uses_orFail _ _) fun grade ↦ ?_
    refine Program.uses_bind ((Program.uses_ask _).mpr ⟨_, rfl⟩) fun innerIter ↦ ?_
    refine Program.uses_bind (uses_orFail _ _) fun innerIter ↦ ?_
    refine Program.uses_bind (uses_collectHistory _) fun gradeHistories ↦ ?_
    exact Program.uses_bind ih fun others ↦ trivial

variable (ctx : Context) (ledger : Ledger)

/-- The inner loop makes no call. -/
theorem observed_collectHistory {ω : Type} (observe : Event Call Reply → Option ω)
    (items : List (Except StubError String)) :
    (collectHistory items).observed (ctx.answer ledger) observe = [] := by
  have hnone : (collectHistory items).Uses fun _ ↦ False := uses_collectHistory items
  exact hnone.observed_eq_nil fun _ ↦ False.elim

/-! ### Grading when no call fails -/

/-- `CreateStudentGrade` accepts a payload for an ID: `student` is stored there, `grade` is what the
payload decodes to, and `key` is the composite key of the student and the student's school. -/
structure GradeAccepts (studentID gradeJSON : String) (student : Student) (grade : StudentGrade)
    (key : String) : Prop where
  manager : IsManager ctx.client
  stored : storedStudent ledger studentID = .ok student
  visible : MaySee ctx.client studentID student
  decoded : unmarshal gradeJSON = .ok grade
  composed : ctx.stub.createCompositeKey compositeKeyStudentGrade [student.id, student.school] =
    .ok key
  keyed : key ≠ ""

/-- The entry that `CreateStudentGrade` stores for a grade. -/
def createdGrade (grade : StudentGrade) (key : String) : StudentGrade :=
  { grade with id := key, modificationDate := ctx.now.format }

variable {ctx ledger}

theorem createStudentGrade_of_accepts {studentID gradeJSON : String} {student : Student}
    {grade : StudentGrade} {key : String}
    (h : GradeAccepts ctx ledger studentID gradeJSON student grade key) :
    (createStudentGrade studentID gradeJSON).result (ctx.answer ledger) = .ok () ∧
      (createStudentGrade studentID gradeJSON).observed (ctx.answer ledger) readOf = [studentID] ∧
      (createStudentGrade studentID gradeJSON).observed (ctx.answer ledger) writeOf =
        [(key, marshal (createdGrade ctx grade key))] := by
  obtain ⟨hmanager, hstored, hvisible, hdecoded, hcomposed, hkeyed⟩ := h
  have hqueried : queriedStudent ledger ctx.client studentID = .ok student :=
    (queriedStudent_eq_ok_iff ledger).mpr ⟨Or.inr hmanager, hstored, hvisible⟩
  have hreads := reads_queryStudent ctx ledger hqueried
  unfold IsManager at hmanager
  unfold createStudentGrade createdGrade
  simp [result_queryStudent, hqueried, hreads, hmanager, hdecoded, hcomposed, hkeyed,
    Context.answer, readOf, writeOf, Except.mapError]

/-- A payload that is not accepted is answered with an error and nothing is written. -/
theorem createStudentGrade_rejects {studentID gradeJSON : String}
    (h : ∀ student grade key, ¬ GradeAccepts ctx ledger studentID gradeJSON student grade key) :
    (∃ err, (createStudentGrade studentID gradeJSON).result (ctx.answer ledger) = .error err) ∧
      (createStudentGrade studentID gradeJSON).observed (ctx.answer ledger) writeOf = [] := by
  unfold createStudentGrade
  cases hqueried : queriedStudent ledger ctx.client studentID with
  | error err => simp [result_queryStudent, hqueried]
  | ok student =>
    cases hmanager : affiliationCheck ctx.client managerAffiliations with
    | error err => simp [result_queryStudent, hqueried, hmanager]
    | ok _ =>
      cases hdecoded : (unmarshal gradeJSON : Except _ StudentGrade) with
      | error err => simp [result_queryStudent, hqueried, hmanager, Except.mapError]
      | ok grade =>
        cases hcomposed : ctx.stub.createCompositeKey compositeKeyStudentGrade
            [student.id, student.school] with
        | error err =>
          simp [result_queryStudent, hqueried, hmanager, hcomposed, Context.answer, writeOf,
            Except.mapError]
        | ok key =>
          have hkeyed : key = "" := by
            by_contra hkeyed
            obtain ⟨-, hstored, hvisible⟩ := (queriedStudent_eq_ok_iff ledger).mp hqueried
            exact h student grade key
              ⟨hmanager, hstored, hvisible, hdecoded, hcomposed, hkeyed⟩
          simp [result_queryStudent, hqueried, hmanager, hcomposed, hkeyed, Context.answer,
            writeOf, Except.mapError]

theorem result_createStudentGrade_eq_ok_iff {studentID gradeJSON : String} :
    (createStudentGrade studentID gradeJSON).result (ctx.answer ledger) = .ok () ↔
      ∃ student grade key, GradeAccepts ctx ledger studentID gradeJSON student grade key := by
  constructor
  · intro hresult
    by_contra hnone
    simp only [not_exists] at hnone
    obtain ⟨⟨err, herr⟩, -⟩ := createStudentGrade_rejects hnone
    rw [hresult] at herr
    cases herr
  · rintro ⟨student, grade, key, accepts⟩
    exact (createStudentGrade_of_accepts accepts).1

end StudentStatus.Chaincode
