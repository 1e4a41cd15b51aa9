import StudentStatus.Chaincode.AccessControl

/-!
# Student operations

`student.go`. The writers read one key, the student's, and write one record as their last step.
`CreateAccepts` and `UpdateAccepts` say when they succeed if no call fails; then their reads and
writes are known (`createStudent_of_accepts`, `updateStudent_of_accepts`), else they return an
error and write nothing (`createStudent_rejects`, `updateStudent_rejects`). The result of
`queryStudent` is a function of the identity and the record (`result_queryStudent`).

`CreateStudent` keeps a student's school from the payload only for the bureau; `UpdateStudent` keeps
the stored school when the payload has none, and takes every other field from the payload.
-/

set_option autoImplicit false
set_option relaxedAutoImplicit false

namespace StudentStatus.Chaincode

open Interaction Optimistic Json

open Program (raise)

/-- The error that the source tests, `none` when the client is the student. -/
def assertStateOwner (studentID : String) : Contract (Option ContractError) := do
  let id : Except StubError String ← perform .getID
  -- `id, _ := clientID.GetID()`
  return if id.toOption.getD "" ≠ studentID then some .notStateOwner else none

def getStudent (studentId : String) : Contract Student := do
  let studentBytes : Except StubError (Option String) ← perform (.getState studentId)
  let studentBytes ← orFail .failedToGetStudent studentBytes
  match studentBytes with
  | none => fail (.studentNotFound studentId)
  | some studentBytes => orFail .failedToUnmarshalStudent (unmarshal studentBytes)

def studentExists (studentID : String) : Contract Bool := do
  let bytes : Except StubError (Option String) ← perform (.getState studentID)
  -- `bytes, _ := ctx.GetStub().GetState(studentID)`
  return (bytes.toOption.getD none).isSome

def createStudent (studentJSON : String) : Contract Unit := do
  assertManager []
  let student : Student ← orFail .failedToUnmarshalStudent (unmarshal studentJSON)
  let found ← studentExists student.id
  if found then fail (.studentAlreadyExists student.id)
  else do
    let msp ← getMSPID
    let student ←
      if msp ≠ educationBureauMSP then pure { student with school := msp }
      else if student.school = "" then fail .schoolIsNil
      else pure student
    if student.name = "" then fail .nameIsNull
    else do
      let now : Time ← perform .now
      let student := { student with creationDate := now.format, graduated := false }
      let put : Except StubError Unit ← perform (.putState student.id (marshal student))
      orFail .stub put

/-- The assignments of `UpdateStudent`: every field but the id and the creation date is taken from
the request, the school only if the request has one. -/
def updatedStudent (existOne student : Student) : Student :=
  { existOne with
    admissionYear := student.admissionYear
    graduated := student.graduated
    major := student.major
    name := student.name
    school := if student.school ≠ "" then student.school else existOne.school }

def updateStudent (studentID studentUpdateJSON : String) : Contract Unit := do
  assertManager []
  let existOne ← getStudent studentID
  let student : Student ← orFail .failedToUnmarshalStudent (unmarshal studentUpdateJSON)
  let existOne := updatedStudent existOne student
  let put : Except StubError Unit ← perform (.putState studentID (marshal existOne))
  orFail .stub put

def queryStudent (studentID : String) : Contract Student := do
  let err ← assertStateOwner studentID
  match err with
  | some _ => assertManager [studentID]
  | none => pure ()
  let student ← getStudent studentID
  let msp ← getMSPID
  let err ← assertStateOwner studentID
  if err.isSome ∧ msp ≠ educationBureauMSP ∧ msp ≠ student.school then fail .accessDenied
  else return student

/-- A page of records with the bookmark of the next page. -/
structure PaginationQueryResult where
  items : List Student
  bookmark : String
  deriving DecidableEq

/-- The loop of `QueryAllStudents`: the records of a page that the client's MSP may see. -/
def collectStudents (msp : String) : List (Except StubError KV) → Contract (List Student)
  | [] => pure []
  | queryResponse :: rest => do
    let queryResponse ← orFail .stub queryResponse
    let student : Student ← orFail .json (unmarshal queryResponse.value)
    let students ← collectStudents msp rest
    return if msp = educationBureauMSP ∨ student.school = msp then student :: students else students

def queryAllStudents (pageSize : Int64) (bookmark : String) : Contract PaginationQueryResult := do
  assertManager []
  let page : Except StubError (List (Except StubError KV) × String) ←
    perform (.getStateByRangeWithPagination "" "" pageSize.toInt32 bookmark)
  let page ← orFail .stub page
  let msp ← getMSPID
  let students ← collectStudents msp page.1
  return { items := students, bookmark := page.2 }

/-! ### Results, reads and writes when no call fails -/

variable (ctx : Context) (ledger : Ledger)

@[simp] theorem result_assertStateOwner (studentID : String) :
    (assertStateOwner studentID).result (ctx.answer ledger) =
      .ok (if ctx.client.id ≠ studentID then some .notStateOwner else none) := rfl

theorem uses_assertStateOwner (studentID : String) :
    (assertStateOwner studentID).Uses Call.IsIdentity := ⟨trivial, fun _ ↦ trivial⟩

@[simp] theorem reads_assertStateOwner (studentID : String) :
    (assertStateOwner studentID).observed (ctx.answer ledger) readOf = [] := rfl

@[simp] theorem result_studentExists (studentID : String) :
    (studentExists studentID).result (ctx.answer ledger) =
      .ok (ledger.value studentID).isSome := rfl

@[simp] theorem reads_studentExists (studentID : String) :
    (studentExists studentID).observed (ctx.answer ledger) readOf = [studentID] := rfl

@[simp] theorem writes_studentExists (studentID : String) :
    (studentExists studentID).observed (ctx.answer ledger) writeOf = [] := rfl

/-- The record stored under an ID, or the error that `GetStudent` returns. -/
def storedStudent (studentId : String) : Except Abort Student :=
  match ledger.value studentId with
  | none => .error (.returned (.studentNotFound studentId))
  | some text => (unmarshal text).mapError fun err ↦ .returned (.failedToUnmarshalStudent err)

@[simp] theorem result_getStudent (studentId : String) :
    (getStudent studentId).result (ctx.answer ledger) = storedStudent ledger studentId := by
  simp only [getStudent, storedStudent, Program.result_bind, Program.result_ask, Context.answer,
    result_orFail, Except.mapError]
  cases ledger.value studentId with
  | none => rfl
  | some text => exact result_orFail ctx ledger _ _

@[simp] theorem reads_getStudent (studentId : String) :
    (getStudent studentId).observed (ctx.answer ledger) readOf = [studentId] := by
  cases h : ledger.value studentId <;> simp [getStudent, Context.answer, readOf, Except.mapError, h]

theorem uses_getStudent (studentId : String) :
    (getStudent studentId).Uses (· = .getState studentId) := by
  refine Program.uses_bind ((Program.uses_ask _).mpr rfl) fun reply ↦ ?_
  refine Program.uses_bind (uses_orFail _ _) fun stored ↦ ?_
  cases stored with
  | none => trivial
  | some text => exact uses_orFail _ _

@[simp] theorem writes_getStudent (studentId : String) :
    (getStudent studentId).observed (ctx.answer ledger) writeOf = [] :=
  (uses_getStudent studentId).observed_eq_nil fun event hevent ↦ by
    obtain ⟨request, reply⟩ := event
    cases hevent
    rfl

theorem uses_collectStudents {allowed : Call → Prop} (msp : String)
    (items : List (Except StubError KV)) : (collectStudents msp items).Uses allowed := by
  induction items with
  | nil => trivial
  | cons queryResponse rest ih =>
    refine Program.uses_bind (uses_orFail _ _) fun queryResponse ↦ ?_
    refine Program.uses_bind (uses_orFail _ _) fun student ↦ ?_
    exact Program.uses_bind ih fun students ↦ trivial

theorem storedStudent_eq_ok_iff {studentId : String} {student : Student} :
    storedStudent ledger studentId = .ok student ↔
      ∃ text, ledger.value studentId = some text ∧ unmarshal text = .ok student := by
  unfold storedStudent
  cases ledger.value studentId with
  | none => simp
  | some text =>
    cases h : (unmarshal text : Except DecodeError Student) <;> simp [Except.mapError, h]

theorem storedStudent_congr {ledger other : Ledger} {key : String}
    (hvalue : other.value key = ledger.value key) :
    storedStudent other key = storedStudent ledger key := by
  unfold storedStudent
  rw [hvalue]

theorem storedStudent_cons {key text : String} {older : Ledger} (studentID : String) :
    storedStudent ([(key, text)] :: older) studentID =
      if key = studentID then
        (unmarshal text).mapError fun err ↦ .returned (.failedToUnmarshalStudent err)
      else storedStudent older studentID := by
  unfold storedStudent
  rw [Chain.value_cons_singleton]
  split_ifs <;> rfl

/-- The client may see a record: it is the student's own, or the bureau asks, or the student's
school. -/
def MaySee (client : ClientIdentity) (studentID : String) (student : Student) : Prop :=
  client.id = studentID ∨ client.mspID = educationBureauMSP ∨ client.mspID = student.school

instance (client : ClientIdentity) (studentID : String) (student : Student) :
    Decidable (MaySee client studentID student) := inferInstanceAs (Decidable (_ ∨ _))

/-- The answer of `QueryStudent`. -/
def queriedStudent (client : ClientIdentity) (studentID : String) : Except Abort Student :=
  match if client.id = studentID then .ok () else affiliationCheck client managerAffiliations with
  | .error abort => .error abort
  | .ok _ =>
    match storedStudent ledger studentID with
    | .error abort => .error abort
    | .ok student =>
      if MaySee client studentID student then .ok student
      else .error (.returned .accessDenied)

theorem result_queryStudent (studentID : String) :
    (queryStudent studentID).result (ctx.answer ledger) =
      queriedStudent ledger ctx.client studentID := by
  unfold queryStudent queriedStudent MaySee
  by_cases hid : ctx.client.id = studentID
  · cases hstored : storedStudent ledger studentID <;> simp [hid, hstored]
  · cases hcheck : affiliationCheck ctx.client managerAffiliations with
    | error abort => simp [hid, hcheck]
    | ok _ =>
      cases hstored : storedStudent ledger studentID with
      | error abort => simp [hid, hcheck, hstored]
      | ok student =>
        by_cases hmsp : ctx.client.mspID = educationBureauMSP <;>
          by_cases hschool : ctx.client.mspID = student.school <;>
            simp [hid, hcheck, hstored, hmsp, hschool]

/-- `QueryStudent` makes calls of the identity library and reads the student's key. -/
theorem uses_queryStudent (studentID : String) :
    (queryStudent studentID).Uses fun call ↦ call.IsIdentity ∨ call = .getState studentID := by
  have hshow (student : Student) (msp : String) (err : Option ContractError) :
      (if err.isSome ∧ msp ≠ educationBureauMSP ∧ msp ≠ student.school then fail .accessDenied
        else pure student : Contract Student).Uses
        fun call ↦ call.IsIdentity ∨ call = .getState studentID :=
    Program.uses_ite trivial trivial
  have hread := Program.uses_bind ((uses_getStudent studentID).mono fun _ ↦ Or.inr) fun student ↦
    Program.uses_bind (uses_getMSPID.mono fun _ ↦ Or.inl) fun msp ↦
      Program.uses_bind ((uses_assertStateOwner studentID).mono fun _ ↦ Or.inl) fun err ↦
        hshow student msp err
  refine Program.uses_bind ((uses_assertStateOwner _).mono fun _ ↦ Or.inl) fun err ↦ ?_
  cases err with
  | none => exact hread
  | some _ =>
    exact Program.uses_bind ((uses_assertManager _).mono fun _ ↦ Or.inl) fun _ ↦ hread

/-- An observer of neither identities nor single reads sees nothing of a `QueryStudent`. -/
theorem observed_queryStudent {ω : Type} {observe : Event Call Reply → Option ω}
    (hidentity : ∀ event : Event Call Reply, event.1.IsIdentity → observe event = none)
    (hstate : ∀ key reply, observe ⟨.getState key, reply⟩ = none) (studentID : String) :
    (queryStudent studentID).observed (ctx.answer ledger) observe = [] :=
  (uses_queryStudent studentID).observed_eq_nil fun event hevent ↦ by
    obtain ⟨request, reply⟩ := event
    rcases hevent with hid | rfl
    · exact hidentity _ hid
    · exact hstate _ _

@[simp] theorem writes_queryStudent (studentID : String) :
    (queryStudent studentID).observed (ctx.answer ledger) writeOf = [] :=
  observed_queryStudent ctx ledger (fun _ ↦ writeOf_identity) (fun _ _ ↦ rfl) studentID

/-- A query that is answered has read the student's key only. -/
theorem reads_queryStudent {studentID : String} {student : Student}
    (h : queriedStudent ledger ctx.client studentID = .ok student) :
    (queryStudent studentID).observed (ctx.answer ledger) readOf = [studentID] := by
  unfold queriedStudent at h
  unfold queryStudent
  by_cases hid : ctx.client.id = studentID
  · cases hstored : storedStudent ledger studentID <;> simp [hid, hstored]
  · cases hcheck : affiliationCheck ctx.client managerAffiliations with
    | error abort => simp [hid, hcheck] at h
    | ok _ => cases hstored : storedStudent ledger studentID <;> simp [hid, hcheck, hstored]

theorem queriedStudent_eq_ok_iff {client : ClientIdentity} {studentID : String}
    {student : Student} :
    queriedStudent ledger client studentID = .ok student ↔
      (client.id = studentID ∨ IsManager client) ∧ storedStudent ledger studentID = .ok student ∧
        MaySee client studentID student := by
  unfold queriedStudent IsManager
  by_cases hid : client.id = studentID
  · cases hstored : storedStudent ledger studentID with
    | error abort => simp [hid]
    | ok stored => simp [hid, MaySee]
  · cases hcheck : affiliationCheck client managerAffiliations with
    | error abort => simp [hid]
    | ok _ =>
      cases hstored : storedStudent ledger studentID with
      | error abort => simp [hid]
      | ok stored =>
        by_cases hsee : MaySee client studentID stored
        · simp only [hid, if_false, if_pos hsee, false_or, true_and, Except.ok.injEq]
          exact ⟨fun h ↦ ⟨h, h ▸ hsee⟩, fun h ↦ h.1⟩
        · simp only [hid, if_false, if_neg hsee, false_or, true_and, Except.ok.injEq, reduceCtorEq,
            false_iff, not_and]
          exact fun h ↦ h ▸ hsee

/-! ### Creating -/

/-- `CreateStudent` accepts a payload, which decodes to a student. -/
structure CreateAccepts (studentJSON : String) (student : Student) : Prop where
  manager : IsManager ctx.client
  decoded : unmarshal studentJSON = .ok student
  fresh : ledger.value student.id = none
  school : ctx.client.mspID = educationBureauMSP → student.school ≠ ""
  named : student.name ≠ ""
  keyed : student.id ≠ ""

/-- The record that `CreateStudent` stores for a student. -/
def createdStudent (student : Student) : Student :=
  { student with
    school := if ctx.client.mspID ≠ educationBureauMSP then ctx.client.mspID else student.school
    creationDate := ctx.now.format
    graduated := false }

variable {ctx ledger}

theorem createStudent_of_accepts {studentJSON : String} {student : Student}
    (h : CreateAccepts ctx ledger studentJSON student) :
    (createStudent studentJSON).result (ctx.answer ledger) = .ok () ∧
      (createStudent studentJSON).observed (ctx.answer ledger) readOf = [student.id] ∧
      (createStudent studentJSON).observed (ctx.answer ledger) writeOf =
        [(student.id, marshal (createdStudent ctx student))] := by
  obtain ⟨hmanager, hdecoded, hfresh, hschool, hnamed, hkeyed⟩ := h
  unfold IsManager at hmanager
  unfold createStudent createdStudent
  by_cases hmsp : ctx.client.mspID = educationBureauMSP
  · simp [hmanager, hdecoded, hfresh, hmsp, hschool hmsp, hnamed, hkeyed, Context.answer, readOf,
      writeOf, Except.mapError]
  · simp [hmanager, hdecoded, hfresh, hmsp, hnamed, hkeyed, Context.answer, readOf, writeOf,
      Except.mapError]

/-- A payload that is not accepted is answered with an error and nothing is written. -/
theorem createStudent_rejects {studentJSON : String}
    (h : ∀ student, ¬ CreateAccepts ctx ledger studentJSON student) :
    (∃ err, (createStudent studentJSON).result (ctx.answer ledger) = .error err) ∧
      (createStudent studentJSON).observed (ctx.answer ledger) writeOf = [] := by
  unfold createStudent
  cases hmanager : affiliationCheck ctx.client managerAffiliations with
  | error err => simp [hmanager]
  | ok _ =>
    cases hdecoded : (unmarshal studentJSON : Except DecodeError Student) with
    | error err => simp [hmanager, Except.mapError]
    | ok student =>
      by_cases hfresh : ledger.value student.id = none
      · have hreject : (ctx.client.mspID = educationBureauMSP → student.school ≠ "") →
            student.name ≠ "" → student.id = "" := by
          intro hschool hnamed
          by_contra hkeyed
          exact h student ⟨hmanager, hdecoded, hfresh, hschool, hnamed, hkeyed⟩
        by_cases hnamed : student.name = ""
        · by_cases hmsp : ctx.client.mspID = educationBureauMSP <;>
            by_cases hschool : student.school = "" <;>
              simp [hmanager, hfresh, hmsp, hschool, hnamed, Except.mapError]
        · by_cases hmsp : ctx.client.mspID = educationBureauMSP
          · by_cases hschool : student.school = ""
            · simp [hmanager, hfresh, hmsp, hschool, Except.mapError]
            · have hkeyed := hreject (fun _ ↦ hschool) hnamed
              rw [hkeyed] at hfresh
              simp [hmanager, hfresh, hmsp, hschool, hnamed, hkeyed, Context.answer, writeOf,
                Except.mapError]
          · have hkeyed := hreject (fun hmsp' ↦ absurd hmsp' hmsp) hnamed
            rw [hkeyed] at hfresh
            simp [hmanager, hfresh, hmsp, hnamed, hkeyed, Context.answer, writeOf, Except.mapError]
      · simp [hmanager, Option.isSome_iff_ne_none.mpr hfresh, Except.mapError]

/-! ### Updating -/

variable (ctx ledger) in
/-- `UpdateStudent` accepts a payload for an ID: `existOne` is stored there and `student` is what
the payload decodes to. -/
structure UpdateAccepts (studentID studentUpdateJSON : String) (existOne student : Student) :
    Prop where
  manager : IsManager ctx.client
  stored : storedStudent ledger studentID = .ok existOne
  decoded : unmarshal studentUpdateJSON = .ok student
  keyed : studentID ≠ ""

theorem updateStudent_of_accepts {studentID studentUpdateJSON : String} {existOne student : Student}
    (h : UpdateAccepts ctx ledger studentID studentUpdateJSON existOne student) :
    (updateStudent studentID studentUpdateJSON).result (ctx.answer ledger) = .ok () ∧
      (updateStudent studentID studentUpdateJSON).observed (ctx.answer ledger) readOf =
        [studentID] ∧
      (updateStudent studentID studentUpdateJSON).observed (ctx.answer ledger) writeOf =
        [(studentID, marshal (updatedStudent existOne student))] := by
  obtain ⟨hmanager, hstored, hdecoded, hkeyed⟩ := h
  unfold IsManager at hmanager
  unfold updateStudent
  simp [hmanager, hstored, hdecoded, hkeyed, Context.answer, readOf, writeOf, Except.mapError]

variable (ctx ledger) in
/-- The answer of `UpdateStudent`, which names nothing of the record that it found. -/
theorem result_updateStudent (studentID studentUpdateJSON : String) :
    (updateStudent studentID studentUpdateJSON).result (ctx.answer ledger) =
      match affiliationCheck ctx.client managerAffiliations with
      | .error abort => .error abort
      | .ok _ =>
        match storedStudent ledger studentID with
        | .error abort => .error abort
        | .ok _ =>
          match (unmarshal studentUpdateJSON : Except DecodeError Student) with
          | .error err => .error (.returned (.failedToUnmarshalStudent err))
          | .ok _ =>
            if studentID = "" then .error (.returned (.stub "key must not be an empty string"))
            else .ok () := by
  unfold updateStudent
  cases hmanager : affiliationCheck ctx.client managerAffiliations with
  | error abort => simp [hmanager]
  | ok _ =>
    cases hstored : storedStudent ledger studentID with
    | error abort => simp [hmanager, hstored]
    | ok existOne =>
      cases hdecoded : (unmarshal studentUpdateJSON : Except DecodeError Student) with
      | error err => simp [hmanager, hstored, Except.mapError]
      | ok student =>
        simp only [Program.result_bind, result_assertManager, hmanager, result_getStudent, hstored,
          result_orFail, Except.mapError, Program.result_ask, Context.answer]
        split_ifs <;> rfl

/-- A payload that is not accepted is answered with an error and nothing is written. -/
theorem updateStudent_rejects {studentID studentUpdateJSON : String}
    (h : ∀ existOne student,
      ¬ UpdateAccepts ctx ledger studentID studentUpdateJSON existOne student) :
    (∃ err, (updateStudent studentID studentUpdateJSON).result (ctx.answer ledger) = .error err) ∧
      (updateStudent studentID studentUpdateJSON).observed (ctx.answer ledger) writeOf = [] := by
  unfold updateStudent
  cases hmanager : affiliationCheck ctx.client managerAffiliations with
  | error err => simp [hmanager]
  | ok _ =>
    cases hstored : storedStudent ledger studentID with
    | error err => simp [hmanager, hstored]
    | ok existOne =>
      cases hdecoded : (unmarshal studentUpdateJSON : Except DecodeError Student) with
      | error err => simp [hmanager, hstored, Except.mapError]
      | ok student =>
        have hkeyed : studentID = "" := by
          by_contra hkeyed
          exact h existOne student ⟨hmanager, hstored, hdecoded, hkeyed⟩
        rw [hkeyed] at hstored
        simp [hmanager, hstored, hkeyed, Context.answer, writeOf, Except.mapError]

end StudentStatus.Chaincode
