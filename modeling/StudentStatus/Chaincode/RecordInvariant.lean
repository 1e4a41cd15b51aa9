import StudentStatus.Chaincode.Transactions

/-!
# The representation invariant

Every text ever committed under a key is the text of a student or of a grade with that key as its
id (`WellFormed`), and no key is empty. Each effect keeps this (`Effect.isRecordOf`), so it holds of
every reachable ledger (`Reachable.wellFormed`): both writers of student records store the record
under its own id, also when `UpdateStudent` is given the key of a grade, and `CreateStudentGrade`
stores the entry under the key it puts into it.

On such a ledger nothing that is read back fails to decode. The listing is the filter of the decoded
records of a page (`result_queryAllStudents`), and the grade query is the list of the decoded
histories of the keys it iterates (`result_queryStudentGrades`).
-/

set_option autoImplicit false
set_option relaxedAutoImplicit false

namespace StudentStatus.Chaincode

open Interaction Optimistic Json

/-! ### The invariant -/

/-- A text is that of a student or of a grade whose id is the key. -/
def IsRecordOf (key text : String) : Prop :=
  (∃ student : Student, student.id = key ∧ text = marshal student) ∨
    ∃ grade : StudentGrade, grade.id = key ∧ text = marshal grade

/-- Every committed key is non-empty and every text under it is a record of it. -/
def WellFormed (ledger : Ledger) : Prop :=
  ∀ key, ∀ text ∈ ledger.history key, key ≠ "" ∧ IsRecordOf key text

/-- A record decodes as a student with the id of its key. -/
theorem IsRecordOf.student {key text : String} (h : IsRecordOf key text) :
    ∃ student : Student, unmarshal text = .ok student ∧ student.id = key := by
  rcases h with ⟨student, hid, rfl⟩ | ⟨grade, hid, rfl⟩
  · exact ⟨student, unmarshal_marshal student, hid⟩
  · exact ⟨Student.ofId grade.id, unmarshal_student_marshal_grade grade, hid⟩

/-- A record decodes as a grade with the id of its key. -/
theorem IsRecordOf.grade {key text : String} (h : IsRecordOf key text) :
    ∃ grade : StudentGrade, unmarshal text = .ok grade ∧ grade.id = key := by
  rcases h with ⟨student, hid, rfl⟩ | ⟨grade, hid, rfl⟩
  · exact ⟨StudentGrade.ofId student.id, unmarshal_grade_marshal_student student, hid⟩
  · exact ⟨grade, unmarshal_marshal grade, hid⟩

theorem WellFormed.of_value {ledger : Ledger} (h : WellFormed ledger) {key text : String}
    (hvalue : ledger.value key = some text) : key ≠ "" ∧ IsRecordOf key text :=
  h key text (Chain.mem_history_of_value hvalue)

/-- The record found under an ID has that id. -/
theorem WellFormed.id_of_stored {ledger : Ledger} (h : WellFormed ledger) {studentId : String}
    {student : Student} (hstored : storedStudent ledger studentId = .ok student) :
    student.id = studentId := by
  obtain ⟨text, hvalue, hdecoded⟩ := (storedStudent_eq_ok_iff ledger).mp hstored
  obtain ⟨decoded, hdecoded', hid⟩ := (h.of_value hvalue).2.student
  cases Except.ok.inj (hdecoded.symm.trans hdecoded')
  exact hid

/-- Every effect writes a record of its key. -/
theorem Effect.isRecordOf {ctx : Context} {ledger : Ledger} {command : Command}
    {read key text : String} (heffect : Effect ctx ledger command read key text)
    (h : WellFormed ledger) : key ≠ "" ∧ IsRecordOf key text := by
  cases heffect with
  | create accepts => exact ⟨accepts.keyed, Or.inl ⟨createdStudent ctx _, rfl, rfl⟩⟩
  | @update _ _ existOne student accepts =>
    exact ⟨accepts.keyed, Or.inl ⟨updatedStudent existOne student,
      (h.id_of_stored accepts.stored : existOne.id = _), rfl⟩⟩
  | grade accepts => exact ⟨accepts.keyed, Or.inr ⟨createdGrade ctx _ _, rfl, rfl⟩⟩

theorem WellFormed.cons {ledger : Ledger} (h : WellFormed ledger) {key text : String}
    (hkey : key ≠ "") (hrecord : IsRecordOf key text) : WellFormed ([(key, text)] :: ledger) := by
  intro key' text' hmem
  rw [Chain.history_cons_singleton] at hmem
  split_ifs at hmem with heq
  · cases heq
    rcases List.mem_cons.mp hmem with rfl | hmem
    · exact ⟨hkey, hrecord⟩
    · exact h _ _ hmem
  · exact h _ _ hmem

theorem Reaches.wellFormed {stub : Stub} {txs : List Transaction} {ledger : Ledger}
    (h : Reaches stub txs ledger) : WellFormed ledger := by
  refine h.induction (motive := fun _ ledger ↦ WellFormed ledger) (fun _ _ hmem ↦ by cases hmem) ?_
  intro tx earlier older read key text _ hwell heffect
  obtain ⟨hkey, hrecord⟩ := heffect.isRecordOf hwell
  exact hwell.cons hkey hrecord

theorem Reachable.wellFormed {stub : Stub} {ledger : Ledger} (h : Reachable stub ledger) :
    WellFormed ledger := by
  obtain ⟨txs, hreaches⟩ := h
  exact hreaches.wellFormed

/-! ### Reading back -/

/-- The student that the text under a key decodes to. -/
def recordAt (ledger : Ledger) (key : String) : Option Student :=
  (ledger.value key).bind fun text ↦ (unmarshal text : Except DecodeError Student).toOption

/-- The grade that a text decodes to. -/
def decodedGrade (text : String) : StudentGrade :=
  (unmarshal text : Except DecodeError StudentGrade).toOption.getD Struct.zero

theorem recordAt_eq_some_iff {ledger : Ledger} {key : String} {student : Student} :
    recordAt ledger key = some student ↔ storedStudent ledger key = .ok student := by
  unfold recordAt storedStudent
  cases ledger.value key with
  | none => simp
  | some text =>
    cases h : (unmarshal text : Except DecodeError Student) <;>
      simp [Except.toOption, Except.mapError, h]

theorem IsRecordOf.unmarshal_eq_decodedGrade {key text : String} (h : IsRecordOf key text) :
    unmarshal text = .ok (decodedGrade text) ∧ (decodedGrade text).id = key := by
  obtain ⟨grade, hdecoded, hid⟩ := h.grade
  have heq : decodedGrade text = grade := by
    rw [decodedGrade, hdecoded]
    rfl
  exact ⟨by rw [heq, hdecoded], by rw [heq, hid]⟩

/-- On a well-formed ledger `GetStudent` fails only where nothing is stored. -/
theorem storedStudent_of_wellFormed {ledger : Ledger} (h : WellFormed ledger) (studentId : String) :
    storedStudent ledger studentId = match recordAt ledger studentId with
      | some student => .ok student
      | none => .error (.returned (.studentNotFound studentId)) := by
  unfold recordAt storedStudent
  cases hvalue : ledger.value studentId with
  | none => rfl
  | some text =>
    obtain ⟨student, hdecoded, -⟩ := (h.of_value hvalue).2.student
    simp only [Option.bind_some, hdecoded]
    rfl

theorem iterate_cons (ledger : Ledger) (key : String) (keys : List String) :
    iterate ledger (key :: keys) =
      ((ledger.value key).map fun value ↦ .ok ⟨key, value⟩).toList ++ iterate ledger keys := by
  unfold iterate
  rw [List.filterMap_cons]
  cases ledger.value key <;> rfl

variable (ctx : Context) {ledger : Ledger}

/-- The listing decodes every record of its page and keeps those that the MSP may see. -/
theorem result_collectStudents (h : WellFormed ledger) (msp : String) (keys : List String) :
    (collectStudents msp (iterate ledger keys)).result (ctx.answer ledger) =
      .ok ((keys.filterMap (recordAt ledger)).filter fun student ↦
        msp = educationBureauMSP ∨ student.school = msp) := by
  induction keys with
  | nil => rfl
  | cons key keys ih =>
    rw [iterate_cons, List.filterMap_cons]
    cases hvalue : ledger.value key with
    | none => simpa [recordAt, hvalue] using ih
    | some text =>
      obtain ⟨student, hdecoded, -⟩ := (h.of_value hvalue).2.student
      have hrecord : recordAt ledger key = some student := by simp [recordAt, hvalue, hdecoded,
        Except.toOption]
      simp only [Option.map_some, Option.toList_some, List.cons_append, List.nil_append,
        collectStudents, Program.result_bind, result_orFail, Except.mapError, hdecoded, ih, hrecord,
        List.filter_cons, Program.result_pure, decide_eq_true_eq]

/-- The answer of `QueryAllStudents`. -/
theorem result_queryAllStudents (h : WellFormed ledger) (pageSize : Int64) (bookmark : String) :
    (queryAllStudents pageSize bookmark).result (ctx.answer ledger) =
      match affiliationCheck ctx.client managerAffiliations with
      | .error err => .error err
      | .ok _ =>
        match ctx.stub.keysByRange (sortedKeys ledger) "" "" pageSize.toInt32 bookmark with
        | .error err => .error (.returned (.stub err))
        | .ok page => .ok
          { items := (page.1.filterMap (recordAt ledger)).filter fun student ↦
              ctx.client.mspID = educationBureauMSP ∨ student.school = ctx.client.mspID
            bookmark := page.2 } := by
  unfold queryAllStudents
  simp only [Program.result_bind, result_assertManager, Program.result_ask, Context.answer,
    result_orFail, result_getMSPID]
  cases affiliationCheck ctx.client managerAffiliations with
  | error err => rfl
  | ok _ =>
    cases ctx.stub.keysByRange (sortedKeys ledger) "" "" pageSize.toInt32 bookmark with
    | error err => rfl
    | ok page => simp only [Except.map, Except.mapError, result_collectStudents ctx h,
        Program.result_pure]

/-- The entries that `QueryStudentGrades` lists for a key. -/
def historyEntries (stub : Stub) (ledger : Ledger) (key : String) : List StudentGrade :=
  match stub.historyForKey (ledger.history key) with
  | .ok values => values.map decodedGrade
  | .error _ => []

variable (ledger) in
theorem result_collectHistory {values : List String}
    (hdecode : ∀ value ∈ values, unmarshal value = .ok (decodedGrade value)) :
    (collectHistory (values.map .ok)).result (ctx.answer ledger) =
      .ok (values.map decodedGrade) := by
  induction values with
  | nil => rfl
  | cons value values ih =>
    have hvalue := hdecode value List.mem_cons_self
    have hrest := ih fun value hmem ↦ hdecode value (List.mem_cons_of_mem _ hmem)
    simp only [List.map_cons, collectHistory, Program.result_bind, result_orFail, Except.mapError,
      hvalue, hrest, Program.result_pure]

/-- The listed history of a key holds its committed values, which all decode as grades of it. -/
theorem historyEntries_eq {stub : Stub} (hstub : stub.Lawful) (h : WellFormed ledger)
    (key : String) :
    ∃ listed, stub.historyForKey (ledger.history key) = .ok listed ∧
      listed.Perm (ledger.history key) ∧ historyEntries stub ledger key = listed.map decodedGrade ∧
      ∀ value ∈ listed,
        unmarshal value = .ok (decodedGrade value) ∧ (decodedGrade value).id = key := by
  obtain ⟨listed, hlisted, hperm⟩ := hstub.historyForKey_perm (ledger.history key)
  refine ⟨listed, hlisted, hperm, by rw [historyEntries, hlisted], fun value hvalue ↦ ?_⟩
  exact (h key value (hperm.mem_iff.mp hvalue)).2.unmarshal_eq_decodedGrade

/-- The outer loop lists the histories of the keys it iterates. -/
theorem result_collectGrades (hstub : ctx.stub.Lawful) (h : WellFormed ledger)
    (keys : List String) :
    (collectGrades (iterate ledger keys)).result (ctx.answer ledger) =
      .ok (keys.flatMap (historyEntries ctx.stub ledger)) := by
  induction keys with
  | nil => rfl
  | cons key keys ih =>
    rw [iterate_cons, List.flatMap_cons]
    obtain ⟨listed, hlisted, hperm, hentries, hdecode⟩ := historyEntries_eq hstub h key
    cases hvalue : ledger.value key with
    | none =>
      have hnil : listed = [] := by
        rw [← List.perm_nil, ← List.head?_eq_none_iff.mp hvalue]
        exact hperm
      rw [hentries, hnil]
      exact ih
    | some text =>
      have hrecord := (h.of_value hvalue).2.unmarshal_eq_decodedGrade
      have hhistory := result_collectHistory ctx ledger fun value hmem ↦ (hdecode value hmem).1
      simp only [Option.map_some, Option.toList_some, List.cons_append, List.nil_append,
        collectGrades, Program.result_bind, Program.result_ask, Context.answer, result_orFail,
        hrecord.1, hrecord.2, hlisted, Except.map, Except.mapError, hhistory, ih,
        Program.result_pure, hentries]

/-- The answer of `QueryStudentGrades`. -/
theorem result_queryStudentGrades (hstub : ctx.stub.Lawful) (h : WellFormed ledger)
    (studentId : String) :
    (queryStudentGrades studentId).result (ctx.answer ledger) =
      match queriedStudent ledger ctx.client studentId with
      | .error err => .error err
      | .ok _ =>
        match ctx.stub.keysByPartialCompositeKey (sortedKeys ledger) compositeKeyStudentGrade
            [studentId] with
        | .error err => .error (.returned (.stub err))
        | .ok keys => .ok (keys.flatMap (historyEntries ctx.stub ledger)) := by
  unfold queryStudentGrades
  simp only [Program.result_bind, result_queryStudent, Program.result_ask, Context.answer,
    result_orFail]
  cases hqueried : queriedStudent ledger ctx.client studentId with
  | error err => rfl
  | ok student =>
    obtain ⟨-, hstored, -⟩ := (queriedStudent_eq_ok_iff ledger).mp hqueried
    simp only [h.id_of_stored hstored]
    cases ctx.stub.keysByPartialCompositeKey (sortedKeys ledger) compositeKeyStudentGrade
        [studentId] with
    | error err => rfl
    | ok keys => exact result_collectGrades ctx hstub h keys

/-! ### No poison record -/

/-- The key whose history an event asks for. -/
def historyKeyOf : Event Call Reply → Option String
  | ⟨.getHistoryForKey key, _⟩ => some key
  | _ => none

/-- The keys that an iterator over a partial composite key yields. -/
def iteratedKeysOf : Event Call Reply → Option (List String)
  | ⟨.getStateByPartialCompositeKey _ _, .ok items⟩ =>
    some (items.filterMap fun item ↦ item.toOption.map KV.key)
  | _ => none

/-- The histories that the outer loop asks for are those of the keys it iterates. -/
theorem historyKeys_collectGrades (hstub : ctx.stub.Lawful) (h : WellFormed ledger)
    (keys : List String) :
    (collectGrades (iterate ledger keys)).observed (ctx.answer ledger) historyKeyOf =
      (iterate ledger keys).filterMap fun item ↦ item.toOption.map KV.key := by
  induction keys with
  | nil => rfl
  | cons key keys ih =>
    rw [iterate_cons]
    obtain ⟨listed, hlisted, -, -, hdecode⟩ := historyEntries_eq hstub h key
    cases hvalue : ledger.value key with
    | none => exact ih
    | some text =>
      have hrecord := (h.of_value hvalue).2.unmarshal_eq_decodedGrade
      have hhistory := result_collectHistory ctx ledger fun value hmem ↦ (hdecode value hmem).1
      simp [collectGrades, Context.answer, hrecord.1, hrecord.2, hlisted, Except.map,
        Except.mapError, hhistory, observed_collectHistory, result_collectGrades ctx hstub h, ih,
        historyKeyOf, Except.toOption]

theorem historyKeyOf_identity {event : Event Call Reply} (h : event.1.IsIdentity) :
    historyKeyOf event = none := by
  obtain ⟨request, reply⟩ := event
  cases request <;> first | rfl | exact h.elim

theorem iteratedKeysOf_identity {event : Event Call Reply} (h : event.1.IsIdentity) :
    iteratedKeysOf event = none := by
  obtain ⟨request, reply⟩ := event
  cases request <;> first | rfl | exact h.elim

theorem iteratedKeys_collectGrades (items : List (Except StubError KV)) :
    (collectGrades items).observed (ctx.answer ledger) iteratedKeysOf = [] :=
  (uses_collectGrades items).observed_eq_nil fun event hevent ↦ by
    obtain ⟨request, reply⟩ := event
    obtain ⟨key, rfl⟩ := hevent
    rfl

/-- `QueryStudentGrades` asks for the histories of exactly the keys it iterates. -/
theorem historyKeys_queryStudentGrades (hstub : ctx.stub.Lawful) (h : WellFormed ledger)
    (studentId : String) :
    (queryStudentGrades studentId).observed (ctx.answer ledger) historyKeyOf =
      ((queryStudentGrades studentId).observed (ctx.answer ledger) iteratedKeysOf).flatten := by
  unfold queryStudentGrades
  rw [Program.observed_bind, Program.observed_bind, result_queryStudent,
    observed_queryStudent ctx ledger (fun _ ↦ historyKeyOf_identity) (fun _ _ ↦ rfl),
    observed_queryStudent ctx ledger (fun _ ↦ iteratedKeysOf_identity) (fun _ _ ↦ rfl)]
  cases queriedStudent ledger ctx.client studentId with
  | error err => rfl
  | ok student =>
    cases hkeys : ctx.stub.keysByPartialCompositeKey (sortedKeys ledger) compositeKeyStudentGrade
        [student.id] with
    | error err => simp [Context.answer, hkeys, Except.map, Except.mapError, historyKeyOf,
        iteratedKeysOf]
    | ok keys => simp [Context.answer, hkeys, Except.map, Except.mapError, historyKeyOf,
        iteratedKeysOf, iteratedKeys_collectGrades, historyKeys_collectGrades ctx hstub h]

/-- The run took a branch that returns the error of `json.Unmarshal`. -/
def FailsToDecode {α : Type} : Except Abort α → Prop
  | .error (.returned (.failedToUnmarshalStudent _)) | .error (.returned (.json _)) => True
  | _ => False

theorem affiliationCheck_not_failsToDecode {α : Type} {client : ClientIdentity}
    {requiredAffiliations : List String} {abort : Abort}
    (h : affiliationCheck client requiredAffiliations = .error abort) :
    ¬ FailsToDecode (.error abort : Except Abort α) := by
  unfold affiliationCheck at h
  split_ifs at h
  split at h
  · cases h
    exact id
  · split at h <;> cases h <;> exact id

theorem storedStudent_not_failsToDecode (h : WellFormed ledger) (studentId : String) :
    ¬ FailsToDecode (storedStudent ledger studentId) := by
  rw [storedStudent_of_wellFormed h]
  cases recordAt ledger studentId <;> exact id

theorem queriedStudent_not_failsToDecode {α : Type} (h : WellFormed ledger)
    {client : ClientIdentity} {studentId : String} {abort : Abort}
    (hqueried : queriedStudent ledger client studentId = .error abort) :
    ¬ FailsToDecode (.error abort : Except Abort α) := by
  unfold queriedStudent at hqueried
  split at hqueried
  · next hcheck =>
    cases hqueried
    split_ifs at hcheck
    exact affiliationCheck_not_failsToDecode hcheck
  · split at hqueried
    · next hstored =>
      cases hqueried
      have hdecode := hstored ▸ storedStudent_not_failsToDecode h studentId
      cases abort with
      | panic => exact id
      | returned err => cases err <;> first | exact id | exact hdecode
    · split_ifs at hqueried
      cases hqueried
      exact id

/-- No committed value, current or past, is undecodable or carries another id than its key, so no
operation that reads values back takes its decode-error branch, and the grade query looks up the
histories of exactly the keys it iterates. -/
theorem no_poison_record {stub : Stub} (hstub : stub.Lawful) {ledger : Ledger}
    (h : Reachable stub ledger) :
    (∀ key, ∀ text ∈ ledger.history key, key ≠ "" ∧
      (∃ student : Student, unmarshal text = .ok student ∧ student.id = key) ∧
      ∃ grade : StudentGrade, unmarshal text = .ok grade ∧ grade.id = key) ∧
    ∀ client now studentId,
      ¬ FailsToDecode ((getStudent studentId).result
        (Context.answer ⟨stub, client, now⟩ ledger)) ∧
      (∀ pageSize bookmark, ¬ FailsToDecode ((queryAllStudents pageSize bookmark).result
        (Context.answer ⟨stub, client, now⟩ ledger))) ∧
      ¬ FailsToDecode ((queryStudentGrades studentId).result
        (Context.answer ⟨stub, client, now⟩ ledger)) ∧
      (queryStudentGrades studentId).observed (Context.answer ⟨stub, client, now⟩ ledger)
          historyKeyOf =
        ((queryStudentGrades studentId).observed (Context.answer ⟨stub, client, now⟩ ledger)
          iteratedKeysOf).flatten := by
  have hwell := h.wellFormed
  refine ⟨fun key text hmem ↦ ?_, fun client now studentId ↦ ⟨?_, ?_, ?_, ?_⟩⟩
  · obtain ⟨hkey, hrecord⟩ := hwell key text hmem
    exact ⟨hkey, hrecord.student, hrecord.grade⟩
  · rw [result_getStudent]
    exact storedStudent_not_failsToDecode hwell studentId
  · intro pageSize bookmark
    rw [result_queryAllStudents _ hwell]
    split
    · next hcheck => exact affiliationCheck_not_failsToDecode hcheck
    · split <;> exact id
  · rw [result_queryStudentGrades ⟨stub, client, now⟩ hstub hwell]
    split
    · next hqueried => exact queriedStudent_not_failsToDecode hwell hqueried
    · split <;> exact id
  · exact historyKeys_queryStudentGrades ⟨stub, client, now⟩ hstub hwell studentId

/-- The grades of a student who was graded once are listed without a decode error. -/
theorem no_poison_record_grading :
    ¬ FailsToDecode ((queryStudentGrades "s1").result
      (Context.answer ⟨fabricStub, school1Manager, noon⟩
        [[(adaGrade.id, marshal adaGrade)], [("s1", marshal ada)]])) :=
  ((no_poison_record fabricStub_lawful ⟨_, reaches_grading⟩).2 school1Manager noon "s1").2.2.1

end StudentStatus.Chaincode
