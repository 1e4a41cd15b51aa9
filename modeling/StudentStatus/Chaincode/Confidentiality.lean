import StudentStatus.Chaincode.GradeListing

/-!
# Confidentiality between schools

Two ledgers look alike to a client of a school when they have the same keys and schools and agree on
the records of that school and on the grades that its clients may list (`LookAlike`). On such
ledgers every operation but one answers the client alike: the records are filtered by school before
they are returned, and the writers answer by what exists. The exception is the listing of grades,
which shows how often a key was written that begins like a grade key of the student without being
one (`StrayKeysAlike`, `response_eq_iff`).
-/

set_option autoImplicit false
set_option relaxedAutoImplicit false

namespace StudentStatus.Chaincode

open Interaction Optimistic Json

/-- What the client may know of two ledgers is the same: the keys, the school of every record, the
records of the client's school, the record under the client's own ID, and the histories of the grade
keys of the students of the client's school and of the client. -/
structure LookAlike (stub : Stub) (client : ClientIdentity) (ledger other : Ledger) : Prop where
  keys : ∀ key, (other.value key).isSome = (ledger.value key).isSome
  school : ∀ key, (recordAt other key).map Student.school = (recordAt ledger key).map Student.school
  records : ∀ key student, recordAt ledger key = some student → student.school = client.mspID →
    other.value key = ledger.value key
  own : other.value client.id = ledger.value client.id
  grades : ∀ studentID school key,
    (studentID = client.id ∨
      ∃ student, recordAt ledger studentID = some student ∧ student.school = client.mspID) →
    stub.createCompositeKey compositeKeyStudentGrade [studentID, school] = .ok key →
    other.history key = ledger.history key

/-- The keys that extend the partial key of the student's grades without being a grade key of the
student at some school were written equally often. -/
def StrayKeysAlike (stub : Stub) (ledger other : Ledger) (studentID : String) : Prop :=
  ∀ start key, stub.createCompositeKey compositeKeyStudentGrade [studentID] = .ok start →
    extendsKey start key →
    (∀ school, stub.createCompositeKey compositeKeyStudentGrade [studentID, school] ≠ .ok key) →
    (other.history key).length = (ledger.history key).length

/-- The operation is no listing of grades, or the client may not see the student, or the stray keys
of the student were written equally often. -/
def RevealsNothing (stub : Stub) (client : ClientIdentity) (ledger other : Ledger) :
    Invocation → Prop
  | .query (.queryStudentGrades studentID) =>
    (∃ student, queriedStudent ledger client studentID = .ok student) →
      StrayKeysAlike stub ledger other studentID
  | _ => True

variable {stub : Stub} {client : ClientIdentity} {ledger other : Ledger}

/-! ### What the client can see -/

theorem recordAt_congr {key : String} (h : other.value key = ledger.value key) :
    recordAt other key = recordAt ledger key := by
  unfold recordAt
  rw [h]

namespace LookAlike

variable (h : LookAlike stub client ledger other)

include h

theorem sortedKeys_eq : sortedKeys other = sortedKeys ledger := by
  have hperm : (sortedKeys other).Perm (sortedKeys ledger) :=
    (List.perm_ext_iff_of_nodup (nodup_sortedKeys other) (nodup_sortedKeys ledger)).mpr fun key ↦ by
      rw [mem_sortedKeys, mem_sortedKeys, h.keys]
  exact hperm.eq_of_pairwise' (List.pairwise_insertionSort _ _) (List.pairwise_insertionSort _ _)

/-- A record that the client may see is the same in both ledgers. -/
theorem recordAt_eq_of_school {key : String} {student : Student}
    (hrecord : recordAt ledger key = some student) (hschool : student.school = client.mspID) :
    recordAt other key = some student := by
  rw [recordAt_congr (h.records key student hrecord hschool), hrecord]

/-- At every key both ledgers have no record, or the same one, or records of another school. -/
theorem record_cases (key : String) :
    recordAt other key = recordAt ledger key ∨
      ∃ student student', recordAt ledger key = some student ∧ recordAt other key = some student' ∧
        student.school ≠ client.mspID ∧ student'.school ≠ client.mspID := by
  have hschool := h.school key
  cases hrecord : recordAt ledger key with
  | none =>
    rw [hrecord, Option.map_none, Option.map_eq_none_iff] at hschool
    exact Or.inl hschool
  | some student =>
    by_cases hown : student.school = client.mspID
    · exact Or.inl (h.recordAt_eq_of_school hrecord hown)
    · rw [hrecord, Option.map_some, Option.map_eq_some_iff] at hschool
      obtain ⟨student', hrecord', hsame⟩ := hschool
      exact Or.inr ⟨student, student', rfl, hrecord', hown, hsame ▸ hown⟩

/-- The answer of `CreateStudent` is the same. -/
theorem result_createStudent_eq (now : Time) (studentJSON : String) :
    (createStudent studentJSON).result (Context.answer ⟨stub, client, now⟩ other) =
      (createStudent studentJSON).result (Context.answer ⟨stub, client, now⟩ ledger) := by
  unfold createStudent
  simp [Context.answer, h.keys]

variable (hwell : WellFormed ledger) (hwell' : WellFormed other)

include hwell hwell'

/-- The answer of `UpdateStudent` is the same. -/
theorem result_updateStudent_eq (now : Time) (studentID studentUpdateJSON : String) :
    (updateStudent studentID studentUpdateJSON).result (Context.answer ⟨stub, client, now⟩ other) =
      (updateStudent studentID studentUpdateJSON).result
        (Context.answer ⟨stub, client, now⟩ ledger) := by
  rw [result_updateStudent, result_updateStudent, storedStudent_of_wellFormed hwell,
    storedStudent_of_wellFormed hwell']
  rcases h.record_cases studentID with heq | ⟨student, student', hrecord, hrecord', -, -⟩
  · rw [heq]
  · rw [hrecord, hrecord']

variable (hschool : client.mspID ≠ educationBureauMSP)

include hschool

/-- The answer of `QueryStudent` is the same. -/
theorem queriedStudent_eq (studentID : String) :
    queriedStudent other client studentID = queriedStudent ledger client studentID := by
  by_cases hid : client.id = studentID
  · have hstored : storedStudent other studentID = storedStudent ledger studentID :=
      storedStudent_congr (hid ▸ h.own)
    unfold queriedStudent
    rw [hstored]
  · have hdenied (student : Student) (hforeign : student.school ≠ client.mspID) :
        ¬ MaySee client studentID student := by
      simp [MaySee, hid, hschool, hforeign.symm]
    unfold queriedStudent
    rw [storedStudent_of_wellFormed hwell, storedStudent_of_wellFormed hwell']
    rcases h.record_cases studentID with heq | ⟨student, student', hrecord, hrecord', hown, hown'⟩
    · rw [heq]
    · simp only [hrecord, hrecord', if_neg (hdenied _ hown), if_neg (hdenied _ hown')]

/-- The answer of `QueryAllStudents` is the same. -/
theorem result_queryAllStudents_eq (now : Time) (pageSize : Int64) (bookmark : String) :
    (queryAllStudents pageSize bookmark).result (Context.answer ⟨stub, client, now⟩ other) =
      (queryAllStudents pageSize bookmark).result (Context.answer ⟨stub, client, now⟩ ledger) := by
  have hkey (key : String) :
      (recordAt other key).filter (fun student ↦
        client.mspID = educationBureauMSP ∨ student.school = client.mspID) =
      (recordAt ledger key).filter fun student ↦
        client.mspID = educationBureauMSP ∨ student.school = client.mspID := by
    rcases h.record_cases key with heq | ⟨student, student', hrecord, hrecord', hown, hown'⟩
    · rw [heq]
    · rw [hrecord, hrecord', Option.filter_some, Option.filter_some]
      simp [hschool, hown, hown']
  have hpage (page : List String) :
      (page.filterMap (recordAt other)).filter (fun student ↦
        client.mspID = educationBureauMSP ∨ student.school = client.mspID) =
      (page.filterMap (recordAt ledger)).filter fun student ↦
        client.mspID = educationBureauMSP ∨ student.school = client.mspID := by
    rw [List.filter_filterMap, List.filter_filterMap]
    exact congrFun (congrArg List.filterMap (funext hkey)) page
  rw [result_queryAllStudents _ hwell, result_queryAllStudents _ hwell', h.sortedKeys_eq]
  simp only [hpage]

/-- The answer of `CreateStudentGrade` is the same. -/
theorem result_createStudentGrade_eq (now : Time) (studentID gradeJSON : String) :
    (createStudentGrade studentID gradeJSON).result (Context.answer ⟨stub, client, now⟩ other) =
      (createStudentGrade studentID gradeJSON).result
        (Context.answer ⟨stub, client, now⟩ ledger) := by
  unfold createStudentGrade
  simp [Context.answer, result_queryStudent, h.queriedStudent_eq hwell hwell' hschool]

end LookAlike

/-! ### The listing of grades -/

/-- The entries that carry a key as their tag, among the entries of all keys. -/
theorem filter_flatMap_tag {κ ε : Type} [DecidableEq κ] {keys : List κ} {entries : κ → List ε}
    {tag : ε → κ} (hnodup : keys.Nodup) (htag : ∀ key, ∀ entry ∈ entries key, tag entry = key)
    {key : κ} (hmem : key ∈ keys) :
    (keys.flatMap entries).filter (fun entry ↦ tag entry = key) = entries key := by
  induction keys with
  | nil => cases hmem
  | cons first keys ih =>
    obtain ⟨hfirst, hrest⟩ := List.nodup_cons.mp hnodup
    rw [List.flatMap_cons, List.filter_append]
    by_cases heq : first = key
    · subst heq
      have hall : (entries first).filter (fun entry ↦ tag entry = first) = entries first :=
        List.filter_eq_self.mpr fun entry hentry ↦ decide_eq_true (htag first entry hentry)
      have hnone : (keys.flatMap entries).filter (fun entry ↦ tag entry = first) = [] := by
        refine List.filter_eq_nil_iff.mpr fun entry hentry htagged ↦ hfirst ?_
        obtain ⟨other, hother, hentry⟩ := List.mem_flatMap.mp hentry
        rw [← of_decide_eq_true htagged, htag other entry hentry]
        exact hother
      rw [hall, hnone, List.append_nil]
    · have hnone : (entries first).filter (fun entry ↦ tag entry = key) = [] :=
        List.filter_eq_nil_iff.mpr fun entry hentry htagged ↦
          heq ((htag first entry hentry).symm.trans (of_decide_eq_true htagged))
      rw [hnone, List.nil_append]
      exact ih hrest (List.mem_of_ne_of_mem (Ne.symm heq) hmem)

theorem id_of_mem_historyEntries (hstub : stub.Lawful) (hwell : WellFormed ledger) {key : String}
    {entry : StudentGrade} (hmem : entry ∈ historyEntries stub ledger key) : entry.id = key := by
  obtain ⟨listed, -, -, hentries, hdecode⟩ := historyEntries_eq hstub hwell key
  rw [hentries] at hmem
  obtain ⟨text, htext, rfl⟩ := List.mem_map.mp hmem
  exact (hdecode text htext).2

theorem length_historyEntries (hstub : stub.Lawful) (hwell : WellFormed ledger) (key : String) :
    (historyEntries stub ledger key).length = (ledger.history key).length := by
  obtain ⟨listed, -, hperm, hentries, -⟩ := historyEntries_eq hstub hwell key
  rw [hentries, List.length_map, hperm.length_eq]

/-- Of a key that is no grade key the listing shows how often it was written and nothing else. -/
theorem historyEntries_eq_replicate (hstub : stub.Lawful) (h : Reachable stub ledger)
    {key : String} (hkey : ¬ IsGradeKey stub key) :
    historyEntries stub ledger key =
      List.replicate (ledger.history key).length (StudentGrade.ofId key) := by
  obtain ⟨txs, hreaches⟩ := h
  have hwell := hreaches.wellFormed
  obtain ⟨listed, -, hperm, hentries, hdecode⟩ := historyEntries_eq hstub hwell key
  refine List.eq_replicate_iff.mpr ⟨length_historyEntries hstub hwell key, fun entry hmem ↦ ?_⟩
  rw [hentries] at hmem
  obtain ⟨text, htext, rfl⟩ := List.mem_map.mp hmem
  obtain ⟨student, rfl⟩ :=
    (hreaches.student_or_isGradeKey (hperm.mem_iff.mp htext)).resolve_right hkey
  obtain ⟨hdecoded, hid⟩ := hdecode _ htext
  rw [unmarshal_grade_marshal_student, Except.ok.injEq] at hdecoded
  rw [← hdecoded] at hid ⊢
  exact congrArg StudentGrade.ofId hid

/-- The listing shows of every key that it walks how often the key was written. -/
theorem length_filter_listedGrades (hstub : stub.Lawful) (hwell : WellFormed ledger)
    {start key : String} (hextends : extendsKey start key) :
    ((listedGrades stub ledger start).filter fun entry ↦ entry.id = key).length =
      (ledger.history key).length := by
  by_cases hmem : key ∈ gradeKeys ledger start
  · have hnodup : (gradeKeys ledger start).Nodup := (nodup_sortedKeys ledger).filter _
    rw [listedGrades,
      filter_flatMap_tag hnodup (fun _ _ ↦ id_of_mem_historyEntries hstub hwell) hmem,
      length_historyEntries hstub hwell]
  · have hnone : ledger.history key = [] := by
      by_contra hwritten
      exact hmem (mem_gradeKeys.mpr ⟨Chain.value_isSome_iff.mpr hwritten, hextends⟩)
    have hfilter : (listedGrades stub ledger start).filter (fun entry ↦ entry.id = key) = [] := by
      refine List.filter_eq_nil_iff.mpr fun entry hentry htagged ↦ hmem ?_
      obtain ⟨walked, hwalked, hentry⟩ := List.mem_flatMap.mp hentry
      rw [← of_decide_eq_true htagged, id_of_mem_historyEntries hstub hwell hentry]
      exact hwalked
    rw [hfilter, hnone, List.length_nil, List.length_nil]

namespace LookAlike

variable (h : LookAlike stub client ledger other) (hstub : stub.Lawful)
  (hreachable : Reachable stub ledger) (hreachable' : Reachable stub other)
  (hschool : client.mspID ≠ educationBureauMSP)

include h hstub hreachable hreachable' hschool

/-- A key that the listing walks shows the same entries when it is a grade key of the student or was
written equally often. -/
theorem historyEntries_eq {studentID start key : String} {student : Student}
    (hqueried : queriedStudent ledger client studentID = .ok student)
    (hstart : stub.createCompositeKey compositeKeyStudentGrade [studentID] = .ok start)
    (hextends : extendsKey start key)
    (hlength : (∀ school,
      stub.createCompositeKey compositeKeyStudentGrade [studentID, school] ≠ .ok key) →
      (other.history key).length = (ledger.history key).length) :
    historyEntries stub other key = historyEntries stub ledger key := by
  by_cases hcomposite : ∃ school,
      stub.createCompositeKey compositeKeyStudentGrade [studentID, school] = .ok key
  · obtain ⟨school, hkey⟩ := hcomposite
    obtain ⟨-, hstored, hvisible⟩ := (queriedStudent_eq_ok_iff ledger).mp hqueried
    have hclient : studentID = client.id ∨ ∃ student,
        recordAt ledger studentID = some student ∧ student.school = client.mspID :=
      hvisible.imp Eq.symm fun hmsp ↦
        ⟨student, recordAt_eq_some_iff.mpr hstored, (hmsp.resolve_left hschool).symm⟩
    unfold historyEntries
    rw [h.grades studentID school key hclient hkey]
  · have hkey : ¬ IsGradeKey stub key := fun hgrade ↦
      hcomposite (hgrade.compositeKey hstub hstart hextends)
    rw [historyEntries_eq_replicate hstub hreachable hkey,
      historyEntries_eq_replicate hstub hreachable' hkey, hlength (not_exists.mp hcomposite)]

/-- A client that may see the student gets the same listing of grades exactly when the stray keys of
the student were written equally often. -/
theorem listedGrades_eq_iff {studentID start : String} {student : Student}
    (hqueried : queriedStudent ledger client studentID = .ok student)
    (hstart : stub.createCompositeKey compositeKeyStudentGrade [studentID] = .ok start) :
    listedGrades stub other start = listedGrades stub ledger start ↔
      StrayKeysAlike stub ledger other studentID := by
  constructor
  · intro hlisted start' key hstart' hextends _
    cases Except.ok.inj (hstart.symm.trans hstart')
    rw [← length_filter_listedGrades hstub hreachable.wellFormed hextends,
      ← length_filter_listedGrades hstub hreachable'.wellFormed hextends, hlisted]
  · intro hstray
    have hkeys : gradeKeys other start = gradeKeys ledger start := by
      rw [gradeKeys, h.sortedKeys_eq, gradeKeys]
    rw [listedGrades, listedGrades, hkeys]
    refine List.flatMap_congr fun key hmem ↦ ?_
    have hextends := (mem_gradeKeys.mp hmem).2
    exact h.historyEntries_eq hstub hreachable hreachable' hschool hqueried hstart hextends
      (hstray start key hstart hextends)

end LookAlike

/-! ### Responses -/

section Wrap

variable {α : Type} {program : Contract α} {wrap : α → Response}
  {answer answer' : (call : Call) → Reply call}

/-- A query that wraps what a program returns answers alike when the program does. -/
theorem result_wrap_congr (h : program.result answer = program.result answer') :
    (program >>= fun value ↦ pure (wrap value)).result answer =
      (program >>= fun value ↦ pure (wrap value)).result answer' := by
  simp only [Program.result_bind, Program.result_pure, h]

theorem result_wrap_eq_iff (hwrap : Function.Injective wrap) :
    (program >>= fun value ↦ pure (wrap value)).result answer =
        (program >>= fun value ↦ pure (wrap value)).result answer' ↔
      program.result answer = program.result answer' := by
  rw [Program.result_bind, Program.result_bind]
  cases program.result answer <;> cases program.result answer' <;> simp [hwrap.eq_iff]

end Wrap

theorem response_command_congr {ctx : Context} {command : Command}
    (hresult : command.run.result (ctx.answer other) = command.run.result (ctx.answer ledger)) :
    (endorse ctx other (.command command)).response =
      (endorse ctx ledger (.command command)).response := by
  unfold endorse Invocation.run
  simp [hresult]

section Response

variable (hstub : stub.Lawful) (hreachable : Reachable stub ledger)
  (hreachable' : Reachable stub other) (hschool : client.mspID ≠ educationBureauMSP)
  (h : LookAlike stub client ledger other) (now : Time)

include hstub hreachable hreachable' hschool h

/-- Where the client may see the student, the listing of grades is answered alike exactly when the
stray keys of the student were written equally often. -/
theorem response_queryStudentGrades_eq_iff {studentID start : String} {student : Student}
    (hqueried : queriedStudent ledger client studentID = .ok student)
    (hstart : stub.createCompositeKey compositeKeyStudentGrade [studentID] = .ok start) :
    (endorse ⟨stub, client, now⟩ other (.query (.queryStudentGrades studentID))).response =
        (endorse ⟨stub, client, now⟩ ledger (.query (.queryStudentGrades studentID))).response ↔
      StrayKeysAlike stub ledger other studentID := by
  have hwell := hreachable.wellFormed
  have hwell' := hreachable'.wellFormed
  have hqueried' : queriedStudent other client studentID = .ok student := by
    rw [h.queriedStudent_eq hwell hwell' hschool, hqueried]
  have hwrap : Function.Injective Response.grades := fun _ _ ↦ Response.grades.inj
  refine (result_wrap_eq_iff hwrap).trans ?_
  rw [result_queryStudentGrades_listed hstub hwell now hqueried hstart,
    result_queryStudentGrades_listed hstub hwell' now hqueried' hstart, Except.ok.injEq,
    h.listedGrades_eq_iff hstub hreachable hreachable' hschool hqueried hstart]

/-- A listing of grades that is refused is refused alike. -/
theorem response_queryStudentGrades_congr {studentID : String}
    (hrefused : ∀ student start, queriedStudent ledger client studentID = .ok student →
      stub.createCompositeKey compositeKeyStudentGrade [studentID] ≠ .ok start) :
    (endorse ⟨stub, client, now⟩ other (.query (.queryStudentGrades studentID))).response =
      (endorse ⟨stub, client, now⟩ ledger (.query (.queryStudentGrades studentID))).response := by
  have hwell := hreachable.wellFormed
  have hwell' := hreachable'.wellFormed
  refine result_wrap_congr ?_
  rw [result_queryStudentGrades _ hstub hwell, result_queryStudentGrades _ hstub hwell']
  simp only [h.queriedStudent_eq hwell hwell' hschool studentID, h.sortedKeys_eq]
  cases hqueried : queriedStudent ledger client studentID with
  | error abort => rfl
  | ok student =>
    cases hstart : stub.createCompositeKey compositeKeyStudentGrade [studentID] with
    | error err =>
      obtain ⟨err', herr⟩ :=
        hstub.keysByPartialCompositeKey_error (sortedKeys ledger) _ _ _ hstart
      simp only [herr]
    | ok start => exact absurd hstart (hrefused student start hqueried)

/-- To a client of a school, two reachable ledgers that look alike answer an operation alike exactly
when it reveals nothing through stray keys. -/
theorem response_eq_iff (invocation : Invocation) :
    (endorse ⟨stub, client, now⟩ other invocation).response =
        (endorse ⟨stub, client, now⟩ ledger invocation).response ↔
      RevealsNothing stub client ledger other invocation := by
  have hwell := hreachable.wellFormed
  have hwell' := hreachable'.wellFormed
  cases invocation with
  | command command =>
    refine iff_of_true (response_command_congr ?_) trivial
    cases command with
    | createStudent studentJSON => exact h.result_createStudent_eq now studentJSON
    | updateStudent studentID studentUpdateJSON =>
      exact h.result_updateStudent_eq hwell hwell' now studentID studentUpdateJSON
    | createStudentGrade studentID gradeJSON =>
      exact h.result_createStudentGrade_eq hwell hwell' hschool now studentID gradeJSON
  | query query =>
    cases query with
    | initLedger => exact iff_of_true rfl trivial
    | studentExists studentID =>
      refine iff_of_true (result_wrap_congr ?_) trivial
      rw [result_studentExists, result_studentExists, h.keys]
    | queryStudent studentID =>
      refine iff_of_true (result_wrap_congr ?_) trivial
      rw [result_queryStudent, result_queryStudent]
      exact h.queriedStudent_eq hwell hwell' hschool studentID
    | queryAllStudents pageSize bookmark =>
      refine iff_of_true (result_wrap_congr ?_) trivial
      exact h.result_queryAllStudents_eq hwell hwell' hschool now pageSize bookmark
    | queryStudentGrades studentID =>
      by_cases hanswered : ∃ student start, queriedStudent ledger client studentID = .ok student ∧
          stub.createCompositeKey compositeKeyStudentGrade [studentID] = .ok start
      · obtain ⟨student, start, hqueried, hstart⟩ := hanswered
        rw [response_queryStudentGrades_eq_iff hstub hreachable hreachable' hschool h now hqueried
          hstart]
        exact ⟨fun hstray _ ↦ hstray, fun hreveals ↦ hreveals ⟨student, hqueried⟩⟩
      · simp only [not_exists, not_and] at hanswered
        refine iff_of_true (response_queryStudentGrades_congr hstub hreachable hreachable' hschool h
          now hanswered) ?_
        rintro ⟨student, hqueried⟩ start key hstart
        exact absurd hstart (hanswered student start hqueried)

end Response

/-! ### Ledgers that look alike -/

theorem recordAt_cons (older : Ledger) (key other : String) (student : Student) :
    recordAt ([(key, marshal student)] :: older) other =
      if key = other then some student else recordAt older other := by
  unfold recordAt
  rw [Chain.value_cons_singleton]
  split_ifs
  · rw [Option.bind_some, unmarshal_marshal]
    rfl
  · rfl

/-- Another student of the second school with the stray ID. -/
def eva : Student := { eve with name := "Eva", major := "Law" }

theorem reachable_eva : Reachable fabricStub [[(eve.id, marshal eva)], [("s1", marshal ada)]] :=
  have hreaches : Reaches fabricStub
      [⟨school2Manager, noon, .createStudent (marshal eva)⟩, enrolment] _ :=
    reaches_enrolment.cons (effect_stray rfl (by decide +kernel) rfl)
  ⟨_, hreaches⟩

theorem length_history_eva (key : String) :
    (Chain.history [[(eve.id, marshal eva)], [("s1", marshal ada)]] key).length =
      (Chain.history [[(eve.id, marshal eve)], [("s1", marshal ada)]] key).length := by
  by_cases hkey : eve.id = key
  · simp only [Chain.history_cons_singleton (eve.id, _), if_pos hkey, List.length_cons]
  · simp only [Chain.history_cons_singleton (eve.id, _), if_neg hkey]

/-- The two students have the same school, which is not the first, and their ID is no grade key. -/
theorem lookAlike_eva :
    LookAlike fabricStub school1Manager [[(eve.id, marshal eve)], [("s1", marshal ada)]]
      [[(eve.id, marshal eva)], [("s1", marshal ada)]] where
  keys key := by
    rw [Bool.eq_iff_iff, Chain.value_isSome_iff, Chain.value_isSome_iff, ← List.length_pos_iff,
      ← List.length_pos_iff, length_history_eva]
  school key := by
    rw [recordAt_cons, recordAt_cons _ eve.id]
    by_cases hkey : eve.id = key
    · rw [if_pos hkey, if_pos hkey, Option.map_some, Option.map_some, eva]
    · rw [if_neg hkey, if_neg hkey]
  records key student hrecord hschool := by
    rw [recordAt_cons] at hrecord
    by_cases hkey : eve.id = key
    · rw [if_pos hkey, Option.some.injEq] at hrecord
      rw [← hrecord] at hschool
      exact absurd hschool (by decide)
    · simp only [Chain.value_cons_singleton, if_neg hkey]
  own := by
    have hclient : eve.id ≠ school1Manager.id := by decide +kernel
    simp only [Chain.value_cons_singleton, if_neg hclient]
  grades studentID school key _ hkey := by
    have hne : eve.id ≠ key := by
      rintro rfl
      exact createCompositeKey_ne_eve _ hkey
    simp only [Chain.history_cons_singleton, if_neg hne]

/-- The first school lists an entry for the second school's student among the grades of its own, and
cannot tell from it which student that is. -/
theorem response_eq_iff_eva :
    (endorse ⟨fabricStub, school1Manager, noon⟩ [[(eve.id, marshal eva)], [("s1", marshal ada)]]
        (.query (.queryStudentGrades "s1"))).response =
      (endorse ⟨fabricStub, school1Manager, noon⟩ [[(eve.id, marshal eve)], [("s1", marshal ada)]]
        (.query (.queryStudentGrades "s1"))).response :=
  (response_eq_iff fabricStub_lawful ⟨_, reaches_strayEnrolment⟩ reachable_eva (by decide)
    lookAlike_eva noon _).mpr fun _ _ key _ _ _ ↦ length_history_eva key

/-- The second school updates its student with the stray ID. -/
def strayUpdate : Transaction := ⟨school2Manager, noon, .updateStudent eve.id (marshal eve)⟩

theorem effect_strayUpdate :
    Effect (strayUpdate.context fabricStub) [[(eve.id, marshal eve)], [("s1", marshal ada)]]
      strayUpdate.command eve.id eve.id (marshal eve) := by
  have accepts : UpdateAccepts (strayUpdate.context fabricStub)
      [[(eve.id, marshal eve)], [("s1", marshal ada)]] eve.id (marshal eve) eve eve :=
    { manager := isManager_school2Manager
      stored := by
        rw [storedStudent_cons, if_pos rfl, unmarshal_marshal]
        rfl
      decoded := unmarshal_marshal eve
      keyed := by decide +kernel }
  have hupdated : updatedStudent eve eve = eve := rfl
  have heffect := Effect.update accepts
  rw [hupdated] at heffect
  exact heffect

/-- The second update of the stray student changes no value. -/
theorem lookAlike_strayUpdate :
    LookAlike fabricStub school1Manager [[(eve.id, marshal eve)], [("s1", marshal ada)]]
      [[(eve.id, marshal eve)], [(eve.id, marshal eve)], [("s1", marshal ada)]] := by
  have hvalue (key : String) :
      Chain.value [[(eve.id, marshal eve)], [(eve.id, marshal eve)], [("s1", marshal ada)]] key =
        Chain.value [[(eve.id, marshal eve)], [("s1", marshal ada)]] key := by
    simp only [Chain.value_cons_singleton]
    split_ifs <;> rfl
  refine ⟨fun key ↦ by rw [hvalue], fun key ↦ by rw [recordAt_congr (hvalue key)],
    fun key _ _ _ ↦ hvalue key, hvalue _, fun studentID school key _ hkey ↦ ?_⟩
  rw [Chain.history_cons_singleton, if_neg]
  rintro rfl
  exact createCompositeKey_ne_eve _ hkey

/-- The first school sees in the listing of its own student's grades that the second school updated
its student. -/
theorem response_strayUpdate_ne :
    Reachable fabricStub [[(eve.id, marshal eve)], [("s1", marshal ada)]] ∧
      Reachable fabricStub
        [[(eve.id, marshal eve)], [(eve.id, marshal eve)], [("s1", marshal ada)]] ∧
      LookAlike fabricStub school1Manager [[(eve.id, marshal eve)], [("s1", marshal ada)]]
        [[(eve.id, marshal eve)], [(eve.id, marshal eve)], [("s1", marshal ada)]] ∧
      (endorse ⟨fabricStub, school1Manager, noon⟩
          [[(eve.id, marshal eve)], [(eve.id, marshal eve)], [("s1", marshal ada)]]
          (.query (.queryStudentGrades "s1"))).response ≠
        (endorse ⟨fabricStub, school1Manager, noon⟩
          [[(eve.id, marshal eve)], [("s1", marshal ada)]]
          (.query (.queryStudentGrades "s1"))).response := by
  have hbefore : Reachable fabricStub [[(eve.id, marshal eve)], [("s1", marshal ada)]] :=
    ⟨_, reaches_strayEnrolment⟩
  have hafter : Reachable fabricStub
      [[(eve.id, marshal eve)], [(eve.id, marshal eve)], [("s1", marshal ada)]] :=
    ⟨_, reaches_strayEnrolment.cons effect_strayUpdate⟩
  refine ⟨hbefore, hafter, lookAlike_strayUpdate, fun heq ↦ ?_⟩
  have hstray := (response_queryStudentGrades_eq_iff fabricStub_lawful hbefore hafter (by decide)
    lookAlike_strayUpdate noon (queriedStudent_ada eve.id (marshal eve) (by decide +kernel))
    createCompositeKey_adaGrades).mp heq
  have hlength := hstray adaGrades eve.id createCompositeKey_adaGrades (by decide +kernel)
    fun school ↦ createCompositeKey_ne_eve _
  simp only [Chain.history_cons_singleton, if_pos, List.length_cons] at hlength
  omega

end StudentStatus.Chaincode
