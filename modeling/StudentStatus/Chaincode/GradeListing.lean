import StudentStatus.Chaincode.KeySpace

/-!
# Listing the grades of a student

All grades of a student at one school overwrite one key, so the listing rests on the histories: it
walks the keys that extend the student's partial key and lists the whole history of each. Every
grade that was ever filed for the student is therefore listed, under whichever school it was filed
(`filed_le_listed`). The other direction depends on the IDs that `CreateStudent` accepts: a student
whose ID merely begins like a grade key is listed among the grades, and the listing holds entries
of the student's own grade keys only exactly when no such ID was created
(`gradesAccounted_iff`).
-/

set_option autoImplicit false
set_option relaxedAutoImplicit false

namespace StudentStatus.Chaincode

open Interaction Optimistic Json

/-- What a grade says: its year status, semester and course grades. -/
abbrev GradeContent := String × Int64 × String

def StudentGrade.content (grade : StudentGrade) : GradeContent :=
  (grade.yearStatus, grade.semester, grade.courseGrades)

/-- The content of the grade that a transaction files for the student, if it files one. -/
def filedContent (studentID : String) (tx : Transaction) : Option GradeContent :=
  match tx.command with
  | .createStudentGrade id gradeJSON =>
    if id = studentID then
      (unmarshal gradeJSON : Except DecodeError StudentGrade).toOption.map StudentGrade.content
    else none
  | _ => none

/-- The entry was written at a composite key whose first attribute is the student's ID, and that
key has no other first attribute. -/
def AttributedTo (stub : Stub) (ledger : Ledger) (studentID : String) (entry : StudentGrade) :
    Prop :=
  (∃ attributes,
    stub.createCompositeKey compositeKeyStudentGrade (studentID :: attributes) = .ok entry.id) ∧
  (∀ other attributes,
    stub.createCompositeKey compositeKeyStudentGrade (other :: attributes) = .ok entry.id →
    other = studentID) ∧
  ∃ text ∈ ledger.history entry.id, unmarshal text = .ok entry

/-- The grade query returns a list that holds every filed grade of the student as often as it was
filed, and entries of the student's grade keys only. -/
def GradesAccounted (stub : Stub) (client : ClientIdentity) (now : Time) (txs : List Transaction)
    (ledger : Ledger) (studentID : String) : Prop :=
  ∃ grades, (queryStudentGrades studentID).result (Context.answer ⟨stub, client, now⟩ ledger) =
      .ok grades ∧
    (∀ content, (txs.filterMap (filedContent studentID)).count content ≤
      (grades.map StudentGrade.content).count content) ∧
    ∀ entry ∈ grades, AttributedTo stub ledger studentID entry

/-- No student was created whose ID extends the partial key of the student's grades without being
a composite key. -/
def NoStrayID (stub : Stub) (txs : List Transaction) (studentID : String) : Prop :=
  ∀ start created, stub.createCompositeKey compositeKeyStudentGrade [studentID] = .ok start →
    Registered txs created → extendsKey start created →
    ∃ attributes,
      stub.createCompositeKey compositeKeyStudentGrade (studentID :: attributes) = .ok created

variable {stub : Stub}

/-! ### Every filed grade is listed -/

/-- The committed text is a grade of this content. -/
def saysContent (content : GradeContent) (text : String) : Bool :=
  (decodedGrade text).content == content

/-- The key of a filed grade extends the partial key of the student. -/
theorem extendsKey_of_filed (hstub : stub.Lawful) {studentID start key : String}
    (hstart : stub.createCompositeKey compositeKeyStudentGrade [studentID] = .ok start)
    {attributes : List String}
    (hkey : stub.createCompositeKey compositeKeyStudentGrade (studentID :: attributes) = .ok key) :
    extendsKey start key := by
  obtain ⟨hparts, rfl⟩ := hstub.createCompositeKey_eq_ok_iff.mp hstart
  obtain ⟨hparts', rfl⟩ := hstub.createCompositeKey_eq_ok_iff.mp hkey
  rw [extendsKey_compositeKey_iff hparts hparts']
  exact ⟨attributes, rfl⟩

theorem decodedGrade_marshal (grade : StudentGrade) : decodedGrade (marshal grade) = grade := by
  rw [decodedGrade, unmarshal_marshal]
  rfl

/-- What a transaction that files a grade of the student writes. -/
theorem Effect.filed {tx : Transaction} {older : Ledger} {read key text : String}
    (heffect : Effect (tx.context stub) older tx.command read key text) (hwell : WellFormed older)
    {studentID : String} {content : GradeContent}
    (hfiled : filedContent studentID tx = some content) :
    (∃ school, stub.createCompositeKey compositeKeyStudentGrade [studentID, school] = .ok key) ∧
      saysContent content text := by
  obtain ⟨client, now, command⟩ := tx
  cases heffect with
  | create accepts => cases hfiled
  | update accepts => cases hfiled
  | @grade _ gradeJSON student grade _ accepts =>
    simp only [filedContent, accepts.decoded] at hfiled
    split_ifs at hfiled with hid
    have hstudent := hwell.id_of_stored accepts.stored
    refine ⟨⟨student.school, ?_⟩, ?_⟩
    · rw [← hid, ← hstudent]
      exact accepts.composed
    · rw [saysContent, decodedGrade_marshal]
      exact beq_iff_eq.mpr (Option.some.inj hfiled)

/-- The grades that a run files for a student are among the histories of any keys that contain all
extensions of the student's partial key. -/
theorem filed_le_sum_history (hstub : stub.Lawful) {studentID start : String}
    (hstart : stub.createCompositeKey compositeKeyStudentGrade [studentID] = .ok start)
    (keys : Finset String) (content : GradeContent) {txs : List Transaction} {ledger : Ledger}
    (h : Reaches stub txs ledger)
    (hkeys : ∀ key, extendsKey start key → (ledger.value key).isSome → key ∈ keys) :
    (txs.filterMap (filedContent studentID)).count content ≤
      ∑ key ∈ keys, (ledger.history key).countP (saysContent content) := by
  refine h.induction (motive := fun txs ledger ↦
    (∀ key, extendsKey start key → (ledger.value key).isSome → key ∈ keys) →
    (txs.filterMap (filedContent studentID)).count content ≤
      ∑ key ∈ keys, (ledger.history key).countP (saysContent content)) (fun _ ↦ by simp) ?_ hkeys
  intro tx earlier older read key text holder ih heffect hkeys
  have hearlier := ih fun other hextends hsome ↦ hkeys other hextends
    (Chain.value_isSome_of_suffix (List.suffix_cons _ _) hsome)
  rw [Chain.sum_countP_history_cons_singleton]
  have hone : (if filedContent studentID tx = some content then 1 else 0) ≤
      if key ∈ keys ∧ saysContent content text then 1 else 0 := by
    split_ifs with hfiled hlisted
    · exact le_rfl
    · obtain ⟨⟨school, hkey⟩, hsays⟩ := heffect.filed holder.wellFormed hfiled
      have hmem := hkeys key (extendsKey_of_filed hstub hstart hkey)
        (by rw [Chain.value_cons_singleton, if_pos rfl]; rfl)
      exact absurd ⟨hmem, hsays⟩ hlisted
    · exact Nat.zero_le 1
    · exact le_rfl
  have hcount : ((tx :: earlier).filterMap (filedContent studentID)).count content =
      (earlier.filterMap (filedContent studentID)).count content +
        if filedContent studentID tx = some content then 1 else 0 := by
    cases hfiled : filedContent studentID tx with
    | none => simp [hfiled]
    | some filed => simp [hfiled, List.count_cons]
  rw [hcount]
  exact Nat.add_le_add hearlier hone

/-! ### What is listed -/

/-- The keys that the grade query iterates. -/
def gradeKeys (ledger : Ledger) (start : String) : List String :=
  (sortedKeys ledger).filter (extendsKey start)

/-- The list that the grade query returns. -/
def listedGrades (stub : Stub) (ledger : Ledger) (start : String) : List StudentGrade :=
  (gradeKeys ledger start).flatMap (historyEntries stub ledger)

theorem mem_gradeKeys {ledger : Ledger} {start key : String} :
    key ∈ gradeKeys ledger start ↔ (ledger.value key).isSome ∧ extendsKey start key := by
  rw [gradeKeys, List.mem_filter, mem_sortedKeys]

/-- Past the access check and the composite key, the grade query returns the listing. -/
theorem result_queryStudentGrades_listed (hstub : stub.Lawful) {ledger : Ledger}
    (hwell : WellFormed ledger) {client : ClientIdentity} (now : Time) {studentID start : String}
    {student : Student} (hqueried : queriedStudent ledger client studentID = .ok student)
    (hstart : stub.createCompositeKey compositeKeyStudentGrade [studentID] = .ok start) :
    (queryStudentGrades studentID).result (Context.answer ⟨stub, client, now⟩ ledger) =
      .ok (listedGrades stub ledger start) := by
  rw [result_queryStudentGrades ⟨stub, client, now⟩ hstub hwell]
  simp only [hqueried, hstub.keysByPartialCompositeKey_eq _ _ _ _ hstart]
  rfl

/-- The listing of a key says a content as often as its history. -/
theorem count_historyEntries (hstub : stub.Lawful) {ledger : Ledger} (hwell : WellFormed ledger)
    (content : GradeContent) (key : String) :
    ((historyEntries stub ledger key).map StudentGrade.content).count content =
      (ledger.history key).countP (saysContent content) := by
  obtain ⟨listed, -, hperm, hentries, -⟩ := historyEntries_eq hstub hwell key
  rw [hentries, List.map_map, ← hperm.countP_eq, List.count, List.countP_map]
  rfl

theorem count_listedGrades (hstub : stub.Lawful) {ledger : Ledger} (hwell : WellFormed ledger)
    (content : GradeContent) (start : String) :
    ((listedGrades stub ledger start).map StudentGrade.content).count content =
      ∑ key ∈ (gradeKeys ledger start).toFinset,
        (ledger.history key).countP (saysContent content) := by
  have hnodup : (gradeKeys ledger start).Nodup := (nodup_sortedKeys ledger).filter _
  rw [listedGrades, List.map_flatMap, List.count_flatMap, List.sum_toFinset _ hnodup]
  congr 2
  exact funext fun key ↦ count_historyEntries hstub hwell content key

/-- Every grade that was filed for the student is listed, as often as it was filed. -/
theorem filed_le_listed (hstub : stub.Lawful) {txs : List Transaction} {ledger : Ledger}
    (h : Reaches stub txs ledger) {studentID start : String}
    (hstart : stub.createCompositeKey compositeKeyStudentGrade [studentID] = .ok start)
    (content : GradeContent) :
    (txs.filterMap (filedContent studentID)).count content ≤
      ((listedGrades stub ledger start).map StudentGrade.content).count content := by
  rw [count_listedGrades hstub h.wellFormed]
  refine filed_le_sum_history hstub hstart _ content h fun key hextends hsome ↦ ?_
  rw [List.mem_toFinset, mem_gradeKeys]
  exact ⟨hsome, hextends⟩

/-- The listed entries are the committed values of the iterated keys. -/
theorem mem_listedGrades (hstub : stub.Lawful) {ledger : Ledger} (hwell : WellFormed ledger)
    {start : String} {entry : StudentGrade} :
    entry ∈ listedGrades stub ledger start ↔ extendsKey start entry.id ∧
      ∃ text ∈ ledger.history entry.id, unmarshal text = .ok entry := by
  rw [listedGrades, List.mem_flatMap]
  constructor
  · rintro ⟨key, hkey, hentry⟩
    obtain ⟨listed, -, hperm, hentries, hdecode⟩ := historyEntries_eq hstub hwell key
    rw [hentries] at hentry
    obtain ⟨text, hmem, rfl⟩ := List.mem_map.mp hentry
    obtain ⟨hdecoded, hid⟩ := hdecode text hmem
    rw [hid]
    exact ⟨(mem_gradeKeys.mp hkey).2, text, hperm.mem_iff.mp hmem, hdecoded⟩
  · rintro ⟨hextends, text, hmem, hdecoded⟩
    obtain ⟨listed, -, hperm, hentries, -⟩ := historyEntries_eq hstub hwell entry.id
    have hsome : (ledger.value entry.id).isSome :=
      Chain.value_isSome_iff.mpr (List.ne_nil_of_mem hmem)
    refine ⟨entry.id, mem_gradeKeys.mpr ⟨hsome, hextends⟩, ?_⟩
    rw [hentries]
    refine List.mem_map.mpr ⟨text, hperm.mem_iff.mpr hmem, ?_⟩
    rw [decodedGrade, hdecoded]
    rfl

/-! ### Whose keys are listed -/

/-- A grade key that extends the partial key of a student is one of the student. -/
theorem IsGradeKey.compositeKey (hstub : stub.Lawful) {studentID start key : String}
    (h : IsGradeKey stub key)
    (hstart : stub.createCompositeKey compositeKeyStudentGrade [studentID] = .ok start)
    (hextends : extendsKey start key) : ∃ school,
      stub.createCompositeKey compositeKeyStudentGrade [studentID, school] = .ok key := by
  obtain ⟨other, school, hkey⟩ := h
  obtain ⟨hparts, rfl⟩ := hstub.createCompositeKey_eq_ok_iff.mp hstart
  obtain ⟨hparts', rfl⟩ := hstub.createCompositeKey_eq_ok_iff.mp hkey
  rw [extendsKey_compositeKey_iff hparts hparts'] at hextends
  obtain ⟨rest, hrest⟩ := hextends
  obtain ⟨rfl, -⟩ := List.cons.inj (List.cons.inj hrest).2
  exact ⟨school, hkey⟩

/-- On a run without stray IDs the keys that are iterated are grade keys of the student. -/
theorem NoStrayID.compositeKey (hstub : stub.Lawful) {txs : List Transaction} {ledger : Ledger}
    (h : Reaches stub txs ledger) {studentID start : String}
    (hstart : stub.createCompositeKey compositeKeyStudentGrade [studentID] = .ok start)
    (hstray : NoStrayID stub txs studentID) {key : String} (hsome : (ledger.value key).isSome)
    (hextends : extendsKey start key) : ∃ attributes,
      stub.createCompositeKey compositeKeyStudentGrade (studentID :: attributes) = .ok key := by
  rcases h.registered_or_isGradeKey hsome with hregistered | hkey
  · exact hstray start key hstart hregistered hextends
  · obtain ⟨school, hgrade⟩ := hkey.compositeKey hstub hstart hextends
    exact ⟨[school], hgrade⟩

/-- A stray ID is listed among the grades. -/
theorem GradesAccounted.noStrayID (hstub : stub.Lawful) {txs : List Transaction} {ledger : Ledger}
    (h : Reaches stub txs ledger) {client : ClientIdentity} {now : Time} {studentID start : String}
    {student : Student} (hqueried : queriedStudent ledger client studentID = .ok student)
    (hstart : stub.createCompositeKey compositeKeyStudentGrade [studentID] = .ok start)
    (haccounted : GradesAccounted stub client now txs ledger studentID) :
    NoStrayID stub txs studentID := by
  intro start' created hstart' hregistered hextends
  cases Except.ok.inj (hstart.symm.trans hstart')
  obtain ⟨grades, hgrades, -, hattributed⟩ := haccounted
  have hwell := h.wellFormed
  cases Except.ok.inj
    ((result_queryStudentGrades_listed hstub hwell now hqueried hstart).symm.trans hgrades)
  obtain ⟨text, hvalue⟩ := Option.isSome_iff_exists.mp (h.isSome_of_registered hregistered)
  obtain ⟨hdecoded, hid⟩ := (hwell.of_value hvalue).2.unmarshal_eq_decodedGrade
  have hmem : decodedGrade text ∈ listedGrades stub ledger start := by
    rw [mem_listedGrades hstub hwell, hid]
    exact ⟨hextends, text, Chain.mem_history_of_value hvalue, hdecoded⟩
  have hkey := (hattributed _ hmem).1
  rwa [hid] at hkey

/-- Past the access check the grade query returns every filed grade and only entries of the
student's grade keys exactly when no stray ID was created. -/
theorem gradesAccounted_iff (hstub : stub.Lawful) {txs : List Transaction} {ledger : Ledger}
    (h : Reaches stub txs ledger) {client : ClientIdentity} (now : Time) {studentID : String}
    {student : Student} (hqueried : queriedStudent ledger client studentID = .ok student)
    {start : String}
    (hstart : stub.createCompositeKey compositeKeyStudentGrade [studentID] = .ok start) :
    GradesAccounted stub client now txs ledger studentID ↔ NoStrayID stub txs studentID := by
  refine ⟨fun haccounted ↦ haccounted.noStrayID hstub h hqueried hstart, fun hstray ↦ ?_⟩
  have hwell := h.wellFormed
  refine ⟨_, result_queryStudentGrades_listed hstub hwell now hqueried hstart,
    filed_le_listed hstub h hstart, fun entry hmem ↦ ?_⟩
  obtain ⟨hextends, text, hhistory, hdecoded⟩ := (mem_listedGrades hstub hwell).mp hmem
  have hsome : (ledger.value entry.id).isSome :=
    Chain.value_isSome_iff.mpr (List.ne_nil_of_mem hhistory)
  obtain ⟨attributes, hkey⟩ := hstray.compositeKey hstub h hstart hsome hextends
  refine ⟨⟨attributes, hkey⟩, fun other attributes' hother ↦ ?_, text, hhistory, hdecoded⟩
  obtain ⟨-, hattributes⟩ := hstub.createCompositeKey_inj hother hkey
  exact (List.cons.inj hattributes).1

/-- The partial key of the sample student's grades. -/
def adaGrades : String := compositeKey compositeKeyStudentGrade ["s1"]

theorem createCompositeKey_adaGrades :
    fabricStub.createCompositeKey compositeKeyStudentGrade ["s1"] = .ok adaGrades :=
  fabricStub_lawful.createCompositeKey_ok _ _ (by decide +kernel)

/-- The sample student is visible to the first school under any later write elsewhere. -/
theorem queriedStudent_ada (key text : String) (hkey : key ≠ "s1") :
    queriedStudent [[(key, text)], [("s1", marshal ada)]] school1Manager "s1" = .ok ada := by
  refine (queriedStudent_eq_ok_iff _).mpr ⟨Or.inr isManager_school1Manager, ?_, Or.inr (Or.inr rfl)⟩
  rw [storedStudent_cons, if_neg hkey]
  exact storedStudent_ada

theorem gradesAccounted_iff_grading :
    GradesAccounted fabricStub school1Manager noon [grading, enrolment]
      [[(adaGrade.id, marshal adaGrade)], [("s1", marshal ada)]] "s1" := by
  refine (gradesAccounted_iff fabricStub_lawful reaches_grading noon
    (queriedStudent_ada _ _ (by decide +kernel)) createCompositeKey_adaGrades).mpr ?_
  rintro start created hstart ⟨tx, hmem, hcreates⟩ hextends
  cases Except.ok.inj (createCompositeKey_adaGrades.symm.trans hstart)
  rcases List.mem_pair.mp hmem with rfl | rfl
  · exact absurd hcreates not_creates_createStudentGrade
  · obtain ⟨_, hcommand, student, hdecoded, rfl⟩ := hcreates
    rw [← Command.createStudent.inj hcommand] at hdecoded
    obtain rfl := Except.ok.inj ((unmarshal_marshal ada).symm.trans hdecoded)
    exact absurd hextends (by decide +kernel)

/-- A student whose ID begins like the keys of another student's grades. -/
def eve : Student := ⟨adaGrades ++ "x", "Eve", 2023, "Physics", "School2MSP", false, noon.format⟩

/-- The second school enrols that student. -/
def strayEnrolment : Transaction := ⟨school2Manager, noon, .createStudent (marshal eve)⟩

/-- The second school can enrol any student with that ID. -/
theorem effect_stray {student : Student} (hid : student.id = eve.id) (hnamed : student.name ≠ "")
    (hcreated : createdStudent ⟨fabricStub, school2Manager, noon⟩ student = student) :
    Effect ⟨fabricStub, school2Manager, noon⟩ [[("s1", marshal ada)]]
      (.createStudent (marshal student)) eve.id eve.id (marshal student) := by
  have accepts : CreateAccepts ⟨fabricStub, school2Manager, noon⟩ [[("s1", marshal ada)]]
      (marshal student) student :=
    { manager := isManager_school2Manager
      decoded := unmarshal_marshal student
      fresh := by
        rw [hid, Chain.value_cons_singleton, if_neg (by decide +kernel)]
        rfl
      school := fun hbureau ↦ absurd hbureau (by decide +kernel)
      named := hnamed
      keyed := by
        rw [hid]
        decide +kernel }
  have heffect := Effect.create accepts
  rw [hcreated, hid] at heffect
  exact heffect

theorem effect_strayEnrolment :
    Effect (strayEnrolment.context fabricStub) [[("s1", marshal ada)]] strayEnrolment.command
      eve.id eve.id (marshal eve) :=
  effect_stray rfl (by decide +kernel) rfl

theorem reaches_strayEnrolment : Reaches fabricStub [strayEnrolment, enrolment]
    [[(eve.id, marshal eve)], [("s1", marshal ada)]] :=
  reaches_enrolment.cons effect_strayEnrolment

/-- That student's ID is no composite key. -/
theorem createCompositeKey_ne_eve (attributes : List String) :
    fabricStub.createCompositeKey compositeKeyStudentGrade attributes ≠ .ok eve.id := by
  intro hkey
  have hlast := getLast?_compositeKey compositeKeyStudentGrade attributes
  rw [← (fabricStub_lawful.createCompositeKey_eq_ok_iff.mp hkey).2] at hlast
  exact absurd hlast (by decide +kernel)

/-- That student is listed among the grades of the first. -/
theorem gradesAccounted_strayEnrolment :
    ∃ ledger, Reaches fabricStub [strayEnrolment, enrolment] ledger ∧
      queriedStudent ledger school1Manager "s1" = .ok ada ∧
      ¬ GradesAccounted fabricStub school1Manager noon [strayEnrolment, enrolment] ledger "s1" := by
  have hqueried := queriedStudent_ada eve.id (marshal eve) (by decide +kernel)
  refine ⟨_, reaches_strayEnrolment, hqueried, fun haccounted ↦ ?_⟩
  have hstray := haccounted.noStrayID fabricStub_lawful reaches_strayEnrolment hqueried
    createCompositeKey_adaGrades
  obtain ⟨attributes, hkey⟩ := hstray adaGrades eve.id createCompositeKey_adaGrades
    ⟨strayEnrolment, List.mem_cons_self, marshal eve, rfl, eve, unmarshal_marshal eve, rfl⟩
    (by decide +kernel)
  exact createCompositeKey_ne_eve _ hkey

end StudentStatus.Chaincode
