import StudentStatus.Chaincode.Permanence

/-!
# Validity of student records

A registered student's record should have a name and one of the two schools (`IsValid`), and
exactly one school should be able to read it and file grades for it. Only `CreateStudent` looks at
the name, no operation looks at the school, and no grade can be filed for an ID that is no part of a
composite key, which `CreateStudent` takes all the same. `KeepsValid` is what a transaction has to
be like for the records to stay valid, and they are valid throughout a run exactly when all of its
transactions are (`valid_iff_keepsValid`).
-/

set_option autoImplicit false
set_option relaxedAutoImplicit false

namespace StudentStatus.Chaincode

open Interaction Optimistic Json

/-- The MSPs of the two schools. -/
def schoolMSPs : List String := ["School1MSP", "School2MSP"]

/-- The MSPs of the organisations of the channel. -/
def channelMSPs : List String := educationBureauMSP :: schoolMSPs

/-- The record has a name and one of the two schools. -/
def IsValid (student : Student) : Prop := student.name ≠ "" ∧ student.school ∈ schoolMSPs

instance (student : Student) : Decidable (IsValid student) := inferInstanceAs (Decidable (_ ∧ _))

/-- Of the managers of the two schools, those of `school` and no others can read the record of the
student and file grades. The student's own identity is left aside. -/
def UnderSchool (stub : Stub) (ledger : Ledger) (studentID school : String) : Prop :=
  ∀ (client : ClientIdentity) (now : Time), IsManager client → client.mspID ∈ schoolMSPs →
    client.id ≠ studentID →
    ((∃ student, (queryStudent studentID).result
      (Context.answer ⟨stub, client, now⟩ ledger) = .ok student) ↔ client.mspID = school) ∧
    ∀ gradeJSON (grade : StudentGrade), unmarshal gradeJSON = .ok grade →
      ((createStudentGrade studentID gradeJSON).result
        (Context.answer ⟨stub, client, now⟩ ledger) = .ok () ↔ client.mspID = school)

/-- The records of all registered students are valid. -/
def RegisteredValid (txs : List Transaction) (ledger : Ledger) : Prop :=
  ∀ studentID, Registered txs studentID →
    ∃ student, storedStudent ledger studentID = .ok student ∧ IsValid student

/-- The records of all registered students are valid, and each of them is under exactly one
school. -/
def RecordsValid (stub : Stub) (txs : List Transaction) (ledger : Ledger) : Prop :=
  RegisteredValid txs ledger ∧ ∀ studentID, Registered txs studentID →
    ∃! school, school ∈ schoolMSPs ∧ UnderSchool stub ledger studentID school

/-- The ID can be the first attribute of a grade key. -/
def Fileable (stub : Stub) (studentID : String) : Prop :=
  ∃ start, stub.createCompositeKey compositeKeyStudentGrade [studentID] = .ok start

/-- What a transaction has to be like for valid records to stay valid. -/
def KeepsValid (stub : Stub) (tx : Transaction) (earlier : List Transaction) (_older : Ledger) :
    Prop :=
  match tx.command with
  | .createStudent studentJSON => ∀ student : Student, unmarshal studentJSON = .ok student →
    Fileable stub student.id ∧
      (tx.client.mspID = educationBureauMSP → student.school ∈ schoolMSPs)
  | .updateStudent studentID studentUpdateJSON => Registered earlier studentID →
    ∀ student : Student, unmarshal studentUpdateJSON = .ok student →
      student.name ≠ "" ∧ (student.school = "" ∨ student.school ∈ schoolMSPs)
  | .createStudentGrade _ _ => True

variable {stub : Stub}

/-! ### One school for each valid record -/

theorem fileable_iff (hstub : stub.Lawful) {studentID : String} :
    Fileable stub studentID ↔ isCompositeKeyPart studentID := by
  simp only [Fileable, hstub.createCompositeKey_eq_ok_iff, exists_and_left, exists_eq, and_true,
    List.all_cons, List.all_nil, Bool.and_true, Bool.and_eq_true, and_iff_right_iff_imp]
  exact fun _ ↦ by decide +kernel

/-- The grade key of a fileable ID at a school. -/
theorem Fileable.gradeKey (hstub : stub.Lawful) {studentID school : String}
    (h : Fileable stub studentID) (hschool : school ∈ schoolMSPs) :
    ∃ key, stub.createCompositeKey compositeKeyStudentGrade [studentID, school] = .ok key ∧
      key ≠ "" := by
  have hschools : ∀ school ∈ schoolMSPs, isCompositeKeyPart school := by decide +kernel
  have hobject : isCompositeKeyPart compositeKeyStudentGrade := by decide +kernel
  have hparts : (compositeKeyStudentGrade :: [studentID, school]).all isCompositeKeyPart := by
    simp [hobject, (fileable_iff hstub).mp h, hschools school hschool]
  exact ⟨_, hstub.createCompositeKey_ok _ _ hparts, compositeKey_ne_empty _ _⟩

/-- No composite key is a fileable ID. -/
theorem Fileable.createCompositeKey_ne (hstub : stub.Lawful) {studentID : String}
    (h : Fileable stub studentID) (objectType : String) (attributes : List String) :
    stub.createCompositeKey objectType attributes ≠ .ok studentID := by
  refine hstub.createCompositeKey_ne ?_ objectType attributes
  intro hhead
  have hpart := List.all_eq_true.mp ((fileable_iff hstub).mp h) _ (List.mem_of_mem_head? hhead)
  simp at hpart

/-- A stored student is under the school of the record, if that is one of the two and grades can be
filed for the ID. -/
theorem underSchool_of_stored (hstub : stub.Lawful) {ledger : Ledger} (hwell : WellFormed ledger)
    {studentID : String} {student : Student}
    (hstored : storedStudent ledger studentID = .ok student)
    (hschool : student.school ∈ schoolMSPs) (hfileable : Fileable stub studentID) :
    UnderSchool stub ledger studentID student.school := by
  intro client now hmanager hschools hid
  have hbureau : client.mspID ≠ educationBureauMSP := by
    rintro heq
    rw [heq] at hschools
    exact absurd hschools (by decide)
  have hsee : MaySee client studentID student ↔ client.mspID = student.school := by
    simp [MaySee, hid, hbureau]
  refine ⟨?_, fun gradeJSON grade hdecoded ↦ ?_⟩
  · rw [result_queryStudent]
    simp only [queriedStudent_eq_ok_iff, hstored, Except.ok.injEq]
    constructor
    · rintro ⟨student', -, rfl, hvisible⟩
      exact hsee.mp hvisible
    · exact fun hown ↦ ⟨student, Or.inr hmanager, rfl, hsee.mpr hown⟩
  · rw [result_createStudentGrade_eq_ok_iff]
    constructor
    · rintro ⟨student', grade', key', accepts⟩
      cases Except.ok.inj (hstored.symm.trans accepts.stored)
      exact hsee.mp accepts.visible
    · intro hown
      obtain ⟨key, hkey, hkeyed⟩ := hfileable.gradeKey hstub hschool
      exact ⟨student, grade, key, hmanager, hstored, hsee.mpr hown, hdecoded,
        (hwell.id_of_stored hstored).symm ▸ hkey, hkeyed⟩

/-- A manager of each school who is not the student. -/
theorem exists_manager {school : String} (hschool : school ∈ schoolMSPs) (studentID : String) :
    ∃ client, IsManager client ∧ client.mspID = school ∧ client.id ≠ studentID := by
  have hmanagers : ∀ school ∈ schoolMSPs, IsManager (manager school "school1.manager") := by
    decide +kernel
  refine ⟨{ manager school "school1.manager" with id := studentID ++ "0" },
    (hmanagers school hschool).withId _, rfl, fun heq ↦ ?_⟩
  have hlength := congrArg String.length heq
  rw [String.length_append] at hlength
  exact absurd hlength (by simp)

/-- A student is under one school at most. -/
theorem UnderSchool.unique {ledger : Ledger} {studentID school other : String}
    (h : UnderSchool stub ledger studentID school)
    (hother : UnderSchool stub ledger studentID other)
    (hschool : school ∈ schoolMSPs) : school = other := by
  obtain ⟨client, hmanager, rfl, hid⟩ := exists_manager hschool studentID
  have hreads := (h client noon hmanager hschool hid).1.mpr rfl
  exact (hother client noon hmanager hschool hid).1.mp hreads

/-- The school can file a grade, so the ID is part of a grade key. -/
theorem UnderSchool.fileable (hstub : stub.Lawful) {ledger : Ledger} (hwell : WellFormed ledger)
    {studentID school : String} (h : UnderSchool stub ledger studentID school)
    (hschool : school ∈ schoolMSPs) : Fileable stub studentID := by
  obtain ⟨client, hmanager, rfl, hid⟩ := exists_manager hschool studentID
  have hfiles := ((h client noon hmanager hschool hid).2 _ _ (unmarshal_marshal adaGrade)).mpr rfl
  rw [result_createStudentGrade_eq_ok_iff] at hfiles
  obtain ⟨student, grade, key, accepts⟩ := hfiles
  have hcomposed := accepts.composed
  rw [hwell.id_of_stored accepts.stored, hstub.createCompositeKey_eq_ok_iff] at hcomposed
  rw [fileable_iff hstub]
  exact List.all_eq_true.mp hcomposed.1 studentID (List.mem_cons_of_mem _ List.mem_cons_self)

/-- Registered records are valid and each under exactly one school exactly when they are valid and
grades can be filed for their IDs. -/
theorem recordsValid_iff (hstub : stub.Lawful) {txs : List Transaction} {ledger : Ledger}
    (hwell : WellFormed ledger) : RecordsValid stub txs ledger ↔
      RegisteredValid txs ledger ∧ ∀ studentID, Registered txs studentID →
        Fileable stub studentID := by
  refine and_congr_right fun hvalid ↦ forall₂_congr fun studentID hregistered ↦ ?_
  obtain ⟨student, hstored, -, hschool⟩ := hvalid studentID hregistered
  constructor
  · rintro ⟨school, ⟨hmem, hunder⟩, -⟩
    exact hunder.fileable hstub hwell hmem
  · intro hfileable
    have hunder := underSchool_of_stored hstub hwell hstored hschool hfileable
    exact ⟨student.school, ⟨hschool, hunder⟩,
      fun _ hother ↦ hother.2.unique hunder hother.1⟩

/-! ### Valid records throughout a run -/

/-- The client's MSP is one of the channel's. -/
def OfChannel (tx : Transaction) : Prop := tx.client.mspID ∈ channelMSPs

instance (tx : Transaction) : Decidable (OfChannel tx) := inferInstanceAs (Decidable (_ ∈ _))

/-- After one more transaction the registered records are valid exactly when the one that was
written is, if it is a registered one. -/
theorem registeredValid_cons_iff {tx : Transaction} {earlier : List Transaction} {older : Ledger}
    {read key text : String} (h : RegisteredValid earlier older)
    (heffect : Effect (tx.context stub) older tx.command read key text) :
    RegisteredValid (tx :: earlier) ([(key, text)] :: older) ↔
      (Creates tx key ∨ Registered earlier key →
        ∃ student : Student, unmarshal text = .ok student ∧ IsValid student) := by
  constructor
  · intro hvalid hregistered
    obtain ⟨student, hstored, hstudent⟩ := hvalid key (registered_cons.mpr hregistered)
    rw [storedStudent_cons, if_pos rfl] at hstored
    cases hdecoded : (unmarshal text : Except DecodeError Student) with
    | error err => simp [hdecoded, Except.mapError] at hstored
    | ok decoded =>
      simp only [hdecoded, Except.mapError, Except.ok.injEq] at hstored
      exact ⟨decoded, rfl, hstored ▸ hstudent⟩
  · intro hwritten studentID hregistered
    rw [storedStudent_cons]
    split_ifs with heq
    · cases heq
      obtain ⟨student, hdecoded, hstudent⟩ := hwritten (registered_cons.mp hregistered)
      exact ⟨student, by rw [hdecoded]; rfl, hstudent⟩
    · rcases registered_cons.mp hregistered with hcreates | hearlier
      · exact absurd (hcreates.accepts heffect).1 heq
      · exact h studentID hearlier

theorem isValid_createdStudent_iff (ctx : Context) (hchannel : ctx.client.mspID ∈ channelMSPs)
    {student : Student} (hnamed : student.name ≠ "") :
    IsValid (createdStudent ctx student) ↔
      (ctx.client.mspID = educationBureauMSP → student.school ∈ schoolMSPs) := by
  unfold IsValid createdStudent
  by_cases hbureau : ctx.client.mspID = educationBureauMSP
  · simp [hbureau, hnamed]
  · have hschool := (List.mem_cons.mp hchannel).resolve_left hbureau
    simp [hbureau, hnamed, hschool]

theorem isValid_updatedStudent_iff {existOne student : Student} (h : IsValid existOne) :
    IsValid (updatedStudent existOne student) ↔
      student.name ≠ "" ∧ (student.school = "" ∨ student.school ∈ schoolMSPs) := by
  unfold IsValid updatedStudent
  by_cases hschool : student.school = ""
  · simp [hschool, h.2]
  · simp [hschool]

/-- After one more transaction grades can be filed for all registered IDs exactly when they can be
for the one that it creates, if it does. -/
theorem registeredFileable_cons_iff {tx : Transaction} {earlier : List Transaction}
    (h : ∀ studentID, Registered earlier studentID → Fileable stub studentID) :
    (∀ studentID, Registered (tx :: earlier) studentID → Fileable stub studentID) ↔
      ∀ studentID, Creates tx studentID → Fileable stub studentID := by
  refine forall_congr' fun studentID ↦ ?_
  rw [registered_cons]
  exact ⟨fun hall hcreates ↦ hall (Or.inl hcreates),
    fun hcreated hregistered ↦ hregistered.elim hcreated (h studentID)⟩

/-- One step keeps the registered records valid and their IDs fileable exactly when the transaction
is one that does. -/
theorem keepsValid_step (hstub : stub.Lawful) {tx : Transaction} {earlier : List Transaction}
    {older : Ledger} {read key text : String} (hchannel : OfChannel tx)
    (hvalid : RegisteredValid earlier older)
    (hfileable : ∀ studentID, Registered earlier studentID → Fileable stub studentID)
    (heffect : Effect (tx.context stub) older tx.command read key text) :
    (RegisteredValid (tx :: earlier) ([(key, text)] :: older) ∧
        ∀ studentID, Registered (tx :: earlier) studentID → Fileable stub studentID) ↔
      KeepsValid stub tx earlier older := by
  rw [registeredValid_cons_iff hvalid heffect, registeredFileable_cons_iff hfileable]
  obtain ⟨client, now, command⟩ := tx
  unfold KeepsValid
  cases heffect with
  | @create studentJSON student accepts =>
    have hcreates (studentID : String) :
        Creates ⟨client, now, .createStudent studentJSON⟩ studentID ↔ student.id = studentID := by
      simp [Creates, accepts.decoded]
    simp only [hcreates, true_or, forall_const, unmarshal_marshal, Except.ok.injEq,
      exists_eq_left', accepts.decoded, forall_eq']
    exact and_comm.trans (and_congr_right fun _ ↦
      isValid_createdStudent_iff ⟨stub, client, now⟩ hchannel accepts.named)
  | @update _ _ existOne student accepts =>
    simp only [not_creates_updateStudent, false_or, false_implies, implies_true, and_true,
      unmarshal_marshal, Except.ok.injEq, exists_eq_left', accepts.decoded, forall_eq']
    refine forall_congr' fun hregistered ↦ ?_
    obtain ⟨stored, hstored, hrecord⟩ := hvalid _ hregistered
    cases Except.ok.inj (hstored.symm.trans accepts.stored)
    exact isValid_updatedStudent_iff hrecord
  | @grade _ _ _ _ _ accepts =>
    have hnot : ¬ Registered earlier key := fun hregistered ↦
      (hfileable key hregistered).createCompositeKey_ne hstub _ _ accepts.composed
    simp only [not_creates_createStudentGrade, hnot, or_self, false_implies, implies_true, and_self]

theorem not_registered_nil (studentID : String) : ¬ Registered [] studentID := by
  rintro ⟨tx, hmem, -⟩
  cases hmem

/-- At every moment of a run by clients of the channel every registered student has a name and one
of the two schools, and is under exactly one school, exactly when every transaction of the run keeps
valid records valid. -/
theorem valid_iff_keepsValid (hstub : stub.Lawful) {txs : List Transaction} {ledger : Ledger}
    (h : Reaches stub txs ledger) (hchannel : ∀ tx ∈ txs, OfChannel tx) :
    Always stub txs (RecordsValid stub) ↔ EveryStep stub txs (KeepsValid stub) := by
  have hkept : Always stub txs (fun txs ledger ↦ RegisteredValid txs ledger ∧
      ∀ studentID, Registered txs studentID → Fileable stub studentID) ↔
      EveryStep stub txs (KeepsValid stub) := by
    refine h.always_iff_everyStep ⟨?_, ?_⟩ ?_
    · exact fun studentID hregistered ↦ absurd hregistered (not_registered_nil studentID)
    · exact fun studentID hregistered ↦ absurd hregistered (not_registered_nil studentID)
    · intro tx earlier older read key text hsuffix _ hvalid heffect
      have htx : OfChannel tx := hchannel tx (hsuffix.subset List.mem_cons_self)
      exact keepsValid_step hstub htx hvalid.1 hvalid.2 heffect
  rw [← hkept]
  exact forall₄_congr fun earlier older hsuffix hreached ↦
    recordsValid_iff hstub (Reaches.wellFormed hreached)

/-- The records stay valid when a student is enrolled at the first school and moves to the
second. -/
theorem valid_iff_keepsValid_relocation :
    Always fabricStub [relocation, enrolment] (RecordsValid fabricStub) := by
  have hchannel : ∀ tx ∈ [relocation, enrolment], OfChannel tx := by decide
  refine (valid_iff_keepsValid fabricStub_lawful reaches_relocation hchannel).mpr ?_
  intro tx earlier older hsuffix _
  rcases List.mem_pair.mp (hsuffix.subset List.mem_cons_self) with rfl | rfl
  · intro _ student hdecoded
    cases Except.ok.inj ((unmarshal_marshal relocated).symm.trans hdecoded)
    decide
  · intro student hdecoded
    cases Except.ok.inj ((unmarshal_marshal ada).symm.trans hdecoded)
    exact ⟨(fileable_iff fabricStub_lawful).mpr (by decide), fun hbureau ↦ absurd hbureau
      (by decide)⟩

/-- The school sends an update without a name. -/
def erasing : Transaction := ⟨school1Manager, noon, .updateStudent "s1" "\x7b\x7d"⟩

/-- The registered student then has no name. -/
theorem recordsValid_erasing :
    ∃ ledger, Reaches fabricStub [erasing, enrolment] ledger ∧
      (∀ tx ∈ [erasing, enrolment], OfChannel tx) ∧
      ¬ RecordsValid fabricStub [erasing, enrolment] ledger := by
  have accepts : UpdateAccepts (erasing.context fabricStub) _ _ _ _ _ :=
    updateAccepts_ada isManager_school1Manager
  refine ⟨_, reaches_enrolment.cons (.update accepts), by decide, fun hvalid ↦ ?_⟩
  obtain ⟨student, hstored, hnamed, -⟩ := hvalid.1 "s1"
    ⟨enrolment, List.mem_pair.mpr (Or.inr rfl), marshal ada, rfl, ada, unmarshal_marshal ada, rfl⟩
  rw [storedStudent_cons, if_pos rfl, unmarshal_marshal] at hstored
  cases hstored
  exact hnamed rfl

end StudentStatus.Chaincode
