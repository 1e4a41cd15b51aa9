import StudentStatus.Chaincode.KeySpace
import StudentStatus.Optimistic.Tables

/-!
# The register of students

What the contract is for, without keys and stored texts: a register with two tables, the versions
of each student's record and the grades filed for each student at each school. `Register.Step` is
one operation of it by a client, and `Register.Runs` its runs from the empty register.

The contract keeps both tables in one key space. On runs whose students have IDs that do not begin
with U+0000 it is the register: an operation succeeds on a ledger exactly when the register takes
the step, and the ledger then stores the next register (`StoredIn.simulates`,
`StoredIn.simulated`). The transactions that succeed one after the other are therefore the same
(`refines_register`).
-/

set_option autoImplicit false
set_option relaxedAutoImplicit false

namespace StudentStatus.Chaincode

open Interaction Optimistic Json

/-! ### The register -/

/-- An ID that does not begin like a composite key. -/
def IsPlain (key : String) : Prop := key.toList.head? ≠ some minUnicodeRune

instance (key : String) : Decidable (IsPlain key) := inferInstanceAs (Decidable (_ ≠ _))

/-- The ID of a student in the register. -/
abbrev StudentID := {id : String // id ≠ "" ∧ IsPlain id}

/-- A student and a school at which grades of the student can be filed: both may be parts of a
composite key. -/
abbrev GradeSlot := {slot : String × String // [slot.1, slot.2].all isCompositeKeyPart}

/-- A grade as it is filed. -/
structure Grade where
  modificationDate : String
  yearStatus : String
  semester : Int64
  courseGrades : String
  deriving DecidableEq

/-- The register: the versions of each student's record and the grades of each student at each
school, latest first. -/
structure Register where
  records : StudentID → List Student
  grades : GradeSlot → List Grade

namespace Register

def empty : Register := ⟨fun _ ↦ [], fun _ ↦ []⟩

/-- The record of a student. -/
def record (register : Register) (id : StudentID) : Option Student := (register.records id).head?

def setRecord (register : Register) (id : StudentID) (student : Student) : Register :=
  { register with records := put register.records id student }

def addGrade (register : Register) (slot : GradeSlot) (grade : Grade) : Register :=
  { register with grades := put register.grades slot grade }

theorem record_setRecord (register : Register) (id other : StudentID) (student : Student) :
    (register.setRecord id student).record other =
      if other = id then some student else register.record other := by
  change (put register.records id student other).head? = _
  split_ifs with h
  · rw [h, put_self]
    rfl
  · rw [put_of_ne _ _ _ h]
    rfl

/-- One operation of the register by a client. A new student is enrolled at the client's school, or
by the bureau at the school that it names; any manager amends a record; a manager who may see a
record files a grade at the school that the record names. -/
inductive Step (client : ClientIdentity) (now : Time) (register : Register) :
    Command → Register → Prop
  | enrol {studentJSON : String} {student : Student} (id : StudentID) (manager : IsManager client)
      (decoded : unmarshal studentJSON = .ok student) (hid : student.id = id)
      (fresh : register.record id = none)
      (school : client.mspID = educationBureauMSP → student.school ≠ "")
      (named : student.name ≠ "") :
      Step client now register (.createStudent studentJSON)
        (register.setRecord id
          { id := student.id
            name := student.name
            admissionYear := student.admissionYear
            major := student.major
            school := if client.mspID = educationBureauMSP then student.school else client.mspID
            graduated := false
            creationDate := now.format })
  | amend {studentUpdateJSON : String} {current student : Student} (id : StudentID)
      (manager : IsManager client) (recorded : register.record id = some current)
      (decoded : unmarshal studentUpdateJSON = .ok student) :
      Step client now register (.updateStudent id studentUpdateJSON)
        (register.setRecord id
          { id := current.id
            name := student.name
            admissionYear := student.admissionYear
            major := student.major
            school := if student.school = "" then current.school else student.school
            graduated := student.graduated
            creationDate := current.creationDate })
  | file {gradeJSON : String} {current : Student} {grade : StudentGrade} (id : StudentID)
      (slot : GradeSlot) (manager : IsManager client) (recorded : register.record id = some current)
      (visible : MaySee client id current) (decoded : unmarshal gradeJSON = .ok grade)
      (hslot : slot.1 = (id.1, current.school)) :
      Step client now register (.createStudentGrade id gradeJSON)
        (register.addGrade slot ⟨now.format, grade.yearStatus, grade.semester, grade.courseGrades⟩)

/-- The transactions, latest first, take the empty register to this one. -/
inductive Runs : List Transaction → Register → Prop
  | nil : Runs [] empty
  | cons {tx : Transaction} {earlier : List Transaction} {register next : Register}
      (runs : Runs earlier register) (step : Step tx.client tx.now register tx.command next) :
      Runs (tx :: earlier) next

end Register

/-! ### Where the register is stored -/

/-- The key of the grades of a student at a school. -/
def GradeSlot.key (slot : GradeSlot) : String :=
  compositeKey compositeKeyStudentGrade [slot.1.1, slot.1.2]

/-- A filed grade as the entry at a key. -/
def Grade.entry (key : String) (grade : Grade) : StudentGrade :=
  ⟨key, grade.modificationDate, grade.yearStatus, grade.semester, grade.courseGrades⟩

/-- The ledger stores the register: each record under its ID, each grade under the key of its slot,
and nothing else. -/
structure StoredIn (register : Register) (ledger : Ledger) : Prop where
  records : Keeps Subtype.val (fun _ ↦ marshal) ledger register.records
  grades : Keeps GradeSlot.key (fun slot grade ↦ marshal (grade.entry slot.key)) ledger
    register.grades
  covered : ∀ key, (ledger.value key).isSome →
    (∃ id : StudentID, id.1 = key) ∨ ∃ slot : GradeSlot, slot.key = key
  ids : ∀ id student, register.record id = some student → student.id = id

variable {stub : Stub}

theorem isCompositeKeyPart_compositeKeyStudentGrade :
    isCompositeKeyPart compositeKeyStudentGrade := by decide

theorem GradeSlot.all_parts (slot : GradeSlot) :
    [compositeKeyStudentGrade, slot.1.1, slot.1.2].all isCompositeKeyPart := by
  have hslot := slot.2
  simp only [List.all_cons, List.all_nil, Bool.and_true] at hslot ⊢
  rw [isCompositeKeyPart_compositeKeyStudentGrade, hslot]
  rfl

theorem GradeSlot.key_injective : Function.Injective GradeSlot.key := by
  intro slot other h
  obtain ⟨-, hparts⟩ := compositeKey_inj slot.all_parts other.all_parts h
  simp only [List.cons.injEq, and_true] at hparts
  exact Subtype.ext (Prod.ext hparts.1 hparts.2)

/-- The key of a slot begins with U+0000. -/
theorem GradeSlot.not_isPlain (slot : GradeSlot) : ¬ IsPlain slot.key := by
  rw [IsPlain, GradeSlot.key, compositeKey_eq]
  exact fun h ↦ h rfl

theorem GradeSlot.key_ne (slot : GradeSlot) (id : StudentID) : slot.key ≠ id.1 := by
  intro h
  exact slot.not_isPlain (h ▸ id.2.2)

/-- The key of a slot is no student of another slot. -/
theorem GradeSlot.not_all_parts_key (slot : GradeSlot) (school : String) :
    ¬ [slot.key, school].all isCompositeKeyPart := by
  intro h
  have hmem : minUnicodeRune ∈ slot.key.toList := by
    rw [GradeSlot.key, compositeKey_eq]
    exact List.mem_cons_self
  exact separator_not_mem h _ (List.mem_map_of_mem List.mem_cons_self) hmem

/-- The slot of the keys that the stub makes for grades. -/
theorem Stub.Lawful.exists_slot (hstub : stub.Lawful) {studentID school key : String}
    (h : stub.createCompositeKey compositeKeyStudentGrade [studentID, school] = .ok key) :
    ∃ slot : GradeSlot, slot.1 = (studentID, school) ∧ slot.key = key := by
  obtain ⟨hparts, rfl⟩ := hstub.createCompositeKey_eq_ok_iff.mp h
  rw [List.all_cons, Bool.and_eq_true] at hparts
  exact ⟨⟨(studentID, school), hparts.2⟩, rfl, rfl⟩

theorem Stub.Lawful.createCompositeKey_slot (hstub : stub.Lawful) (slot : GradeSlot) :
    stub.createCompositeKey compositeKeyStudentGrade [slot.1.1, slot.1.2] = .ok slot.key :=
  hstub.createCompositeKey_ok _ _ slot.all_parts

theorem createdStudent_eq (ctx : Context) (student : Student) : createdStudent ctx student =
    { id := student.id
      name := student.name
      admissionYear := student.admissionYear
      major := student.major
      school := if ctx.client.mspID = educationBureauMSP then student.school else ctx.client.mspID
      graduated := false
      creationDate := ctx.now.format } := by
  unfold createdStudent
  split_ifs <;> first | rfl | contradiction

theorem updatedStudent_eq (existOne student : Student) : updatedStudent existOne student =
    { id := existOne.id
      name := student.name
      admissionYear := student.admissionYear
      major := student.major
      school := if student.school = "" then existOne.school else student.school
      graduated := student.graduated
      creationDate := existOne.creationDate } := by
  unfold updatedStudent
  split_ifs <;> first | rfl | contradiction

theorem isSome_of_stored {ledger : Ledger} {key : String} {student : Student}
    (h : storedStudent ledger key = .ok student) : (ledger.value key).isSome := by
  obtain ⟨text, hvalue, -⟩ := (storedStudent_eq_ok_iff ledger).mp h
  rw [hvalue]
  rfl

/-- The transaction stores student records only under IDs that do not begin with U+0000. -/
def KeepsPlain (tx : Transaction) : Prop :=
  ∀ key, tx.command.studentKey = some key → IsPlain key

namespace StoredIn

variable {register : Register} {ledger : Ledger}

theorem empty : StoredIn Register.empty [] where
  records := Keeps.nil
  grades := Keeps.nil
  covered _ hsome := by cases hsome
  ids _ _ hrecord := by cases hrecord

/-- The stored record of an ID is the record of the register. -/
theorem storedStudent_eq_ok_iff (h : StoredIn register ledger) (id : StudentID)
    {student : Student} :
    storedStudent ledger id = .ok student ↔ register.record id = some student := by
  rw [Chaincode.storedStudent_eq_ok_iff, h.records.value_eq id, Register.record]
  cases (register.records id).head? with
  | none => simp
  | some current => simp [unmarshal_marshal]

/-- What a student lookup finds at a key that is no ID of the register has that key as its ID. -/
theorem id_of_stored (h : StoredIn register ledger) {key : String} {student : Student}
    (hstored : storedStudent ledger key = .ok student) : student.id = key := by
  obtain ⟨text, hvalue, hdecoded⟩ := (Chaincode.storedStudent_eq_ok_iff ledger).mp hstored
  rcases h.covered key (by rw [hvalue]; rfl) with ⟨id, rfl⟩ | ⟨slot, rfl⟩
  · exact h.ids id student ((h.storedStudent_eq_ok_iff id).mp hstored)
  · rw [h.grades.value_eq slot] at hvalue
    obtain ⟨grade, -, rfl⟩ := Option.map_eq_some_iff.mp hvalue
    rw [unmarshal_student_marshal_grade] at hdecoded
    cases hdecoded
    rfl

/-- Storing a record of an ID. -/
theorem setRecord (h : StoredIn register ledger) (id : StudentID) {student : Student}
    (hid : student.id = id) :
    StoredIn (register.setRecord id student) ([(id.1, marshal student)] :: ledger) where
  records := h.records.put Subtype.val_injective id student
  grades := h.grades.frame (fun slot ↦ slot.key_ne id) _
  covered key hsome := by
    rw [Chain.value_cons_singleton] at hsome
    split_ifs at hsome with heq
    · exact Or.inl ⟨id, heq⟩
    · exact h.covered key hsome
  ids other current hrecord := by
    rw [Register.record_setRecord] at hrecord
    split_ifs at hrecord with heq
    · cases hrecord
      exact heq ▸ hid
    · exact h.ids other current hrecord

/-- Storing a grade in a slot. -/
theorem addGrade (h : StoredIn register ledger) (slot : GradeSlot) (grade : Grade) :
    StoredIn (register.addGrade slot grade)
      ([(slot.key, marshal (grade.entry slot.key))] :: ledger) where
  records := h.records.frame (fun id ↦ (slot.key_ne id).symm) _
  grades := h.grades.put GradeSlot.key_injective slot grade
  covered key hsome := by
    rw [Chain.value_cons_singleton] at hsome
    split_ifs at hsome with heq
    · exact Or.inr ⟨slot, heq⟩
    · exact h.covered key hsome
  ids := h.ids

/-- A step of the contract on a ledger that stores a register is a step of the register. -/
theorem simulates (hstub : stub.Lawful) (h : StoredIn register ledger) {tx : Transaction}
    (hplain : KeepsPlain tx) {read key text : String}
    (heffect : Effect (tx.context stub) ledger tx.command read key text) :
    ∃ next, Register.Step tx.client tx.now register tx.command next ∧
      StoredIn next ([(key, text)] :: ledger) := by
  obtain ⟨client, now, command⟩ := tx
  cases heffect with
  | @create studentJSON student accepts =>
    have hplain := hplain student.id
      (by simp [Command.studentKey, accepts.decoded, Except.toOption])
    let id : StudentID := ⟨student.id, accepts.keyed, hplain⟩
    have hfresh : register.record id = none := by
      rw [Register.record, List.head?_eq_none_iff, ← h.records.value_eq_none_iff]
      exact accepts.fresh
    refine
      ⟨_, .enrol id accepts.manager accepts.decoded rfl hfresh accepts.school accepts.named, ?_⟩
    rw [createdStudent_eq]
    exact h.setRecord id rfl
  | update accepts =>
    let id : StudentID := ⟨read, accepts.keyed, hplain read rfl⟩
    have hrecorded := (h.storedStudent_eq_ok_iff id).mp accepts.stored
    have hid := h.id_of_stored accepts.stored
    refine ⟨_, .amend id accepts.manager hrecorded accepts.decoded, ?_⟩
    rw [updatedStudent_eq]
    exact h.setRecord id hid
  | grade accepts =>
    obtain ⟨slot, hslot, rfl⟩ := hstub.exists_slot accepts.composed
    rw [h.id_of_stored accepts.stored] at hslot
    obtain ⟨id, rfl⟩ : ∃ id : StudentID, id.1 = read := by
      rcases h.covered read (isSome_of_stored accepts.stored) with hid | ⟨other, rfl⟩
      · exact hid
      · -- a key of a slot holds U+0000, so that no slot has it as its student
        have hparts := slot.2
        rw [hslot] at hparts
        exact absurd hparts (other.not_all_parts_key _)
    have hrecorded := (h.storedStudent_eq_ok_iff id).mp accepts.stored
    exact ⟨_, .file id slot accepts.manager hrecorded accepts.visible accepts.decoded hslot,
      h.addGrade slot _⟩

/-- A step of the register is a step of the contract on every ledger that stores the register. -/
theorem simulated (hstub : stub.Lawful) (h : StoredIn register ledger) {tx : Transaction}
    {next : Register} (hstep : Register.Step tx.client tx.now register tx.command next) :
    ∃ read key text, Effect (tx.context stub) ledger tx.command read key text ∧
      StoredIn next ([(key, text)] :: ledger) := by
  obtain ⟨client, now, command⟩ := tx
  cases hstep with
  | @enrol studentJSON student id manager decoded hid fresh school named =>
    obtain ⟨studentID, hvalid⟩ := id
    obtain rfl : student.id = studentID := hid
    rw [Register.record, List.head?_eq_none_iff, ← h.records.value_eq_none_iff] at fresh
    refine ⟨_, _, _, .create ⟨manager, decoded, fresh, school, named, hvalid.1⟩, ?_⟩
    rw [createdStudent_eq]
    exact h.setRecord ⟨student.id, hvalid⟩ rfl
  | @amend studentUpdateJSON current student id manager recorded decoded =>
    have hstored := (h.storedStudent_eq_ok_iff id).mpr recorded
    refine ⟨_, _, _, .update ⟨manager, hstored, decoded, id.2.1⟩, ?_⟩
    rw [updatedStudent_eq]
    exact h.setRecord id (h.ids id current recorded)
  | @file gradeJSON current grade id slot manager recorded visible decoded hslot =>
    have hstored := (h.storedStudent_eq_ok_iff id).mpr recorded
    have hcomposed := hstub.createCompositeKey_slot slot
    rw [hslot, ← h.ids id current recorded] at hcomposed
    exact ⟨_, _, _, .grade ⟨manager, hstored, visible, decoded, hcomposed,
      compositeKey_ne_empty _ _⟩, h.addGrade slot _⟩

end StoredIn

/-! ### Runs -/

/-- On runs that keep the IDs of students apart from composite keys the contract is the register:
the same sequences of transactions succeed, and the ledger that they build stores the register that
they lead to. -/
theorem refines_register (hstub : stub.Lawful) (txs : List Transaction) :
    (∀ ledger, Reaches stub txs ledger → (∀ tx ∈ txs, KeepsPlain tx) →
      ∃ register, Register.Runs txs register ∧ StoredIn register ledger) ∧
    ∀ register, Register.Runs txs register →
      ∃ ledger, Reaches stub txs ledger ∧ StoredIn register ledger := by
  constructor
  · intro ledger hreaches
    refine hreaches.induction (motive := fun txs ledger ↦ (∀ tx ∈ txs, KeepsPlain tx) →
      ∃ register, Register.Runs txs register ∧ StoredIn register ledger) ?_ ?_
    · exact fun _ ↦ ⟨_, .nil, .empty⟩
    · intro tx earlier older read key text _ ih heffect hplain
      obtain ⟨register, hruns, hstored⟩ :=
        ih fun tx' htx' ↦ hplain tx' (List.mem_cons_of_mem _ htx')
      obtain ⟨next, hstep, hnext⟩ := hstored.simulates hstub (hplain tx List.mem_cons_self) heffect
      exact ⟨next, hruns.cons hstep, hnext⟩
  · intro register hruns
    induction hruns with
    | nil => exact ⟨[], reaches_nil, .empty⟩
    | cons runs step ih =>
      obtain ⟨older, holder, hstored⟩ := ih
      obtain ⟨read, key, text, heffect, hnext⟩ := hstored.simulated hstub step
      exact ⟨_, holder.cons heffect, hnext⟩

end StudentStatus.Chaincode
