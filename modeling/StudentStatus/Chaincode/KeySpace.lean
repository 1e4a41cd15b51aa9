import StudentStatus.Chaincode.CompositeKeys
import StudentStatus.Chaincode.RecordInvariant

/-!
# The key space

Students and grades share one key space. A grade always goes to a composite key of a student's ID
and school (`Effect.kind`), but a student record goes to whatever ID the caller gives, which may be
such a key. In a run where none does (`KeepsOffGradeKeys`), the grade keys are last written by
`CreateStudentGrade` and all other keys by the other two, and no transaction changes a key of the
other kind; one that does breaks this at once (`apart_iff_keepsOffGradeKeys`).
-/

set_option autoImplicit false
set_option relaxedAutoImplicit false

namespace StudentStatus.Chaincode

open Interaction Optimistic Json

/-- A key under which a grade of some student at some school is filed. -/
def IsGradeKey (stub : Stub) (key : String) : Prop :=
  ∃ studentID school, stub.createCompositeKey compositeKeyStudentGrade [studentID, school] = .ok key

/-- The command files a grade. -/
def Command.IsGrading : Command → Prop
  | .createStudentGrade _ _ => True
  | _ => False

/-- The ID under which the command stores a student record. -/
def Command.studentKey : Command → Option String
  | .createStudent studentJSON =>
    (unmarshal studentJSON : Except DecodeError Student).toOption.map Student.id
  | .updateStudent studentID _ => some studentID
  | .createStudentGrade _ _ => none

theorem Command.IsGrading.studentKey {command : Command} (h : command.IsGrading) :
    command.studentKey = none := by
  cases command with
  | createStudentGrade studentID gradeJSON => rfl
  | _ => exact h.elim

/-- An effect files a grade at a grade key, or stores a student record under the command's ID. -/
theorem Effect.kind {ctx : Context} {ledger : Ledger} {command : Command}
    {read key text : String} (h : Effect ctx ledger command read key text) :
    (command.IsGrading ∧ IsGradeKey ctx.stub key) ∨
      (¬ command.IsGrading ∧ command.studentKey = some key) := by
  cases h with
  | create accepts =>
    refine Or.inr ⟨id, ?_⟩
    simp [Command.studentKey, accepts.decoded, Except.toOption]
  | update accepts => exact Or.inr ⟨id, rfl⟩
  | grade accepts => exact Or.inl ⟨trivial, _, _, accepts.composed⟩

/-- Every key that has a value is a grade key or the ID of a student that was created. -/
theorem Reaches.registered_or_isGradeKey {stub : Stub} {txs : List Transaction} {ledger : Ledger}
    (h : Reaches stub txs ledger) {key : String} (hsome : (ledger.value key).isSome) :
    Registered txs key ∨ IsGradeKey stub key := by
  refine h.induction (motive := fun txs ledger ↦ (ledger.value key).isSome →
    Registered txs key ∨ IsGradeKey stub key) (fun hnil ↦ by cases hnil) ?_ hsome
  intro tx earlier older read written text _ ih heffect hsome
  have hearlier (hbefore : (older.value key).isSome) :
      Registered (tx :: earlier) key ∨ IsGradeKey stub key :=
    (ih hbefore).imp_left fun hregistered ↦ registered_cons.mpr (Or.inr hregistered)
  rw [Chain.value_cons_singleton] at hsome
  split_ifs at hsome with heq
  · cases heq
    obtain ⟨client, now, command⟩ := tx
    cases heffect with
    | @create studentJSON student accepts =>
      exact Or.inl ⟨_, List.mem_cons_self, studentJSON, rfl, student, accepts.decoded, rfl⟩
    | update accepts =>
      obtain ⟨stored, hstored, -⟩ := (storedStudent_eq_ok_iff older).mp accepts.stored
      exact hearlier (by rw [hstored]; rfl)
    | grade accepts => exact Or.inr ⟨_, _, accepts.composed⟩
  · exact hearlier hsome

/-- Every text that was ever committed under another key than a grade key is a student record. -/
theorem Reaches.student_or_isGradeKey {stub : Stub} {txs : List Transaction} {ledger : Ledger}
    (h : Reaches stub txs ledger) {key text : String} (hmem : text ∈ ledger.history key) :
    (∃ student : Student, text = marshal student) ∨ IsGradeKey stub key := by
  refine h.induction (motive := fun _ ledger ↦ text ∈ ledger.history key →
    (∃ student : Student, text = marshal student) ∨ IsGradeKey stub key) (fun hnil ↦ by cases hnil)
    ?_ hmem
  intro tx earlier older read written newest _ ih heffect hmem
  rw [Chain.history_cons_singleton] at hmem
  split_ifs at hmem with heq
  · cases heq
    rcases List.mem_cons.mp hmem with rfl | hmem
    · obtain ⟨client, now, command⟩ := tx
      cases heffect with
      | create accepts => exact Or.inl ⟨_, rfl⟩
      | update accepts => exact Or.inl ⟨_, rfl⟩
      | grade accepts => exact Or.inr ⟨_, _, accepts.composed⟩
    · exact ih hmem
  · exact ih hmem

/-- The transaction does not store a student record under a grade key. -/
def KeepsOffGradeKeys (stub : Stub) (tx : Transaction) : Prop :=
  ∀ key, tx.command.studentKey = some key → ¬ IsGradeKey stub key

/-- The value of every grade key was written by `CreateStudentGrade`, every other value by
`CreateStudent` or `UpdateStudent`. -/
def WrittenByKind (stub : Stub) (txs : List Transaction) (ledger : Ledger) : Prop :=
  ∀ key, (ledger.value key).isSome → ∃ writer, lastWriter txs ledger key = some writer ∧
    (IsGradeKey stub key ↔ writer.command.IsGrading)

/-- A transaction leaves alone what transactions of the other kind wrote: neither the value nor the
history of such a key changes. -/
def LeavesOtherKind (tx : Transaction) (earlier : List Transaction) (older ledger : Ledger) :
    Prop :=
  ∀ key writer, lastWriter earlier older key = some writer →
    ¬ (tx.command.IsGrading ↔ writer.command.IsGrading) → ledger.history key = older.history key

/-- Students and grades are apart after the run, and the last transaction left the records of the
other kind alone. -/
def Apart (stub : Stub) (txs : List Transaction) (ledger : Ledger) : Prop :=
  WrittenByKind stub txs ledger ∧
    ∀ tx earlier older, txs = tx :: earlier → Reaches stub earlier older →
      LeavesOtherKind tx earlier older ledger

variable {stub : Stub}

/-- One step of a run that keeps off the grade keys. -/
theorem WrittenByKind.cons {tx : Transaction} {earlier : List Transaction} {older : Ledger}
    {read key text : String} (h : WrittenByKind stub earlier older)
    (heffect : Effect (tx.context stub) older tx.command read key text)
    (hkeeps : KeepsOffGradeKeys stub tx) :
    WrittenByKind stub (tx :: earlier) ([(key, text)] :: older) := by
  intro written hsome
  rw [Chain.value_cons_singleton] at hsome
  rw [lastWriter_cons_singleton]
  split_ifs at hsome ⊢ with heq
  · cases heq
    refine ⟨tx, rfl, ?_⟩
    rcases heffect.kind with ⟨hgrading, hkey⟩ | ⟨hstudent, hkey⟩
    · exact iff_of_true hkey hgrading
    · exact iff_of_false (hkeeps key hkey) hstudent
  · exact h written hsome

/-- A transaction that keeps off the grade keys writes at a key of its own kind. -/
theorem WrittenByKind.leavesOtherKind {tx : Transaction} {earlier : List Transaction}
    {older : Ledger} {read key text : String} (h : WrittenByKind stub earlier older)
    (holder : Reaches stub earlier older)
    (heffect : Effect (tx.context stub) older tx.command read key text)
    (hkeeps : KeepsOffGradeKeys stub tx) :
    LeavesOtherKind tx earlier older ([(key, text)] :: older) := by
  intro other writer hwriter hkind
  rw [Chain.history_cons_singleton, if_neg]
  rintro rfl
  have hsome := isSome_lastWriter holder key
  rw [hwriter] at hsome
  obtain ⟨writer', hwriter', hiff⟩ := h key hsome.symm
  cases Option.some.inj (hwriter.symm.trans hwriter')
  rcases heffect.kind with ⟨hgrading, hkey⟩ | ⟨hstudent, hkey⟩
  · exact hkind (iff_of_true hgrading (hiff.mp hkey))
  · exact hkind (iff_of_false hstudent fun hgrading ↦ hkeeps _ hkey (hiff.mpr hgrading))

/-- A transaction that stores a student record under a grade key is the last writer of that key. -/
theorem WrittenByKind.keepsOffGradeKeys {tx : Transaction} {earlier : List Transaction}
    {older : Ledger} {read key text : String}
    (h : WrittenByKind stub (tx :: earlier) ([(key, text)] :: older))
    (heffect : Effect (tx.context stub) older tx.command read key text) :
    KeepsOffGradeKeys stub tx := by
  intro studentKey hstudentKey hgradeKey
  have hsome : (Chain.value ([(key, text)] :: older) key).isSome := by
    rw [Chain.value_cons_singleton, if_pos rfl]
    rfl
  obtain ⟨writer, hwriter, hiff⟩ := h key hsome
  rw [lastWriter_cons_singleton, if_pos rfl] at hwriter
  cases hwriter
  rcases heffect.kind with ⟨hgrading, -⟩ | ⟨hstudent, hkey⟩
  · rw [hgrading.studentKey] at hstudentKey
    cases hstudentKey
  · cases hkey.symm.trans hstudentKey
    exact hstudent (hiff.mp hgradeKey)

theorem apart_nil : Apart stub [] [] := by
  refine ⟨fun key hsome ↦ ?_, fun tx earlier older hnil ↦ ?_⟩
  · cases hsome
  · cases hnil

/-- Students and grades stay apart at every moment of a run exactly when no transaction of the run
stores a student record under a grade key. -/
theorem apart_iff_keepsOffGradeKeys {txs : List Transaction} {ledger : Ledger}
    (h : Reaches stub txs ledger) :
    Always stub txs (Apart stub) ↔ EveryStep stub txs fun tx _ _ ↦ KeepsOffGradeKeys stub tx := by
  refine h.always_iff_everyStep apart_nil ?_
  intro tx earlier older read key text _ holder hapart heffect
  refine ⟨fun hnext ↦ hnext.1.keepsOffGradeKeys heffect, fun hkeeps ↦
    ⟨hapart.1.cons heffect hkeeps, ?_⟩⟩
  rintro tx' earlier' older' heq holder'
  obtain ⟨rfl, rfl⟩ := List.cons.inj heq
  cases Option.some.inj (holder.symm.trans holder')
  exact hapart.1.leavesOtherKind holder heffect hkeeps

theorem apart_iff_keepsOffGradeKeys_grading :
    Always fabricStub [grading, enrolment] (Apart fabricStub) := by
  refine (apart_iff_keepsOffGradeKeys reaches_grading).mpr
    fun tx earlier older hsuffix _ key hkey ↦ ?_
  rcases List.mem_pair.mp (hsuffix.subset List.mem_cons_self) with rfl | rfl
  · cases hkey
  · rw [enrolment, Command.studentKey, unmarshal_marshal] at hkey
    cases hkey
    rintro ⟨studentID, school, hgrade⟩
    exact fabricStub_lawful.createCompositeKey_ne (by decide) _ _ hgrade

/-- The second school updates the key of a grade that the first school filed. -/
def overwriting : Transaction :=
  ⟨school2Manager, noon, .updateStudent adaGrade.id "\x7b\x7d"⟩

/-- The key of a grade then holds a student record. -/
theorem apart_overwriting :
    ∃ ledger, Reaches fabricStub [overwriting, grading, enrolment] ledger ∧
      ¬ Apart fabricStub [overwriting, grading, enrolment] ledger := by
  have accepts : UpdateAccepts (overwriting.context fabricStub)
      [[(adaGrade.id, marshal adaGrade)], [("s1", marshal ada)]] adaGrade.id "\x7b\x7d"
      (Student.ofId adaGrade.id) Struct.zero :=
    { manager := isManager_school2Manager
      stored := (storedStudent_eq_ok_iff _).mpr
        ⟨_, rfl, unmarshal_student_marshal_grade adaGrade⟩
      decoded := unmarshal_emptyObject
      keyed := by decide +kernel }
  refine ⟨_, reaches_grading.cons (.update accepts), fun hapart ↦ ?_⟩
  have hkey : IsGradeKey fabricStub adaGrade.id :=
    ⟨"s1", "School1MSP", fabricStub_lawful.createCompositeKey_ok _ _ (by decide +kernel)⟩
  exact hapart.1.keepsOffGradeKeys (.update accepts) _ rfl hkey

end StudentStatus.Chaincode
