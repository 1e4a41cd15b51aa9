import StudentStatus.Chaincode.RecordInvariant

/-!
# Updates of some fields

The payload of `UpdateStudent` may mention any of the fields. What it mentions is a `StudentUpdate`,
decoded from the same text with every field optional; the student that the contract decodes is this
update with the absent fields set to their zero values (`unmarshal_student_eq`). The contract cannot
tell an absent field from a zero value, so it overwrites the name, the major, the admission year and
the graduation with the zero value where the payload does not mention them. The school is the
exception: it is kept when it is empty, also when the payload asks for an empty school.

An update therefore changes just what it mentions exactly when it mentions whatever is not zero in
the stored record and leaves the school out or non-empty (`Harmless`), and two updates of disjoint
fields survive each other exactly when both set fields to zero values only (`Recessive`).
-/

set_option autoImplicit false
set_option relaxedAutoImplicit false

namespace StudentStatus.Chaincode

open Interaction Optimistic Json

/-! ### What a payload mentions -/

/-- What a payload gives for each field, `none` where it does not mention the field. -/
structure StudentUpdate where
  id : Option String
  name : Option String
  admissionYear : Option Int64
  major : Option String
  school : Option String
  graduated : Option Bool
  creationDate : Option String
  deriving DecidableEq

instance : Struct StudentUpdate where
  fields :=
    [.string "id" (fun u ↦ u.id.getD "") fun v u ↦ { u with id := some v },
      .string "name" (fun u ↦ u.name.getD "") fun v u ↦ { u with name := some v },
      .int "admissionYear" (fun u ↦ u.admissionYear.getD 0)
        fun v u ↦ { u with admissionYear := some v },
      .string "major" (fun u ↦ u.major.getD "") fun v u ↦ { u with major := some v },
      .string "school" (fun u ↦ u.school.getD "") fun v u ↦ { u with school := some v },
      .bool "graduated" (fun u ↦ u.graduated.getD false) fun v u ↦ { u with graduated := some v },
      .string "creationDate" (fun u ↦ u.creationDate.getD "")
        fun v u ↦ { u with creationDate := some v }]
  zero := ⟨none, none, none, none, none, none, none⟩

namespace StudentUpdate

/-- The student that an update decodes to: absent fields have their zero values. -/
def decoded (update : StudentUpdate) : Student where
  id := update.id.getD ""
  name := update.name.getD ""
  admissionYear := update.admissionYear.getD 0
  major := update.major.getD ""
  school := update.school.getD ""
  graduated := update.graduated.getD false
  creationDate := update.creationDate.getD ""

/-- The record with the mentioned fields set, and the id, the creation date and every field that is
not mentioned as they were. -/
def applyTo (update : StudentUpdate) (existOne : Student) : Student :=
  { existOne with
    name := update.name.getD existOne.name
    admissionYear := update.admissionYear.getD existOne.admissionYear
    major := update.major.getD existOne.major
    school := update.school.getD existOne.school
    graduated := update.graduated.getD existOne.graduated }

/-- The mentioned fields have the given values. -/
def InEffect (update : StudentUpdate) (student : Student) : Prop := update.applyTo student = student

/-- No field is mentioned by both updates. -/
structure Disjoint (first second : StudentUpdate) : Prop where
  name : first.name = none ∨ second.name = none
  admissionYear : first.admissionYear = none ∨ second.admissionYear = none
  major : first.major = none ∨ second.major = none
  school : first.school = none ∨ second.school = none
  graduated : first.graduated = none ∨ second.graduated = none

/-- Every field that is not mentioned has its zero value in the record, except the school, which is
empty if an empty school is asked for. -/
structure Harmless (update : StudentUpdate) (existOne : Student) : Prop where
  name : update.name = none → existOne.name = ""
  admissionYear : update.admissionYear = none → existOne.admissionYear = 0
  major : update.major = none → existOne.major = ""
  school : update.school = some "" → existOne.school = ""
  graduated : update.graduated = none → existOne.graduated = false

/-- Every field that is mentioned is set to its zero value, except the school, which is empty if an
empty school is asked for. -/
structure Recessive (update : StudentUpdate) (existOne : Student) : Prop where
  name : ∀ v, update.name = some v → v = ""
  admissionYear : ∀ v, update.admissionYear = some v → v = 0
  major : ∀ v, update.major = some v → v = ""
  school : update.school = some "" → existOne.school = ""
  graduated : ∀ v, update.graduated = some v → v = false

end StudentUpdate

open StudentUpdate

/-- Each field of a student decodes like the field of an update, with a zero value when absent. -/
theorem matches_decoded : List.Forall₂ (Field.Matches decoded)
    (Struct.fields : List (Json.Field Student)) Struct.fields :=
  .cons (Field.matches_string "id" fun _ _ ↦ rfl) <|
  .cons (Field.matches_string "name" fun _ _ ↦ rfl) <|
  .cons (Field.matches_int "admissionYear" fun _ _ ↦ rfl) <|
  .cons (Field.matches_string "major" fun _ _ ↦ rfl) <|
  .cons (Field.matches_string "school" fun _ _ ↦ rfl) <|
  .cons (Field.matches_bool "graduated" fun _ _ ↦ rfl) <|
  .cons (Field.matches_string "creationDate" fun _ _ ↦ rfl) .nil

/-- The contract decodes a payload as the update with zero values for the absent fields. -/
theorem unmarshal_student_eq (text : String) :
    (unmarshal text : Except DecodeError Student) =
      (unmarshal text : Except DecodeError StudentUpdate).map decoded :=
  unmarshal_map (h := decoded) rfl matches_decoded text

/-! ### What an accepted update leaves -/

/-- The ledger after an execution of `UpdateStudent`. -/
def afterUpdate (ctx : Context) (ledger : Ledger) (studentID studentUpdateJSON : String) : Ledger :=
  (endorse ctx ledger (.command (.updateStudent studentID studentUpdateJSON))).writes :: ledger

variable {ledger : Ledger} {studentID : String} {existOne : Student}

theorem storedStudent_afterUpdate {ctx : Context} {text : String} {student : Student}
    (h : UpdateAccepts ctx ledger studentID text existOne student) :
    storedStudent (afterUpdate ctx ledger studentID text) studentID =
      .ok (updatedStudent existOne student) := by
  rw [afterUpdate, (Effect.update h).endorse_eq, storedStudent_cons, if_pos rfl, unmarshal_marshal]
  rfl

/-- An accepted payload mentions something or nothing for each field. -/
theorem UpdateAccepts.exists_update {ctx : Context} {text : String} {student : Student}
    (h : UpdateAccepts ctx ledger studentID text existOne student) :
    ∃ update : StudentUpdate, unmarshal text = .ok update ∧ update.decoded = student := by
  have hdecoded := h.decoded
  rw [unmarshal_student_eq] at hdecoded
  cases hupdate : (unmarshal text : Except DecodeError StudentUpdate) with
  | error err =>
    rw [hupdate] at hdecoded
    cases hdecoded
  | ok update =>
    rw [hupdate] at hdecoded
    exact ⟨update, rfl, Except.ok.inj hdecoded⟩

theorem UpdateAccepts.decoded_eq {ctx : Context} {text : String} {student : Student}
    (h : UpdateAccepts ctx ledger studentID text existOne student) {update : StudentUpdate}
    (hupdate : unmarshal text = .ok update) : student = update.decoded := by
  obtain ⟨update', hupdate', rfl⟩ := h.exists_update
  cases Except.ok.inj (hupdate.symm.trans hupdate')
  rfl

/-- A field that falls back to a zero value agrees with one that falls back to the stored value. -/
theorem getD_eq_getD_iff {α : Type} {given : Option α} {zero stored : α} :
    given.getD zero = given.getD stored ↔ (given = none → stored = zero) := by
  cases given <;> simp [eq_comm]

/-- A school that falls back to the stored one when it is empty agrees with one that falls back when
it is absent. -/
theorem school_eq_getD_iff {given : Option String} {stored : String} :
    (if given.getD "" ≠ "" then given.getD "" else stored) = given.getD stored ↔
      (given = some "" → stored = "") := by
  cases given with
  | none => simp
  | some school => by_cases hschool : school = "" <;> simp [hschool]

/-- The contract's assignments do what the update asks for exactly when it is harmless. -/
theorem updatedStudent_decoded_eq_iff {update : StudentUpdate} :
    updatedStudent existOne update.decoded = update.applyTo existOne ↔
      update.Harmless existOne := by
  unfold updatedStudent decoded applyTo
  simp only [Student.mk.injEq, getD_eq_getD_iff, school_eq_getD_iff, true_and, and_true]
  exact ⟨fun ⟨hname, hyear, hmajor, hschool, hgraduated⟩ ↦
      ⟨hname, hyear, hmajor, hschool, hgraduated⟩,
    fun h ↦ ⟨h.name, h.admissionYear, h.major, h.school, h.graduated⟩⟩

/-! ### Two updates of disjoint fields -/

/-- A field that a later update may have reset has its given value exactly when that is zero. -/
theorem getD_reset_iff {α : Type} {given later : Option α} {zero : α}
    (hdisjoint : given = none ∨ later = none) :
    given.getD (later.getD zero) = later.getD zero ↔ ∀ v, given = some v → v = zero := by
  rcases hdisjoint with rfl | rfl
  · simp
  · cases given <;> simp

theorem getD_idem {α : Type} (given : Option α) (zero : α) :
    given.getD (given.getD zero) = given.getD zero := by
  cases given <;> rfl

/-- The school after two updates, one of which does not mention it. -/
theorem school_getD_iff {given other : Option String} {stored : String}
    (hdisjoint : given = none ∨ other = none) {left : String}
    (hleft : left = if (given.or other).getD "" ≠ "" then (given.or other).getD "" else stored) :
    given.getD left = left ↔ (given = some "" → stored = "") := by
  cases given with
  | none => simp
  | some school =>
    obtain rfl := hdisjoint.resolve_left (by simp)
    by_cases hschool : school = "" <;> simp [hleft, hschool, eq_comm]

variable {first second : StudentUpdate}

/-- The school that two updates of disjoint fields leave. -/
theorem school_updatedStudent_updatedStudent (hdisjoint : first.Disjoint second) :
    (updatedStudent (updatedStudent existOne first.decoded) second.decoded).school =
      if (first.school.or second.school).getD "" ≠ "" then (first.school.or second.school).getD ""
      else existOne.school := by
  unfold updatedStudent decoded
  rcases hdisjoint.school with hnone | hnone <;> cases hfirst : first.school <;>
    cases hsecond : second.school <;> simp_all

/-- The earlier of two updates of disjoint fields is in effect exactly when it is recessive. -/
theorem first_inEffect_iff (hdisjoint : first.Disjoint second) :
    first.InEffect (updatedStudent (updatedStudent existOne first.decoded) second.decoded) ↔
      first.Recessive existOne := by
  have hleft := @school_updatedStudent_updatedStudent existOne _ _ hdisjoint
  have hschool := school_getD_iff hdisjoint.school hleft
  constructor
  · intro h
    obtain ⟨-, hname, hyear, hmajor, hleft, hgraduated, -⟩ := Student.mk.inj h
    exact ⟨(getD_reset_iff hdisjoint.name).mp hname,
      (getD_reset_iff hdisjoint.admissionYear).mp hyear,
      (getD_reset_iff hdisjoint.major).mp hmajor, hschool.mp hleft,
      (getD_reset_iff hdisjoint.graduated).mp hgraduated⟩
  · intro h
    have hname := (getD_reset_iff hdisjoint.name).mpr h.name
    have hyear := (getD_reset_iff hdisjoint.admissionYear).mpr h.admissionYear
    have hmajor := (getD_reset_iff hdisjoint.major).mpr h.major
    have hgraduated := (getD_reset_iff hdisjoint.graduated).mpr h.graduated
    exact (Student.mk.injEq ..).mpr
      ⟨rfl, hname, hyear, hmajor, hschool.mpr h.school, hgraduated, rfl⟩

/-- The later of two updates of disjoint fields is in effect, but for an empty school. -/
theorem second_inEffect_iff (hdisjoint : first.Disjoint second) :
    second.InEffect (updatedStudent (updatedStudent existOne first.decoded) second.decoded) ↔
      (second.school = some "" → existOne.school = "") := by
  have hor : first.school.or second.school = second.school.or first.school := by
    rcases hdisjoint.school with hnone | hnone <;> simp [hnone]
  have hleft := @school_updatedStudent_updatedStudent existOne _ _ hdisjoint
  rw [hor] at hleft
  have hschool := school_getD_iff hdisjoint.school.symm hleft
  constructor
  · intro h
    obtain ⟨-, -, -, -, hkept, -, -⟩ := Student.mk.inj h
    exact hschool.mp hkept
  · intro h
    exact (Student.mk.injEq ..).mpr
      ⟨rfl, getD_idem _ _, getD_idem _ _, getD_idem _ _, hschool.mpr h, getD_idem _ _, rfl⟩

/-- Both updates are in effect after the first and then the second are executed. -/
def BothInEffect (ctx ctx' : Context) (ledger : Ledger) (studentID text text' : String)
    (first second : StudentUpdate) : Prop :=
  ∃ student,
    storedStudent (afterUpdate ctx' (afterUpdate ctx ledger studentID text) studentID text')
      studentID = .ok student ∧ first.InEffect student ∧ second.InEffect student

/-- After an accepted update another one is still accepted, on the record that the first left. -/
theorem UpdateAccepts.after {ctx ctx' : Context} {text text' : String} {student student' : Student}
    (h : UpdateAccepts ctx ledger studentID text existOne student)
    (h' : UpdateAccepts ctx' ledger studentID text' existOne student') :
    UpdateAccepts ctx' (afterUpdate ctx ledger studentID text) studentID text'
      (updatedStudent existOne student) student' :=
  ⟨h'.manager, storedStudent_afterUpdate h, h'.decoded, h'.keyed⟩

theorem bothInEffect_iff {ctx ctx' : Context} {text text' : String} {student student' : Student}
    (h : UpdateAccepts ctx ledger studentID text existOne student)
    (h' : UpdateAccepts ctx' ledger studentID text' existOne student')
    (hfirst : unmarshal text = .ok first) (hsecond : unmarshal text' = .ok second)
    (hdisjoint : first.Disjoint second) :
    BothInEffect ctx ctx' ledger studentID text text' first second ↔
      first.Recessive existOne ∧ (second.school = some "" → existOne.school = "") := by
  have hstored := storedStudent_afterUpdate (h.after h')
  obtain rfl := h.decoded_eq hfirst
  obtain rfl := h'.decoded_eq hsecond
  rw [← first_inEffect_iff hdisjoint, ← second_inEffect_iff hdisjoint, BothInEffect, hstored]
  constructor
  · rintro ⟨_, hleft, hboth⟩
    obtain rfl := Except.ok.inj hleft
    exact hboth
  · exact fun hboth ↦ ⟨_, rfl, hboth⟩

theorem StudentUpdate.Disjoint.symm (h : first.Disjoint second) : second.Disjoint first :=
  ⟨h.name.symm, h.admissionYear.symm, h.major.symm, h.school.symm, h.graduated.symm⟩

variable (ledger studentID existOne) in
/-- An accepted update changes just what it mentions exactly when it is harmless to the stored
record; and two accepted updates of disjoint fields are both in effect afterwards in either order
exactly when both are recessive. -/
theorem updateStudent_mentioned_iff :
    (∀ ctx text student (update : StudentUpdate),
      UpdateAccepts ctx ledger studentID text existOne student → unmarshal text = .ok update →
      (storedStudent (afterUpdate ctx ledger studentID text) studentID =
          .ok (update.applyTo existOne) ↔ update.Harmless existOne)) ∧
    ∀ ctx ctx' text text' student student' first second,
      UpdateAccepts ctx ledger studentID text existOne student →
      UpdateAccepts ctx' ledger studentID text' existOne student' →
      unmarshal text = .ok first → unmarshal text' = .ok second → first.Disjoint second →
      (BothInEffect ctx ctx' ledger studentID text text' first second ∧
          BothInEffect ctx' ctx ledger studentID text' text second first ↔
        first.Recessive existOne ∧ second.Recessive existOne) := by
  constructor
  · intro ctx text student update h hupdate
    obtain rfl := h.decoded_eq hupdate
    rw [storedStudent_afterUpdate h, Except.ok.injEq, updatedStudent_decoded_eq_iff]
  · intro ctx ctx' text text' student student' first second h h' hfirst hsecond hdisjoint
    rw [bothInEffect_iff h h' hfirst hsecond hdisjoint,
      bothInEffect_iff h' h hsecond hfirst hdisjoint.symm]
    exact ⟨fun hboth ↦ ⟨hboth.1.1, hboth.2.1⟩,
      fun hboth ↦ ⟨⟨hboth.1, hboth.2.school⟩, hboth.2, hboth.1.school⟩⟩

/-- The update that graduates the sample student and sends every other field along. -/
def fullGraduation : String :=
  "\x7b\"name\":\"Ada\",\"admissionYear\":2023,\"graduated\":true,\"major\":\"Mathematics\"\x7d"

theorem unmarshal_fullGraduation : unmarshal fullGraduation =
    .ok (⟨none, some "Ada", some 2023, some "Mathematics", none, some true, none⟩ :
      StudentUpdate) := by
  decide +kernel

/-- The first school's manager may send any payload that decodes for the sample student. -/
theorem updateAccepts_of_update {text : String} {update : StudentUpdate}
    (hupdate : unmarshal text = .ok update) :
    UpdateAccepts ⟨fabricStub, school1Manager, noon⟩ [[("s1", marshal ada)]] "s1" text ada
      update.decoded where
  manager := isManager_school1Manager
  stored := storedStudent_ada
  decoded := by rw [unmarshal_student_eq, hupdate]; rfl
  keyed := by decide

theorem updateStudent_fullGraduation :
    storedStudent (afterUpdate ⟨fabricStub, school1Manager, noon⟩ [[("s1", marshal ada)]] "s1"
      fullGraduation) "s1" = .ok { ada with graduated := true } := by
  have hmentioned := (updateStudent_mentioned_iff [[("s1", marshal ada)]] "s1" ada).1 _ _ _ _
    (updateAccepts_of_update unmarshal_fullGraduation) unmarshal_fullGraduation
  refine (hmentioned.mpr ⟨?_, ?_, ?_, ?_, ?_⟩).trans rfl
  all_goals exact fun h ↦ by cases h

/-- A payload that mentions the graduation only. -/
def graduation : String := "\x7b\"graduated\":true\x7d"

/-- What it mentions. -/
def graduates : StudentUpdate := ⟨none, none, none, none, none, some true, none⟩

theorem unmarshal_graduation : unmarshal graduation = .ok graduates := by decide +kernel

/-- Graduating a student without sending the other fields erases the name, the admission year and
the major. -/
theorem updateStudent_graduation :
    Reachable fabricStub [[("s1", marshal ada)]] ∧
      UpdateAccepts ⟨fabricStub, school1Manager, noon⟩ [[("s1", marshal ada)]] "s1" graduation ada
        graduates.decoded ∧
      unmarshal graduation = .ok graduates ∧
      storedStudent (afterUpdate ⟨fabricStub, school1Manager, noon⟩ [[("s1", marshal ada)]] "s1"
        graduation) "s1" = .ok ⟨"s1", "", 0, "", "School1MSP", true, noon.format⟩ ∧
      graduates.applyTo ada =
        ⟨"s1", "Ada", 2023, "Mathematics", "School1MSP", true, noon.format⟩ := by
  have accepts := updateAccepts_of_update unmarshal_graduation
  exact ⟨⟨_, reaches_enrolment⟩, accepts, unmarshal_graduation,
    (storedStudent_afterUpdate accepts).trans rfl, rfl⟩

end StudentStatus.Chaincode
