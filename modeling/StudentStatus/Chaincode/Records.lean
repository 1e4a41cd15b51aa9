import StudentStatus.Json.Struct

/-!
# The stored records

`Student` and `StudentGrade` with their JSON tags. Each is stored as the text that `marshal` gives
and read back by `unmarshal`. Both kinds live under the same keys, and the tag `id` is the only one
they share: either kind decodes as the other, to a record with that id and zero values elsewhere
(`unmarshal_student_marshal_grade`, `unmarshal_grade_marshal_student`). Their texts are still never
equal (`marshal_student_ne_marshal_grade`).
-/

set_option autoImplicit false
set_option relaxedAutoImplicit false

namespace StudentStatus.Chaincode

open Json

/-- A student record. -/
structure Student where
  /-- The national identity number, which is also the key of the record. -/
  id : String
  name : String
  /-- A Go `int`, 64 bits wide. -/
  admissionYear : Int64
  major : String
  /-- The MSP of the student's school, `School1MSP` or `School2MSP`. -/
  school : String
  graduated : Bool
  creationDate : String
  deriving DecidableEq

/-- One grade entry of a student. -/
structure StudentGrade where
  /-- The composite key that the entry is stored under. -/
  id : String
  modificationDate : String
  /-- `freshman`, `sophomore`, `junior` or `senior`. -/
  yearStatus : String
  /-- 0 for the first and 1 for the second semester. -/
  semester : Int64
  /-- The grades of the courses, a JSON text of its own. -/
  courseGrades : String
  deriving DecidableEq

instance : Struct Student where
  fields :=
    [.string "id" Student.id fun v s ↦ { s with id := v },
      .string "name" Student.name fun v s ↦ { s with name := v },
      .int "admissionYear" Student.admissionYear fun v s ↦ { s with admissionYear := v },
      .string "major" Student.major fun v s ↦ { s with major := v },
      .string "school" Student.school fun v s ↦ { s with school := v },
      .bool "graduated" Student.graduated fun v s ↦ { s with graduated := v },
      .string "creationDate" Student.creationDate fun v s ↦ { s with creationDate := v }]
  zero := ⟨"", "", 0, "", "", false, ""⟩

instance : Struct StudentGrade where
  fields :=
    [.string "id" StudentGrade.id fun v g ↦ { g with id := v },
      .string "modificationDate" StudentGrade.modificationDate
        fun v g ↦ { g with modificationDate := v },
      .string "yearStatus" StudentGrade.yearStatus fun v g ↦ { g with yearStatus := v },
      .int "semester" StudentGrade.semester fun v g ↦ { g with semester := v },
      .string "courseGrades" StudentGrade.courseGrades fun v g ↦ { g with courseGrades := v }]
  zero := ⟨"", "", "", 0, ""⟩

instance : LawfulStruct Student := ⟨fun _ ↦ rfl⟩

instance : LawfulStruct StudentGrade := ⟨fun _ ↦ rfl⟩

/-- A student record in which every field but the id has its zero value. -/
def Student.ofId (id : String) : Student := { (Struct.zero : Student) with id := id }

/-- A grade entry in which every field but the id has its zero value. -/
def StudentGrade.ofId (id : String) : StudentGrade := { (Struct.zero : StudentGrade) with id := id }

/-- A stored grade decodes as a student that has only its id. -/
theorem unmarshal_student_marshal_grade (grade : StudentGrade) :
    unmarshal (marshal grade) = .ok (Student.ofId grade.id) :=
  unmarshal_marshal_as grade rfl

/-- A stored student decodes as a grade that has only its id. -/
theorem unmarshal_grade_marshal_student (student : Student) :
    unmarshal (marshal student) = .ok (StudentGrade.ofId student.id) :=
  unmarshal_marshal_as student rfl

theorem marshal_student_ne_marshal_grade (student : Student) (grade : StudentGrade) :
    marshal student ≠ marshal grade :=
  marshal_ne_marshal (by decide) student grade

end StudentStatus.Chaincode
