import StudentStatus.Chaincode.Transactions
import StudentStatus.Keys.Terminated

/-!
# Who is a manager

The loops of `CheckAffiliation` compare the segments of the client's affiliation with those of each
required one, in order and from the first segment on: the check is whether some required affiliation
is an initial part of the client's (`meetsAny_eq_true_iff`). On the texts this is that the client's
affiliation is the required one or goes on with a dot after it (`checkAffiliation_segmentwise`).

`AssertManager` requires one of the manager affiliations of all organisations and does not look at
which organisation the client belongs to, so for a client of a school it decides whether the client
is a manager of that school only as long as the affiliation is not that of another organisation's
manager (`assertManager_ownOrganisation_iff`).
-/

set_option autoImplicit false
set_option relaxedAutoImplicit false

namespace StudentStatus.Chaincode

open Interaction Keys

/-! ### The comparison of affiliations -/

/-- Some required affiliation is met exactly when its segments begin the user's. -/
theorem meetsAny_eq_true_iff {userAffiliations requiredAffiliations : List String} :
    meetsAny userAffiliations requiredAffiliations = some true ↔
      ∃ required ∈ requiredAffiliations, splitDots required <+: userAffiliations := by
  rw [meetsAny_eq, Option.some_inj, List.any_eq_true]
  simp only [List.isPrefixOf_iff_prefix]

/-- The client has an affiliation that begins with one of the required ones. -/
def HasAffiliation (client : ClientIdentity) (requiredAffiliations : List String) : Prop :=
  ∃ affiliation, client.attributes.lookup "hf.Affiliation" = some affiliation ∧
    ∃ required ∈ requiredAffiliations, splitDots required <+: splitDots affiliation

theorem affiliationCheck_eq_ok_iff {client : ClientIdentity} {requiredAffiliations : List String} :
    affiliationCheck client requiredAffiliations = .ok () ↔
      "admin" ∈ client.certificate.organizationalUnit ∨ client.mspID = educationBureauMSP ∨
        HasAffiliation client requiredAffiliations := by
  have hadmin : contains client.certificate.organizationalUnit "admin" = true ↔
      "admin" ∈ client.certificate.organizationalUnit := by simp [contains]
  unfold affiliationCheck HasAffiliation
  simp only [hadmin]
  split_ifs with hou hmsp
  · simp [hou]
  · simp [hmsp]
  · cases hlookup : client.attributes.lookup "hf.Affiliation" with
    | none => simp [hou, hmsp]
    | some affiliation =>
      simp only [hou, hmsp, false_or, Option.some.injEq, exists_eq_left', ← meetsAny_eq_true_iff]
      rcases meetsAny (splitDots affiliation) requiredAffiliations with _ | _ | _ <;> simp

/-- A client that is neither an admin nor of the bureau passes by its affiliation. -/
theorem affiliationCheck_eq_ok_iff_of_attribute {client : ClientIdentity}
    {requiredAffiliations : List String} {affiliation : String}
    (hou : "admin" ∉ client.certificate.organizationalUnit)
    (hmsp : client.mspID ≠ educationBureauMSP)
    (haffiliation : client.attributes.lookup "hf.Affiliation" = some affiliation) :
    affiliationCheck client requiredAffiliations = .ok () ↔
      ∃ required ∈ requiredAffiliations, splitDots required <+: splitDots affiliation := by
  rw [affiliationCheck_eq_ok_iff, HasAffiliation, haffiliation]
  simp [hou, hmsp]

/-! ### Sub-affiliations -/

/-- The affiliation is the required one, or goes on with a dot after it. -/
def IsUnder (affiliation required : String) : Prop :=
  affiliation = required ∨ required.toList ++ ['.'] <+: affiliation.toList

instance (affiliation required : String) : Decidable (IsUnder affiliation required) :=
  inferInstanceAs (Decidable (_ ∨ _))

/-- Segments are compared as the texts are, up to a dot. -/
theorem splitDots_prefix_iff {required affiliation : String} :
    splitDots required <+: splitDots affiliation ↔ IsUnder affiliation required := by
  have hinj : Function.Injective String.ofList := fun _ _ h ↦ String.ofList_injective h
  rw [splitDots, splitDots, List.prefix_map_iff_of_injective hinj, splitOn_prefix_iff,
    String.toList_inj, eq_comm]
  rfl

theorem IsUnder.begins {affiliation required : String} (h : IsUnder affiliation required) :
    required.toList <+: affiliation.toList := by
  rcases h with rfl | hdot
  · exact List.prefix_rfl
  · exact (List.prefix_append required.toList ['.']).trans hdot

theorem eq_append_iff {affiliation more : String} :
    affiliation = affiliation ++ more ↔ more = "" := by
  rw [← String.toList_inj, String.toList_append, List.self_eq_append_right,
    String.toList_eq_nil_iff]

/-- What follows an affiliation decides whether the whole is under it. -/
theorem isUnder_append_iff {required more : String} :
    IsUnder (required ++ more) required ↔ more = "" ∨ ['.'] <+: more.toList := by
  unfold IsUnder
  rw [String.toList_append, List.prefix_append_right_inj, eq_comm, eq_append_iff]

/-- An affiliation is not under a longer one. -/
theorem not_isUnder_of_append {affiliation more : String} (hmore : more ≠ "") :
    ¬ IsUnder affiliation (affiliation ++ more) := by
  rintro (heq | hbegins)
  · exact hmore (eq_append_iff.mp heq)
  · have hlength := hbegins.length_le
    simp only [String.toList_append, List.length_append, List.length_singleton] at hlength
    omega

/-! ### The check of a client without an exception -/

/-- `CheckAffiliation` returns no error. -/
def Passes (ctx : Context) (ledger : Ledger) (requiredAffiliations : List String) : Prop :=
  (checkAffiliation requiredAffiliations).result (ctx.answer ledger) = .ok ()

/-- A client that is neither an admin nor of the bureau passes exactly with an affiliation that is
one of the required ones or goes on with a dot after it. So a longer last segment or a missing one
is refused and a sub-affiliation passes, and `isSubset` never indexes past the user's segments. -/
theorem checkAffiliation_segmentwise {ctx : Context} (ledger : Ledger) {affiliation : String}
    (hou : "admin" ∉ ctx.client.certificate.organizationalUnit)
    (hmsp : ctx.client.mspID ≠ educationBureauMSP)
    (haffiliation : ctx.client.attributes.lookup "hf.Affiliation" = some affiliation) :
    (∀ requiredAffiliations, Passes ctx ledger requiredAffiliations ↔
        ∃ required ∈ requiredAffiliations, IsUnder affiliation required) ∧
      (∀ organisation, affiliation = organisation ++ ".managerial" ∨ affiliation = organisation →
        ¬ Passes ctx ledger [organisation ++ ".manager"]) ∧
      (∀ required sub, affiliation = required ++ "." ++ sub → Passes ctx ledger [required]) ∧
      ∀ userAffiliations requiredParts, (isSubset userAffiliations requiredParts).isSome := by
  have hpasses (requiredAffiliations : List String) : Passes ctx ledger requiredAffiliations ↔
      ∃ required ∈ requiredAffiliations, IsUnder affiliation required := by
    rw [Passes, result_checkAffiliation,
      affiliationCheck_eq_ok_iff_of_attribute hou hmsp haffiliation]
    simp only [splitDots_prefix_iff]
  have hsingle (required : String) :
      Passes ctx ledger [required] ↔ IsUnder affiliation required := by
    rw [hpasses]
    simp
  refine ⟨hpasses, ?_, ?_, isSome_isSubset⟩
  · rintro organisation hbeside hpass
    rw [hsingle] at hpass
    rcases hbeside with rfl | rfl
    · have happend : organisation ++ ".managerial" = organisation ++ ".manager" ++ "ial" := by
        rw [String.append_assoc]
        rfl
      rw [happend, isUnder_append_iff] at hpass
      exact absurd hpass (by decide)
    · exact not_isUnder_of_append (by decide) hpass
  · rintro required sub rfl
    rw [hsingle, String.append_assoc, isUnder_append_iff, String.toList_append]
    exact Or.inr (List.prefix_append _ _)

/-- A manager's sub-affiliation passes, and a part of a segment does not count. -/
theorem checkAffiliation_segmentwise_head :
    Passes ⟨fabricStub, manager "School1MSP" "school1.manager.head", noon⟩ []
        ["school1.teacher", "school1.manager"] ∧
      ¬ Passes ⟨fabricStub, manager "School1MSP" "school1.manager.head", noon⟩ []
        ["school1.man", ""] := by
  have hpasses := (@checkAffiliation_segmentwise
    ⟨fabricStub, manager "School1MSP" "school1.manager.head", noon⟩ [] "school1.manager.head"
    (by decide) (by decide) rfl).1
  rw [hpasses, hpasses]
  decide +kernel

/-! ### The manager of an organisation -/

/-- The manager affiliations of the schools, as the table in `accesscontrol.go` has them. -/
def schoolManagers : List (String × String) :=
  [("School1MSP", "school1.manager"), ("School2MSP", "school2.manager")]

/-- A user's segments begin with at most one manager affiliation. -/
theorem managerAffiliation_unique {required other : String}
    (hrequired : required ∈ managerAffiliations) (hother : other ∈ managerAffiliations)
    {segments : List String} (hbegins : splitDots required <+: segments)
    (hbegins' : splitDots other <+: segments) : required = other := by
  have hlength : ∀ affiliation ∈ managerAffiliations, (splitDots affiliation).length = 2 := by
    decide +kernel
  have hparts : splitDots required = splitDots other := by
    rw [List.prefix_iff_eq_take.mp hbegins, List.prefix_iff_eq_take.mp hbegins',
      hlength _ hrequired, hlength _ hother]
  have hinj : ∀ first ∈ managerAffiliations, ∀ second ∈ managerAffiliations,
      splitDots first = splitDots second → first = second := by
    decide +kernel
  exact hinj _ hrequired _ hother hparts

variable {ctx : Context} (ledger : Ledger) (allowedMspIDs : List String)

/-- For a client of a school without the OU `admin`, `AssertManager` decides whether the client is
a manager of that school exactly when the affiliation is not that of another organisation's
manager. -/
theorem assertManager_ownOrganisation_iff {own affiliation : String}
    (hmsp : (ctx.client.mspID, own) ∈ schoolManagers)
    (hou : "admin" ∉ ctx.client.certificate.organizationalUnit)
    (haffiliation : ctx.client.attributes.lookup "hf.Affiliation" = some affiliation) :
    ((assertManager allowedMspIDs).result (ctx.answer ledger) = .ok () ↔
        splitDots own <+: splitDots affiliation) ↔
      ∀ other ∈ managerAffiliations, other ≠ own → ¬ splitDots other <+: splitDots affiliation := by
  have htable : ∀ entry ∈ schoolManagers,
      entry.1 ≠ educationBureauMSP ∧ entry.2 ∈ managerAffiliations := by decide
  obtain ⟨hbureau, hown⟩ := htable _ hmsp
  have hcheck : (assertManager allowedMspIDs).result (ctx.answer ledger) = .ok () ↔
      ∃ required ∈ managerAffiliations, splitDots required <+: splitDots affiliation := by
    rw [result_assertManager, affiliationCheck_eq_ok_iff_of_attribute hou hbureau haffiliation]
  rw [hcheck]
  constructor
  · intro hbound other hother hne hbegins
    have hbegins' := hbound.mp ⟨other, hother, hbegins⟩
    exact hne (managerAffiliation_unique hother hown hbegins hbegins')
  · intro hnone
    constructor
    · rintro ⟨required, hrequired, hbegins⟩
      by_cases heq : required = own
      · exact heq ▸ hbegins
      · exact absurd hbegins (hnone required hrequired heq)
    · exact fun hbegins ↦ ⟨own, hown, hbegins⟩

theorem assertManager_ownOrganisation_school1 :
    (assertManager []).result (Context.answer
      ⟨fabricStub, manager "School1MSP" "school1.manager.head", noon⟩ []) = .ok () := by
  have hmsp : ((manager "School1MSP" "school1.manager.head").mspID, "school1.manager") ∈
      schoolManagers := by decide
  refine ((assertManager_ownOrganisation_iff [] [] hmsp (by decide) rfl).mpr ?_).mpr ?_
  all_goals decide +kernel

/-- A client of the first school with the affiliation of the second school's manager is taken for a
manager. -/
theorem assertManager_otherSchool :
    "admin" ∉ (manager "School1MSP" "school2.manager").certificate.organizationalUnit ∧
      (assertManager []).result (Context.answer
        ⟨fabricStub, manager "School1MSP" "school2.manager", noon⟩ []) = .ok () ∧
      ¬ splitDots "school1.manager" <+: splitDots "school2.manager" := by
  rw [result_assertManager]
  decide +kernel

end StudentStatus.Chaincode
