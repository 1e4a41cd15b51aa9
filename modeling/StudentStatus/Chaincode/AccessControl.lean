import StudentStatus.Chaincode.Stub

/-!
# Access control

`accesscontrol.go`. `assertManager` asks for one of three manager affiliations, which the OU `admin`
and the bureau's MSP replace. The MSPs that its callers pass are ignored, as in the source, and the
errors of `GetMSPID` and of `GetX509Certificate` are dropped: the first leaves the empty MSP, the
second a nil certificate whose subject is then read.

When no call fails the check is a function of the identity alone (`result_checkAffiliation`), and it
reads and writes nothing (`observed_checkAffiliation`).
-/

set_option autoImplicit false
set_option relaxedAutoImplicit false

namespace StudentStatus.Chaincode

open Interaction

open Program (raise)

/-- The MSP of the education bureau. -/
def educationBureauMSP : String := "EducationBureauMSP"

def getMSPID : Contract String := do
  let mspID : Except StubError String ← perform .getMSPID
  -- `mspID, _ := clientID.GetMSPID()`
  return mspID.toOption.getD ""

/-- Whether an element is in a slice. -/
def contains (slice : List String) (element : String) : Bool := slice.any (· = element)

/-- `strings.Split` at dots. -/
def splitDots (s : String) : List String := (s.toList.splitOn '.').map String.ofList

/-- The loop of `isSubset` from an index on; `none` when the index is out of range. -/
def matchesFrom (userAffiliations : List String) : ℕ → List String → Option Bool
  | _, [] => some true
  | i, part :: requiredParts =>
    match userAffiliations[i]? with
    | none => none
    | some affiliation =>
      if affiliation ≠ part then some false
      else matchesFrom userAffiliations (i + 1) requiredParts

/-- Whether the required parts are an initial part of the user's. -/
def isSubset (userAffiliations requiredParts : List String) : Option Bool :=
  if userAffiliations.length < requiredParts.length then some false
  else matchesFrom userAffiliations 0 requiredParts

/-- The loop of `CheckAffiliation` over the required affiliations. -/
def meetsAny (userAffiliations : List String) : List String → Option Bool
  | [] => some false
  | requiredAffiliation :: rest =>
    match isSubset userAffiliations (splitDots requiredAffiliation) with
    | none => none
    | some true => some true
    | some false => meetsAny userAffiliations rest

/-- The loop of `isSubset` stays inside a slice that is long enough, and compares what is left
of the user's segments with the required ones. -/
theorem matchesFrom_eq {userAffiliations : List String} {i : ℕ} {requiredParts : List String}
    (hlength : i + requiredParts.length ≤ userAffiliations.length) :
    matchesFrom userAffiliations i requiredParts =
      some (requiredParts.isPrefixOf (userAffiliations.drop i)) := by
  induction requiredParts generalizing i with
  | nil => rw [matchesFrom, List.isPrefixOf_nil_left]
  | cons part requiredParts ih =>
    rw [List.length_cons] at hlength
    have hindex : i < userAffiliations.length := by omega
    rw [matchesFrom, List.getElem?_eq_getElem hindex, List.drop_eq_getElem_cons hindex,
      List.isPrefixOf_cons_cons]
    dsimp only
    by_cases hpart : userAffiliations[i] = part
    · rw [if_neg (not_not.mpr hpart), ih (by omega), hpart, beq_self_eq_true, Bool.true_and]
    · rw [if_pos hpart, beq_false_of_ne (Ne.symm hpart), Bool.false_and]

theorem isSubset_eq (userAffiliations requiredParts : List String) :
    isSubset userAffiliations requiredParts =
      some (requiredParts.isPrefixOf userAffiliations) := by
  unfold isSubset
  split_ifs with hlength
  · have hnot : ¬ requiredParts <+: userAffiliations := fun hbegins ↦
      absurd hbegins.length_le (Nat.not_le_of_lt hlength)
    rw [← List.isPrefixOf_iff_prefix, Bool.not_eq_true] at hnot
    rw [hnot]
  · rw [matchesFrom_eq (by omega), List.drop_zero]

/-- `isSubset` does not panic. -/
theorem isSome_isSubset (userAffiliations requiredParts : List String) :
    (isSubset userAffiliations requiredParts).isSome := by
  rw [isSubset_eq]
  rfl

/-- The loop of `CheckAffiliation` does not panic, and looks for a required affiliation whose
segments begin the user's. -/
theorem meetsAny_eq (userAffiliations requiredAffiliations : List String) :
    meetsAny userAffiliations requiredAffiliations =
      some (requiredAffiliations.any fun required ↦
        (splitDots required).isPrefixOf userAffiliations) := by
  induction requiredAffiliations with
  | nil => rfl
  | cons required rest ih =>
    rw [meetsAny, isSubset_eq, List.any_cons]
    cases (splitDots required).isPrefixOf userAffiliations with
    | true => rfl
    | false => exact ih

def checkAffiliation (requiredAffiliations : List String) : Contract Unit := do
  let cert : Except StubError Certificate ← perform .getX509Certificate
  match cert with
  -- the error is dropped, and `cert.Subject` dereferences nil
  | .error _ => raise .panic
  | .ok cert =>
    if contains cert.organizationalUnit "admin" then pure ()
    else do
      let mspID ← getMSPID
      if mspID = educationBureauMSP then pure ()
      else do
        let found : Except StubError (Option String) ← perform (.getAttributeValue "hf.Affiliation")
        let found ← orFail .failedToGetAffiliation found
        match found with
        | none => fail .affiliationNotFound
        | some affiliation =>
          match meetsAny (splitDots affiliation) requiredAffiliations with
          | none => raise .panic
          | some true => pure ()
          | some false => fail (.affiliationRequired affiliation requiredAffiliations)

/-- The affiliations that `AssertManager` accepts. -/
def managerAffiliations : List String := ["bureau.manager", "school1.manager", "school2.manager"]

/-- The MSPs passed are not used. -/
def assertManager (_allowedMspIDs : List String) : Contract Unit :=
  checkAffiliation managerAffiliations

/-! ### The check when no call fails -/

/-- The check of affiliations as a function of the identity. -/
def affiliationCheck (client : ClientIdentity) (requiredAffiliations : List String) :
    Except Abort Unit :=
  if contains client.certificate.organizationalUnit "admin" then .ok ()
  else if client.mspID = educationBureauMSP then .ok ()
  else
    match client.attributes.lookup "hf.Affiliation" with
    | none => .error (.returned .affiliationNotFound)
    | some affiliation =>
      match meetsAny (splitDots affiliation) requiredAffiliations with
      | none => .error .panic
      | some true => .ok ()
      | some false => .error (.returned (.affiliationRequired affiliation requiredAffiliations))

/-- The client passes `AssertManager`. -/
def IsManager (client : ClientIdentity) : Prop :=
  affiliationCheck client managerAffiliations = .ok ()

instance (client : ClientIdentity) : Decidable (IsManager client) :=
  inferInstanceAs (Decidable (_ = _))

/-- The check does not look at the client's ID. -/
theorem IsManager.withId {client : ClientIdentity} (h : IsManager client) (id : String) :
    IsManager { client with id := id } := h

variable (ctx : Context) (ledger : Ledger)

section OrFail

variable {α ε ω : Type} (observe : Event Call Reply → Option ω)

@[simp] theorem result_fail (err : ContractError) :
    (fail err : Contract α).result (ctx.answer ledger) = .error (.returned err) := rfl

@[simp] theorem observed_fail (err : ContractError) :
    (fail err : Contract α).observed (ctx.answer ledger) observe = [] := rfl

@[simp] theorem result_orFail (wrap : ε → ContractError) (outcome : Except ε α) :
    (orFail wrap outcome).result (ctx.answer ledger) =
      outcome.mapError fun err ↦ .returned (wrap err) := by
  cases outcome <;> rfl

@[simp] theorem observed_orFail (wrap : ε → ContractError) (outcome : Except ε α) :
    (orFail wrap outcome).observed (ctx.answer ledger) observe = [] := by
  cases outcome <;> rfl

end OrFail

@[simp] theorem result_getMSPID :
    getMSPID.result (ctx.answer ledger) = .ok ctx.client.mspID := rfl

theorem result_checkAffiliation (requiredAffiliations : List String) :
    (checkAffiliation requiredAffiliations).result (ctx.answer ledger) =
      affiliationCheck ctx.client requiredAffiliations := by
  unfold checkAffiliation affiliationCheck
  simp only [Program.result_bind, Program.result_ask, Context.answer, Program.result_ite,
    result_getMSPID, result_orFail, Except.mapError]
  split_ifs
  · rfl
  · rfl
  · cases ctx.client.attributes.lookup "hf.Affiliation" with
    | none => rfl
    | some affiliation =>
      rcases h : meetsAny (splitDots affiliation) requiredAffiliations with _ | _ | _ <;>
        simp only [h] <;> rfl

/-- The calls of the identity library. -/
def Call.IsIdentity : Call → Prop
  | .getID | .getMSPID | .getX509Certificate | .getAttributeValue _ => True
  | _ => False

theorem uses_orFail {α ε : Type} {allowed : Call → Prop} (wrap : ε → ContractError)
    (outcome : Except ε α) : (orFail wrap outcome).Uses allowed := by
  cases outcome <;> trivial

theorem uses_getMSPID : getMSPID.Uses Call.IsIdentity := ⟨trivial, fun _ ↦ trivial⟩

theorem uses_checkAffiliation (requiredAffiliations : List String) :
    (checkAffiliation requiredAffiliations).Uses Call.IsIdentity := by
  refine Program.uses_bind ((Program.uses_ask _).mpr trivial) fun cert ↦ ?_
  cases cert with
  | error err => trivial
  | ok cert =>
    refine Program.uses_ite trivial (Program.uses_bind uses_getMSPID fun mspID ↦ ?_)
    refine Program.uses_ite trivial
      (Program.uses_bind ((Program.uses_ask _).mpr trivial) fun found ↦ ?_)
    refine Program.uses_bind (uses_orFail _ _) fun found ↦ ?_
    cases found with
    | none => trivial
    | some affiliation =>
      rcases h : meetsAny (splitDots affiliation) requiredAffiliations with _ | _ | _ <;>
        simp only [h] <;> trivial

@[simp] theorem result_assertManager (allowedMspIDs : List String) :
    (assertManager allowedMspIDs).result (ctx.answer ledger) =
      affiliationCheck ctx.client managerAffiliations :=
  result_checkAffiliation ctx ledger _

theorem uses_assertManager (allowedMspIDs : List String) :
    (assertManager allowedMspIDs).Uses Call.IsIdentity := uses_checkAffiliation _

theorem readOf_identity {event : Event Call Reply} (h : event.1.IsIdentity) :
    readOf event = none := by
  obtain ⟨request, reply⟩ := event
  cases request <;> first | rfl | exact h.elim

theorem writeOf_identity {event : Event Call Reply} (h : event.1.IsIdentity) :
    writeOf event = none := by
  obtain ⟨request, reply⟩ := event
  cases request <;> first | rfl | exact h.elim

/-- A program that only asks for the identity reads no state. -/
theorem reads_eq_nil {α : Type} {program : Contract α} (h : program.Uses Call.IsIdentity) :
    program.observed (ctx.answer ledger) readOf = [] :=
  h.observed_eq_nil fun _ ↦ readOf_identity

/-- A program that only asks for the identity writes no state. -/
theorem writes_eq_nil {α : Type} {program : Contract α} (h : program.Uses Call.IsIdentity) :
    program.observed (ctx.answer ledger) writeOf = [] :=
  h.observed_eq_nil fun _ ↦ writeOf_identity

@[simp] theorem reads_getMSPID : getMSPID.observed (ctx.answer ledger) readOf = [] :=
  reads_eq_nil ctx ledger uses_getMSPID

@[simp] theorem writes_getMSPID : getMSPID.observed (ctx.answer ledger) writeOf = [] :=
  writes_eq_nil ctx ledger uses_getMSPID

@[simp] theorem reads_assertManager (allowedMspIDs : List String) :
    (assertManager allowedMspIDs).observed (ctx.answer ledger) readOf = [] :=
  reads_eq_nil ctx ledger (uses_assertManager _)

@[simp] theorem writes_assertManager (allowedMspIDs : List String) :
    (assertManager allowedMspIDs).observed (ctx.answer ledger) writeOf = [] :=
  writes_eq_nil ctx ledger (uses_assertManager _)

end StudentStatus.Chaincode
