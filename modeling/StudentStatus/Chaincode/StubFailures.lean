import StudentStatus.Chaincode.Transactions

/-!
# Failing calls

What the writers do when calls of the stub or of the identity library return an error instead of
their value. A `FailurePattern` says which of the calls of a run fail, and `attempt` is the run of a
writer under it. An attempt is transparent when it returns an error and writes nothing, or writes
what it would have written had no call failed (`Transparent`).

`GetState` in `GetStudent`, `GetAttributeValue` and `CreateCompositeKey` have their errors returned.
The others do not: `StudentExists` takes a failed `GetState` for an ID that is free, a failed
`GetMSPID` leaves the empty MSP and a failed `GetID` the empty ID, and after a failed
`GetX509Certificate` the check of affiliations dereferences nil. `Tolerates` is when none of this
shows in what a writer does, and `transparent_iff_tolerates` that an attempt is transparent exactly
then.
-/

set_option autoImplicit false
set_option relaxedAutoImplicit false

namespace StudentStatus.Chaincode

open Interaction Optimistic Json

/-! ### Failure patterns -/

/-- The kinds of calls that may fail. -/
inductive FallibleCall : Type
  | getID
  | getMSPID
  | getX509Certificate
  | getAttributeValue
  | getState
  | createCompositeKey
  deriving DecidableEq

/-- The error with which the calls of a kind fail, by their number in the run from 0 on; `none`
where the call does not fail. -/
abbrev FailurePattern := FallibleCall → ℕ → Option StubError

/-- No call fails. -/
def noFailures : FailurePattern := fun _ _ ↦ none

/-- How far a run has come: how many calls of every kind it made, and what it wrote. -/
structure Progress where
  asked : FallibleCall → ℕ
  writes : List (String × String)

namespace Progress

def start : Progress := ⟨fun _ ↦ 0, []⟩

/-- One more call of a kind. -/
def ask (kind : FallibleCall) (progress : Progress) : Progress :=
  { progress with
    asked := fun other ↦ if other = kind then progress.asked other + 1 else progress.asked other }

@[simp] theorem writes_start : start.writes = [] := rfl

@[simp] theorem writes_ask (kind : FallibleCall) (progress : Progress) :
    (progress.ask kind).writes = progress.writes := rfl

end Progress

/-- The failure of the next call of a kind, if it fails. -/
def FailurePattern.next (failures : FailurePattern) (kind : FallibleCall) (progress : Progress) :
    Option StubError := failures kind (progress.asked kind)

/-- The reply of a call that may have failed. -/
def disturb {α : Type} (failure : Option StubError) (reply : Except StubError α) :
    Except StubError α :=
  match failure with
  | some err => .error err
  | none => reply

@[simp] theorem disturb_none {α : Type} (reply : Except StubError α) :
    disturb none reply = reply := rfl

@[simp] theorem disturb_some {α : Type} (err : StubError) (reply : Except StubError α) :
    disturb (some err) reply = .error err := rfl

/-- The environment in which calls fail by a pattern. -/
def failingAnswer (ctx : Context) (ledger : Ledger) (failures : FailurePattern) :
    (call : Call) → Progress → Reply call × Progress
  | .getID, p => (disturb (failures.next .getID p) (ctx.answer ledger .getID), p.ask .getID)
  | .getMSPID, p =>
    (disturb (failures.next .getMSPID p) (ctx.answer ledger .getMSPID), p.ask .getMSPID)
  | .getX509Certificate, p =>
    (disturb (failures.next .getX509Certificate p) (ctx.answer ledger .getX509Certificate),
      p.ask .getX509Certificate)
  | .getAttributeValue name, p =>
    (disturb (failures.next .getAttributeValue p) (ctx.answer ledger (.getAttributeValue name)),
      p.ask .getAttributeValue)
  | .getState key, p =>
    (disturb (failures.next .getState p) (ctx.answer ledger (.getState key)), p.ask .getState)
  | .createCompositeKey objectType attributes, p =>
    (disturb (failures.next .createCompositeKey p)
      (ctx.answer ledger (.createCompositeKey objectType attributes)), p.ask .createCompositeKey)
  | .putState key value, p =>
    (ctx.answer ledger (.putState key value),
      { p with
        writes := p.writes ++
          (writeOf ⟨.putState key value, ctx.answer ledger (.putState key value)⟩).toList })
  | call, p => (ctx.answer ledger call, p)

/-- What a writer returns and writes when calls fail. -/
structure Attempt where
  result : Except Abort Unit
  writes : List (String × String)

def Attempt.ofRun (run : Except Abort Unit × Progress) : Attempt := ⟨run.1, run.2.writes⟩

/-- Run a writer with calls that fail by a pattern. -/
def attempt (ctx : Context) (ledger : Ledger) (failures : FailurePattern) (command : Command) :
    Attempt :=
  .ofRun (command.run.runIn (failingAnswer ctx ledger failures) .start)

/-- The attempt returned an error and wrote nothing. -/
def Attempt.Refused (outcome : Attempt) : Prop :=
  (∃ err, outcome.result = .error (.returned err)) ∧ outcome.writes = []

/-- The attempt returns an error and writes nothing, or it writes what it would have written had no
call failed. -/
def Transparent (ctx : Context) (ledger : Ledger) (failures : FailurePattern) (command : Command) :
    Prop :=
  (attempt ctx ledger failures command).Refused ∨
    (attempt ctx ledger failures command).writes = (attempt ctx ledger noFailures command).writes

/-- Without failures an attempt is the execution of the command. -/
theorem attempt_noFailures (ctx : Context) (ledger : Ledger) (command : Command) :
    attempt ctx ledger noFailures command =
      ⟨command.run.result (ctx.answer ledger),
        command.run.observed (ctx.answer ledger) writeOf⟩ := by
  have hreply (call : Call) (progress : Progress) :
      (failingAnswer ctx ledger noFailures call progress).1 = ctx.answer ledger call := by
    cases call <;> rfl
  have hlog (call : Call) (progress : Progress) :
      (failingAnswer ctx ledger noFailures call progress).2.writes =
        progress.writes ++ (writeOf ⟨call, ctx.answer ledger call⟩).toList := by
    cases call with
    | putState key value => rfl
    | _ => exact (List.append_nil _).symm
  obtain ⟨hresult, hwrites⟩ :=
    Program.runIn_of_stateless Progress.writes hreply hlog command.run .start
  unfold attempt Attempt.ofRun
  rw [hresult, hwrites]
  rfl

/-! ### What a client looks like -/

/-- The client as the next calls show it: a failed call leaves the empty text. -/
def FailurePattern.seen (failures : FailurePattern) (client : ClientIdentity)
    (progress : Progress) : ClientIdentity :=
  { client with
    id := if failures.next .getID progress = none then client.id else ""
    mspID := if failures.next .getMSPID progress = none then client.mspID else "" }

/-- The check of managers reads a certificate and lets the client pass. -/
def FailurePattern.Admits (failures : FailurePattern) (client : ClientIdentity)
    (progress : Progress) : Prop :=
  failures.next .getX509Certificate progress = none ∧
    (contains client.certificate.organizationalUnit "admin" ∨
      (failures.seen client progress).mspID = educationBureauMSP ∨
      failures.next .getAttributeValue progress = none ∧
        ∃ affiliation, client.attributes.lookup "hf.Affiliation" = some affiliation ∧
          meetsAny (splitDots affiliation) managerAffiliations = some true)

/-- The progress of a run after a check of managers that let the client pass. -/
def FailurePattern.afterCheck (failures : FailurePattern) (client : ClientIdentity)
    (progress : Progress) : Progress :=
  if contains client.certificate.organizationalUnit "admin" then
    progress.ask .getX509Certificate
  else if (failures.seen client progress).mspID = educationBureauMSP then
    (progress.ask .getX509Certificate).ask .getMSPID
  else ((progress.ask .getX509Certificate).ask .getMSPID).ask .getAttributeValue

variable {ctx : Context} {ledger : Ledger} {failures : FailurePattern} {progress : Progress}

@[simp] theorem next_ask_of_ne {kind other : FallibleCall} (hne : kind ≠ other) :
    failures.next kind (progress.ask other) = failures.next kind progress :=
  congrArg (failures kind) (if_neg hne)

@[simp] theorem writes_afterCheck (client : ClientIdentity) :
    (failures.afterCheck client progress).writes = progress.writes := by
  unfold FailurePattern.afterCheck
  split_ifs <;> rfl

/-- The check of managers asks for nothing but the certificate, the MSP and the affiliation. -/
theorem next_afterCheck {kind : FallibleCall} (client : ClientIdentity)
    (hcertificate : kind ≠ .getX509Certificate) (hmsp : kind ≠ .getMSPID)
    (haffiliation : kind ≠ .getAttributeValue) :
    failures.next kind (failures.afterCheck client progress) = failures.next kind progress := by
  unfold FailurePattern.afterCheck
  split_ifs <;> simp [hcertificate, hmsp, haffiliation]

@[simp] theorem mspID_seen_ask {client : ClientIdentity} {kind : FallibleCall}
    (hne : .getMSPID ≠ kind) :
    (failures.seen client (progress.ask kind)).mspID = (failures.seen client progress).mspID := by
  unfold FailurePattern.seen
  rw [next_ask_of_ne hne]

@[simp] theorem id_seen_ask {client : ClientIdentity} {kind : FallibleCall}
    (hne : .getID ≠ kind) :
    (failures.seen client (progress.ask kind)).id = (failures.seen client progress).id := by
  unfold FailurePattern.seen
  rw [next_ask_of_ne hne]

variable (failures progress) in
/-- The MSP of the client is seen as it is or as the empty text. -/
theorem mspID_seen_cases (client : ClientIdentity) :
    (failures.seen client progress).mspID = client.mspID ∨
      (failures.seen client progress).mspID = "" :=
  ite_eq_or_eq _ _ _

theorem mspID_of_seen_bureau {client : ClientIdentity}
    (hbureau : (failures.seen client progress).mspID = educationBureauMSP) :
    client.mspID = educationBureauMSP := by
  rcases mspID_seen_cases failures progress client with hsame | hempty
  · rw [← hsame, hbureau]
  · rw [hempty] at hbureau
    exact absurd hbureau (by decide)

/-- A client that is let pass under failures is a manager. -/
theorem FailurePattern.Admits.isManager {client : ClientIdentity}
    (h : failures.Admits client progress) : IsManager client := by
  obtain ⟨-, hadmin | hbureau | ⟨-, affiliation, haffiliation, hmeets⟩⟩ := h
  · exact if_pos hadmin
  · unfold IsManager affiliationCheck
    rw [if_pos (mspID_of_seen_bureau hbureau), ite_self]
  · unfold IsManager affiliationCheck
    simp [haffiliation, hmeets]

/-! ### The helpers under failures -/

@[simp] theorem runIn_fail {α : Type} (err : ContractError) :
    (fail err : Contract α).runIn (failingAnswer ctx ledger failures) progress =
      (.error (.returned err), progress) := rfl

@[simp] theorem runIn_orFail {α ε : Type} (wrap : ε → ContractError) (outcome : Except ε α) :
    (orFail wrap outcome).runIn (failingAnswer ctx ledger failures) progress =
      (outcome.mapError fun err ↦ .returned (wrap err), progress) := by
  cases outcome <;> rfl

@[simp] theorem runIn_getMSPID :
    getMSPID.runIn (failingAnswer ctx ledger failures) progress =
      (.ok (failures.seen ctx.client progress).mspID, progress.ask .getMSPID) := by
  unfold getMSPID FailurePattern.seen
  cases hfailure : failures.next .getMSPID progress <;>
    simp [failingAnswer, hfailure, Context.answer, Except.toOption]

@[simp] theorem runIn_assertStateOwner (studentID : String) :
    (assertStateOwner studentID).runIn (failingAnswer ctx ledger failures) progress =
      (.ok (if (failures.seen ctx.client progress).id ≠ studentID then some .notStateOwner
        else none), progress.ask .getID) := by
  unfold assertStateOwner FailurePattern.seen
  cases hfailure : failures.next .getID progress <;>
    simp [failingAnswer, hfailure, Context.answer, Except.toOption]

variable (ctx ledger failures progress) in
/-- The check of managers lets the client pass, or dereferences a nil certificate, or returns an
error. -/
theorem runIn_assertManager_cases (allowedMspIDs : List String) :
    (failures.Admits ctx.client progress ∧
      (assertManager allowedMspIDs).runIn (failingAnswer ctx ledger failures) progress =
        (.ok (), failures.afterCheck ctx.client progress)) ∨
    (failures.next .getX509Certificate progress ≠ none ∧ ∃ left,
      (assertManager allowedMspIDs).runIn (failingAnswer ctx ledger failures) progress =
        (.error .panic, left) ∧ left.writes = progress.writes) ∨
    (failures.next .getX509Certificate progress = none ∧ ¬ failures.Admits ctx.client progress ∧
      ∃ err left,
        (assertManager allowedMspIDs).runIn (failingAnswer ctx ledger failures) progress =
          (.error (.returned err), left) ∧ left.writes = progress.writes) := by
  unfold assertManager checkAffiliation FailurePattern.Admits FailurePattern.afterCheck
  cases hcertificate : failures.next .getX509Certificate progress with
  | some err => simp [failingAnswer, hcertificate]
  | none =>
    by_cases hadmin : contains ctx.client.certificate.organizationalUnit "admin"
    · simp [failingAnswer, Context.answer, hcertificate, hadmin]
    · by_cases hbureau : (failures.seen ctx.client progress).mspID = educationBureauMSP
      · simp [failingAnswer, Context.answer, hcertificate, hadmin, hbureau]
      · cases hattribute : failures.next .getAttributeValue progress with
        | some err =>
          simp [failingAnswer, Context.answer, hcertificate, hadmin, hbureau, hattribute,
            Except.mapError]
        | none =>
          cases haffiliation : ctx.client.attributes.lookup "hf.Affiliation" with
          | none =>
            simp [failingAnswer, Context.answer, hcertificate, hadmin, hbureau, hattribute,
              haffiliation, Except.mapError]
          | some affiliation =>
            obtain ⟨found, hfound⟩ : ∃ found,
                meetsAny (splitDots affiliation) managerAffiliations = some found :=
              ⟨_, meetsAny_eq _ _⟩
            cases found <;>
              simp [failingAnswer, Context.answer, hcertificate, hadmin, hbureau, hattribute,
                haffiliation, hfound, Except.mapError]

variable (ledger) in
theorem runIn_assertManager_of_admits (allowedMspIDs : List String)
    (h : failures.Admits ctx.client progress) :
    (assertManager allowedMspIDs).runIn (failingAnswer ctx ledger failures) progress =
      (.ok (), failures.afterCheck ctx.client progress) := by
  rcases runIn_assertManager_cases ctx ledger failures progress allowedMspIDs with
    ⟨-, hrun⟩ | ⟨hnil, -⟩ | ⟨-, hno, -⟩
  · exact hrun
  · exact absurd h.1 hnil
  · exact absurd h hno

/-- A failed read is taken for an ID that is free. -/
@[simp] theorem runIn_studentExists (studentID : String) :
    (studentExists studentID).runIn (failingAnswer ctx ledger failures) progress =
      (.ok (failures.next .getState progress = none ∧ (ledger.value studentID).isSome),
        progress.ask .getState) := by
  unfold studentExists
  cases hfailure : failures.next .getState progress <;>
    simp [failingAnswer, hfailure, Context.answer, Except.toOption]

variable (ctx ledger failures progress) in
/-- `GetStudent` returns the stored record, or an error also when the read fails. -/
theorem runIn_getStudent_cases (studentID : String) :
    (failures.next .getState progress = none ∧
      ∃ student, storedStudent ledger studentID = .ok student ∧
        (getStudent studentID).runIn (failingAnswer ctx ledger failures) progress =
          (.ok student, progress.ask .getState)) ∨
    ((failures.next .getState progress = none →
        ∀ student, storedStudent ledger studentID ≠ .ok student) ∧
      ∃ err, (getStudent studentID).runIn (failingAnswer ctx ledger failures) progress =
        (.error (.returned err), progress.ask .getState)) := by
  unfold getStudent storedStudent
  cases hfailure : failures.next .getState progress with
  | some err => simp [failingAnswer, hfailure, Except.mapError]
  | none =>
    cases hvalue : ledger.value studentID with
    | none => simp [failingAnswer, hfailure, Context.answer, hvalue, Except.mapError]
    | some text =>
      cases hdecoded : (unmarshal text : Except DecodeError Student) <;>
        simp [failingAnswer, hfailure, Context.answer, hvalue, hdecoded, Except.mapError]

/-! ### Creating under failures -/

/-- The context as `CreateStudent` sees it after the check. -/
def FailurePattern.creating (failures : FailurePattern) (ctx : Context) : Context :=
  { ctx with client := failures.seen ctx.client (failures.afterCheck ctx.client .start) }

variable (ctx ledger failures) in
/-- `CreateStudent` comes to write a student under failures: it is `CreateAccepts` but that a failed
`GetState` stands for a free ID and a failed `GetMSPID` for the empty MSP. -/
structure CreatesUnder (studentJSON : String) (student : Student) : Prop where
  admitted : failures.Admits ctx.client .start
  decoded : unmarshal studentJSON = .ok student
  fresh : failures.next .getState .start = none → ledger.value student.id = none
  school : (failures.creating ctx).client.mspID = educationBureauMSP → student.school ≠ ""
  named : student.name ≠ ""
  keyed : student.id ≠ ""

/-- What `CreateStudent` does with a student once the client is let pass. -/
theorem attempt_createStudent_of_decoded {studentJSON : String} {student : Student}
    (hadmits : failures.Admits ctx.client .start) (hdecoded : unmarshal studentJSON = .ok student) :
    attempt ctx ledger failures (.createStudent studentJSON) =
      if failures.next .getState .start = none ∧ (ledger.value student.id).isSome then
        ⟨.error (.returned (.studentAlreadyExists student.id)), []⟩
      else if (failures.creating ctx).client.mspID = educationBureauMSP ∧ student.school = "" then
        ⟨.error (.returned .schoolIsNil), []⟩
      else if student.name = "" then ⟨.error (.returned .nameIsNull), []⟩
      else if student.id = "" then
        ⟨.error (.returned (.stub "key must not be an empty string")), []⟩
      else ⟨.ok (), [(student.id, marshal (createdStudent (failures.creating ctx) student))]⟩ := by
  have hrun := runIn_assertManager_of_admits ledger [] hadmits
  have hread : failures.next .getState (failures.afterCheck ctx.client .start) =
      failures.next .getState .start := next_afterCheck _ (by decide) (by decide) (by decide)
  unfold attempt Attempt.ofRun Command.run createStudent createdStudent FailurePattern.creating
  by_cases hfound : failures.next .getState .start = none ∧ (ledger.value student.id).isSome
  · simp [hrun, hdecoded, hread, hfound, Except.mapError]
  by_cases hkeyed : student.id = ""
  · rw [hkeyed] at hfound
    by_cases hmsp : (failures.seen ctx.client (failures.afterCheck ctx.client .start)).mspID =
        educationBureauMSP <;>
      by_cases hschool : student.school = "" <;> by_cases hnamed : student.name = "" <;>
        simp [hrun, hdecoded, hread, hfound, hmsp, hschool, hnamed, hkeyed, failingAnswer,
          Context.answer, writeOf, Except.mapError]
  · by_cases hmsp : (failures.seen ctx.client (failures.afterCheck ctx.client .start)).mspID =
        educationBureauMSP <;>
      by_cases hschool : student.school = "" <;> by_cases hnamed : student.name = "" <;>
        simp [hrun, hdecoded, hread, hfound, hmsp, hschool, hnamed, hkeyed, failingAnswer,
          Context.answer, writeOf, Except.mapError]

variable (ctx ledger failures) in
/-- `CreateStudent` writes a student, or dereferences a nil certificate, or refuses. -/
theorem attempt_createStudent_cases (studentJSON : String) :
    (∃ student, CreatesUnder ctx ledger failures studentJSON student ∧
      attempt ctx ledger failures (.createStudent studentJSON) =
        ⟨.ok (), [(student.id, marshal (createdStudent (failures.creating ctx) student))]⟩) ∨
    (failures.next .getX509Certificate .start ≠ none ∧
      attempt ctx ledger failures (.createStudent studentJSON) = ⟨.error .panic, []⟩) ∨
    (failures.next .getX509Certificate .start = none ∧
      (∀ student, ¬ CreatesUnder ctx ledger failures studentJSON student) ∧
      (attempt ctx ledger failures (.createStudent studentJSON)).Refused) := by
  rcases runIn_assertManager_cases ctx ledger failures .start [] with
    ⟨hadmits, hrun⟩ | ⟨hnil, left, hrun, hleft⟩ | ⟨hcertificate, hno, err, left, hrun, hleft⟩
  · refine Or.imp_right (fun hrefused ↦ Or.inr ⟨hadmits.1, hrefused⟩) ?_
    cases hdecoded : (unmarshal studentJSON : Except DecodeError Student) with
    | error err =>
      refine Or.inr ⟨fun student creates ↦ ?_, ?_⟩
      · cases hdecoded.symm.trans creates.decoded
      · unfold attempt Attempt.Refused Attempt.ofRun Command.run createStudent
        simp [hrun, hdecoded, Except.mapError]
    | ok student =>
      have hno {condition : Prop} (hcondition : condition)
          (h : CreatesUnder ctx ledger failures studentJSON student → ¬ condition) :
          ∀ other, ¬ CreatesUnder ctx ledger failures studentJSON other := by
        intro other creates
        cases Except.ok.inj (hdecoded.symm.trans creates.decoded)
        exact h creates hcondition
      rw [attempt_createStudent_of_decoded hadmits hdecoded]
      split_ifs with hfound hschool hnamed hkeyed
      · refine Or.inr ⟨hno hfound fun creates hfound ↦ ?_, ⟨_, rfl⟩, rfl⟩
        rw [creates.fresh hfound.1] at hfound
        exact absurd hfound.2 (by decide)
      · exact Or.inr ⟨hno hschool fun creates hschool ↦ creates.school hschool.1 hschool.2,
          ⟨_, rfl⟩, rfl⟩
      · exact Or.inr ⟨hno hnamed CreatesUnder.named, ⟨_, rfl⟩, rfl⟩
      · exact Or.inr ⟨hno hkeyed CreatesUnder.keyed, ⟨_, rfl⟩, rfl⟩
      · have hfresh : failures.next .getState .start = none → ledger.value student.id = none := by
          intro hnone
          simpa [hnone] using hfound
        exact Or.inl ⟨student, ⟨hadmits, hdecoded, hfresh, not_and.mp hschool, hnamed, hkeyed⟩, rfl⟩
  · refine Or.inr (Or.inl ⟨hnil, ?_⟩)
    unfold attempt Attempt.ofRun Command.run createStudent
    simp [hrun, hleft]
  · refine Or.inr (Or.inr ⟨hcertificate, fun student creates ↦ hno creates.admitted, ?_⟩)
    unfold attempt Attempt.Refused Attempt.ofRun Command.run createStudent
    simp [hrun, hleft]

theorem CreatesUnder.attempt_eq {studentJSON : String} {student : Student}
    (h : CreatesUnder ctx ledger failures studentJSON student) :
    attempt ctx ledger failures (.createStudent studentJSON) =
      ⟨.ok (), [(student.id, marshal (createdStudent (failures.creating ctx) student))]⟩ := by
  rcases attempt_createStudent_cases ctx ledger failures studentJSON with
    ⟨other, creates, hattempt⟩ | ⟨hnil, -⟩ | ⟨-, hno, -⟩
  · cases Except.ok.inj (h.decoded.symm.trans creates.decoded)
    exact hattempt
  · exact absurd h.admitted.1 hnil
  · exact absurd h (hno student)

/-! ### Updating under failures -/

variable (ctx ledger failures) in
/-- `UpdateStudent` writes what it accepts, or dereferences a nil certificate, or refuses. -/
theorem attempt_updateStudent_cases (studentID studentUpdateJSON : String) :
    (failures.next .getX509Certificate .start = none ∧ ∃ existOne student,
      UpdateAccepts ctx ledger studentID studentUpdateJSON existOne student ∧
      attempt ctx ledger failures (.updateStudent studentID studentUpdateJSON) =
        ⟨.ok (), [(studentID, marshal (updatedStudent existOne student))]⟩) ∨
    (failures.next .getX509Certificate .start ≠ none ∧
      attempt ctx ledger failures (.updateStudent studentID studentUpdateJSON) =
        ⟨.error .panic, []⟩) ∨
    (failures.next .getX509Certificate .start = none ∧
      (attempt ctx ledger failures (.updateStudent studentID studentUpdateJSON)).Refused) := by
  unfold attempt Attempt.Refused Attempt.ofRun Command.run updateStudent
  dsimp only
  rcases runIn_assertManager_cases ctx ledger failures .start [] with
    ⟨hadmits, hrun⟩ | ⟨hnil, left, hrun, hleft⟩ | ⟨hcertificate, -, err, left, hrun, hleft⟩
  · rcases runIn_getStudent_cases ctx ledger failures (failures.afterCheck ctx.client .start)
      studentID with ⟨-, existOne, hstored, hread⟩ | ⟨-, err, hread⟩
    · cases hdecoded : (unmarshal studentUpdateJSON : Except DecodeError Student) with
      | error err =>
        refine Or.inr (Or.inr ⟨hadmits.1, ?_⟩)
        simp [hrun, hread, Except.mapError]
      | ok student =>
        by_cases hkeyed : studentID = ""
        · refine Or.inr (Or.inr ⟨hadmits.1, ?_⟩)
          rw [hkeyed] at hread
          simp [hrun, hread, hkeyed, failingAnswer, Context.answer, writeOf, Except.mapError]
        · refine Or.inl ⟨hadmits.1, existOne, student,
            ⟨hadmits.isManager, hstored, hdecoded, hkeyed⟩, ?_⟩
          simp [hrun, hread, hkeyed, failingAnswer, Context.answer, writeOf, Except.mapError]
    · refine Or.inr (Or.inr ⟨hadmits.1, ?_⟩)
      simp [hrun, hread]
  · refine Or.inr (Or.inl ⟨hnil, ?_⟩)
    simp [hrun, hleft]
  · refine Or.inr (Or.inr ⟨hcertificate, ?_⟩)
    simp [hrun, hleft]

/-! ### Grading under failures -/

/-- The progress of a `QueryStudent` before it reads the record: it has asked who the client is and,
unless that is the student, whether it is a manager. -/
def FailurePattern.beforeRead (failures : FailurePattern) (client : ClientIdentity)
    (studentID : String) : Progress :=
  if (failures.seen client .start).id = studentID then Progress.start.ask .getID
  else failures.afterCheck client (Progress.start.ask .getID)

/-- The progress of a `QueryStudent` that is answered. -/
def FailurePattern.afterQuery (failures : FailurePattern) (client : ClientIdentity)
    (studentID : String) : Progress :=
  (((failures.beforeRead client studentID).ask .getState).ask .getMSPID).ask .getID

variable (ctx ledger failures) in
/-- `QueryStudent` answers with a student under failures. -/
structure QueriesUnder (studentID : String) (student : Student) : Prop where
  admitted : (failures.seen ctx.client .start).id = studentID ∨
    failures.Admits ctx.client (Progress.start.ask .getID)
  read : failures.next .getState .start = none
  stored : storedStudent ledger studentID = .ok student
  visible : MaySee (failures.seen ctx.client (failures.beforeRead ctx.client studentID)) studentID
    student

@[simp] theorem writes_beforeRead (client : ClientIdentity) (studentID : String) :
    (failures.beforeRead client studentID).writes = [] := by
  unfold FailurePattern.beforeRead
  split_ifs
  · rfl
  · exact writes_afterCheck client

@[simp] theorem writes_afterQuery (client : ClientIdentity) (studentID : String) :
    (failures.afterQuery client studentID).writes = [] := writes_beforeRead client studentID

theorem next_beforeRead {kind : FallibleCall} (client : ClientIdentity) (studentID : String)
    (hid : kind ≠ .getID) (hcertificate : kind ≠ .getX509Certificate) (hmsp : kind ≠ .getMSPID)
    (haffiliation : kind ≠ .getAttributeValue) :
    failures.next kind (failures.beforeRead client studentID) = failures.next kind .start := by
  unfold FailurePattern.beforeRead
  split_ifs
  · rw [next_ask_of_ne hid]
  · rw [next_afterCheck client hcertificate hmsp haffiliation, next_ask_of_ne hid]

/-- What `QueryStudent` does after its check. -/
def answerQuery (studentID : String) : Contract Student := do
  let student ← getStudent studentID
  let msp ← getMSPID
  let err ← assertStateOwner studentID
  if err.isSome ∧ msp ≠ educationBureauMSP ∧ msp ≠ student.school then fail .accessDenied
  else return student

/-- `QueryStudent` is its check and then `answerQuery`. -/
theorem queryStudent_eq (studentID : String) :
    queryStudent studentID = (do
      let err ← assertStateOwner studentID
      match err with
      | some _ => assertManager [studentID]
      | none => pure ()
      answerQuery studentID) := rfl

variable (ctx ledger failures progress) in
/-- The record is answered when the read does not fail and the client, as the calls show it, may see
it. -/
theorem runIn_answerQuery_cases (studentID : String) :
    (failures.next .getState progress = none ∧
      ∃ student, storedStudent ledger studentID = .ok student ∧
        MaySee (failures.seen ctx.client progress) studentID student ∧
        (answerQuery studentID).runIn (failingAnswer ctx ledger failures) progress =
          (.ok student, ((progress.ask .getState).ask .getMSPID).ask .getID)) ∨
    ((failures.next .getState progress = none →
        ∀ student, storedStudent ledger studentID = .ok student →
          ¬ MaySee (failures.seen ctx.client progress) studentID student) ∧
      ∃ err left, (answerQuery studentID).runIn (failingAnswer ctx ledger failures) progress =
        (.error (.returned err), left) ∧ left.writes = progress.writes) := by
  unfold answerQuery
  rcases runIn_getStudent_cases ctx ledger failures progress studentID with
    ⟨hnone, student, hstored, hrun⟩ | ⟨hno, err, hrun⟩
  · by_cases hvisible : MaySee (failures.seen ctx.client progress) studentID student
    · refine Or.inl ⟨hnone, student, hstored, hvisible, ?_⟩
      have hshown (hid : (failures.seen ctx.client progress).id ≠ studentID)
          (hmsp : (failures.seen ctx.client progress).mspID ≠ educationBureauMSP) :
          (failures.seen ctx.client progress).mspID = student.school :=
        (hvisible.resolve_left hid).resolve_left hmsp
      simpa [hrun] using hshown
    · refine Or.inr ⟨fun _ other hother ↦ ?_, .accessDenied, ?_⟩
      · cases Except.ok.inj (hstored.symm.trans hother)
        exact hvisible
      · simp only [MaySee, not_or] at hvisible
        simp [hrun, hvisible]
  · refine Or.inr ⟨fun hnone student hstored ↦ absurd hstored (hno hnone student), err, ?_⟩
    simp [hrun]

/-- After the check a student and a manager are answered alike. -/
theorem runIn_answerQuery_of_admitted {studentID : String}
    (hadmitted : (failures.seen ctx.client .start).id = studentID ∨
      failures.Admits ctx.client (Progress.start.ask .getID)) :
    (∃ student, QueriesUnder ctx ledger failures studentID student ∧
      (answerQuery studentID).runIn (failingAnswer ctx ledger failures)
          (failures.beforeRead ctx.client studentID) =
        (.ok student, failures.afterQuery ctx.client studentID)) ∨
    (∀ student, ¬ QueriesUnder ctx ledger failures studentID student) ∧ ∃ err left,
      (answerQuery studentID).runIn (failingAnswer ctx ledger failures)
          (failures.beforeRead ctx.client studentID) =
        (.error (.returned err), left) ∧ left.writes = [] := by
  have hread : failures.next .getState (failures.beforeRead ctx.client studentID) =
      failures.next .getState .start :=
    next_beforeRead _ _ (by decide) (by decide) (by decide) (by decide)
  have hwrites : (failures.beforeRead ctx.client studentID).writes = [] := writes_beforeRead _ _
  have hanswer := runIn_answerQuery_cases ctx ledger failures
    (failures.beforeRead ctx.client studentID) studentID
  rw [hread, hwrites] at hanswer
  rcases hanswer with ⟨hnone, student, hstored, hvisible, hok⟩ | ⟨hno, herror⟩
  · exact Or.inl ⟨student, ⟨hadmitted, hnone, hstored, hvisible⟩, hok⟩
  · exact Or.inr ⟨fun student queries ↦
      hno queries.read student queries.stored queries.visible, herror⟩

variable (ctx ledger failures) in
/-- `QueryStudent` answers, or dereferences a nil certificate, or returns an error. -/
theorem runIn_queryStudent_cases (studentID : String) :
    (∃ student, QueriesUnder ctx ledger failures studentID student ∧
      (queryStudent studentID).runIn (failingAnswer ctx ledger failures) .start =
        (.ok student, failures.afterQuery ctx.client studentID)) ∨
    (((failures.seen ctx.client .start).id ≠ studentID ∧
        failures.next .getX509Certificate .start ≠ none) ∧ ∃ left,
      (queryStudent studentID).runIn (failingAnswer ctx ledger failures) .start =
        (.error .panic, left) ∧ left.writes = []) ∨
    (¬ ((failures.seen ctx.client .start).id ≠ studentID ∧
        failures.next .getX509Certificate .start ≠ none) ∧
      (∀ student, ¬ QueriesUnder ctx ledger failures studentID student) ∧ ∃ err left,
      (queryStudent studentID).runIn (failingAnswer ctx ledger failures) .start =
        (.error (.returned err), left) ∧ left.writes = []) := by
  have hcertificate : failures.next .getX509Certificate (Progress.start.ask .getID) =
      failures.next .getX509Certificate .start := next_ask_of_ne (by decide)
  by_cases howner : (failures.seen ctx.client .start).id = studentID
  · have hrun : (queryStudent studentID).runIn (failingAnswer ctx ledger failures) .start =
        (answerQuery studentID).runIn (failingAnswer ctx ledger failures)
          (failures.beforeRead ctx.client studentID) := by
      rw [queryStudent_eq]
      unfold FailurePattern.beforeRead
      simp [howner]
    rw [hrun]
    exact (runIn_answerQuery_of_admitted (Or.inl howner)).imp_right fun herror ↦
      Or.inr ⟨fun h ↦ h.1 howner, herror⟩
  rcases runIn_assertManager_cases ctx ledger failures (Progress.start.ask .getID) [studentID] with
    ⟨hadmits, hcheck⟩ | ⟨hnil, left, hcheck, hleft⟩ | ⟨hcert, hno, err, left, hcheck, hleft⟩
  · have hrun : (queryStudent studentID).runIn (failingAnswer ctx ledger failures) .start =
        (answerQuery studentID).runIn (failingAnswer ctx ledger failures)
          (failures.beforeRead ctx.client studentID) := by
      rw [queryStudent_eq]
      unfold FailurePattern.beforeRead
      simp [howner, hcheck]
    rw [hrun]
    exact (runIn_answerQuery_of_admitted (Or.inr hadmits)).imp_right fun herror ↦
      Or.inr ⟨fun h ↦ h.2 (hcertificate.symm.trans hadmits.1), herror⟩
  · rw [hcertificate] at hnil
    refine Or.inr (Or.inl ⟨⟨howner, hnil⟩, left, ?_, hleft⟩)
    rw [queryStudent_eq]
    simp [howner, hcheck]
  · rw [hcertificate] at hcert
    refine Or.inr (Or.inr ⟨fun h ↦ h.2 hcert, fun student queries ↦ ?_, err, left, ?_, hleft⟩)
    · exact queries.admitted.elim howner hno
    · rw [queryStudent_eq]
      simp [howner, hcheck]

variable (ctx ledger failures) in
/-- `CreateStudentGrade` comes to write a grade under failures. -/
structure GradesUnder (studentID gradeJSON : String) (student : Student) (grade : StudentGrade)
    (key : String) : Prop where
  queried : QueriesUnder ctx ledger failures studentID student
  admitted : failures.Admits ctx.client (failures.afterQuery ctx.client studentID)
  decoded : unmarshal gradeJSON = .ok grade
  composing : failures.next .createCompositeKey .start = none
  composed : ctx.stub.createCompositeKey compositeKeyStudentGrade [student.id, student.school] =
    .ok key
  keyed : key ≠ ""

variable (ctx ledger failures) in
/-- The run of the writer dereferences a nil certificate: `GetX509Certificate` fails in a check of
managers that it comes to. -/
def DereferencesNil : Command → Prop
  | .createStudent _ | .updateStudent _ _ => failures.next .getX509Certificate .start ≠ none
  | .createStudentGrade studentID _ =>
    ((failures.seen ctx.client .start).id ≠ studentID ∧
      failures.next .getX509Certificate .start ≠ none) ∨
    (∃ student, QueriesUnder ctx ledger failures studentID student) ∧
      failures.next .getX509Certificate (failures.afterQuery ctx.client studentID) ≠ none

theorem QueriesUnder.not_dereferencesNil {studentID : String} {student : Student}
    (h : QueriesUnder ctx ledger failures studentID student)
    (hcertificate : failures.next .getX509Certificate (failures.afterQuery ctx.client studentID) =
      none) (gradeJSON : String) :
    ¬ DereferencesNil ctx ledger failures (.createStudentGrade studentID gradeJSON) := by
  rintro (⟨hother, hnil⟩ | ⟨-, hnil⟩)
  · exact hnil ((next_ask_of_ne (by decide)).symm.trans (h.admitted.resolve_left hother).1)
  · exact hnil hcertificate

/-- What `CreateStudentGrade` does with the student that `QueryStudent` answers, once the client is
let pass. -/
theorem attempt_createStudentGrade_of_queried {studentID : String} {student : Student}
    (queries : QueriesUnder ctx ledger failures studentID student)
    (hquery : (queryStudent studentID).runIn (failingAnswer ctx ledger failures) .start =
      (.ok student, failures.afterQuery ctx.client studentID))
    (hadmits : failures.Admits ctx.client (failures.afterQuery ctx.client studentID))
    (gradeJSON : String) :
    (∃ grade key, GradesUnder ctx ledger failures studentID gradeJSON student grade key ∧
      attempt ctx ledger failures (.createStudentGrade studentID gradeJSON) =
        ⟨.ok (), [(key, marshal (createdGrade ctx grade key))]⟩) ∨
    (∀ grade key, ¬ GradesUnder ctx ledger failures studentID gradeJSON student grade key) ∧
      (attempt ctx ledger failures (.createStudentGrade studentID gradeJSON)).Refused := by
  have hrun := runIn_assertManager_of_admits ledger [] hadmits
  have hcompose : failures.next .createCompositeKey
      (failures.afterCheck ctx.client (failures.afterQuery ctx.client studentID)) =
        failures.next .createCompositeKey .start := by
    rw [next_afterCheck _ (by decide) (by decide) (by decide)]
    unfold FailurePattern.afterQuery
    rw [next_ask_of_ne (by decide), next_ask_of_ne (by decide), next_ask_of_ne (by decide),
      next_beforeRead _ _ (by decide) (by decide) (by decide) (by decide)]
  unfold attempt Attempt.Refused Attempt.ofRun Command.run createStudentGrade
  dsimp only
  cases hdecoded : (unmarshal gradeJSON : Except DecodeError StudentGrade) with
  | error err =>
    refine Or.inr ⟨fun grade _ grades ↦ ?_, ?_⟩
    · cases hdecoded.symm.trans grades.decoded
    · simp [hquery, hrun, Except.mapError]
  | ok grade =>
    cases hcomposing : failures.next .createCompositeKey .start with
    | some err =>
      refine Or.inr ⟨fun _ _ grades ↦ ?_, ?_⟩
      · cases hcomposing.symm.trans grades.composing
      · simp [hquery, hrun, hcompose, hcomposing, failingAnswer, Except.mapError]
    | none =>
      cases hcomposed : ctx.stub.createCompositeKey compositeKeyStudentGrade
          [student.id, student.school] with
      | error err =>
        refine Or.inr ⟨fun _ _ grades ↦ ?_, ?_⟩
        · cases hcomposed.symm.trans grades.composed
        · simp [hquery, hrun, hcompose, hcomposing, hcomposed, failingAnswer, Context.answer,
            Except.mapError]
      | ok key =>
        by_cases hkeyed : key = ""
        · refine Or.inr ⟨fun _ _ grades ↦ ?_, ?_⟩
          · cases Except.ok.inj (hcomposed.symm.trans grades.composed)
            exact grades.keyed hkeyed
          · simp [hquery, hrun, hcompose, hcomposing, hcomposed, hkeyed, failingAnswer,
              Context.answer, writeOf, Except.mapError]
        · refine Or.inl ⟨grade, key,
            ⟨queries, hadmits, hdecoded, hcomposing, hcomposed, hkeyed⟩, ?_⟩
          simp [hquery, hrun, hcompose, hcomposing, hcomposed, hkeyed, failingAnswer,
            Context.answer, writeOf, createdGrade, Except.mapError]

variable (ctx ledger failures) in
/-- `CreateStudentGrade` writes a grade, or dereferences a nil certificate, or refuses. -/
theorem attempt_createStudentGrade_cases (studentID gradeJSON : String) :
    (∃ student grade key, GradesUnder ctx ledger failures studentID gradeJSON student grade key ∧
      attempt ctx ledger failures (.createStudentGrade studentID gradeJSON) =
        ⟨.ok (), [(key, marshal (createdGrade ctx grade key))]⟩) ∨
    (DereferencesNil ctx ledger failures (.createStudentGrade studentID gradeJSON) ∧
      attempt ctx ledger failures (.createStudentGrade studentID gradeJSON) =
        ⟨.error .panic, []⟩) ∨
    (¬ DereferencesNil ctx ledger failures (.createStudentGrade studentID gradeJSON) ∧
      (∀ student grade key,
        ¬ GradesUnder ctx ledger failures studentID gradeJSON student grade key) ∧
      (attempt ctx ledger failures (.createStudentGrade studentID gradeJSON)).Refused) := by
  rcases runIn_queryStudent_cases ctx ledger failures studentID with
    ⟨student, queries, hquery⟩ | ⟨hnil, left, hquery, hleft⟩ |
      ⟨hquiet, hno, err, left, hquery, hleft⟩
  · rcases runIn_assertManager_cases ctx ledger failures
        (failures.afterQuery ctx.client studentID) [] with
      ⟨hadmits, -⟩ | ⟨hnil, left, hrun, hleft⟩ | ⟨hcert, hno, err, left, hrun, hleft⟩
    · rcases attempt_createStudentGrade_of_queried queries hquery hadmits gradeJSON with
        ⟨grade, key, grades, hattempt⟩ | ⟨hno, hrefused⟩
      · exact Or.inl ⟨student, grade, key, grades, hattempt⟩
      · refine Or.inr (Or.inr ⟨queries.not_dereferencesNil hadmits.1 gradeJSON,
          fun other grade key grades ↦ ?_, hrefused⟩)
        cases Except.ok.inj (queries.stored.symm.trans grades.queried.stored)
        exact hno grade key grades
    · refine Or.inr (Or.inl ⟨Or.inr ⟨⟨student, queries⟩, hnil⟩, ?_⟩)
      unfold attempt Attempt.ofRun Command.run createStudentGrade
      simp [hquery, hrun, hleft]
    · refine Or.inr (Or.inr ⟨queries.not_dereferencesNil hcert gradeJSON,
        fun _ _ _ grades ↦ hno grades.admitted, ?_⟩)
      unfold attempt Attempt.Refused Attempt.ofRun Command.run createStudentGrade
      simp [hquery, hrun, hleft]
  · refine Or.inr (Or.inl ⟨Or.inl hnil, ?_⟩)
    unfold attempt Attempt.ofRun Command.run createStudentGrade
    simp [hquery, hleft]
  · refine Or.inr (Or.inr ⟨?_, fun student grade key grades ↦ hno student grades.queried, ?_⟩)
    · rintro (hnil | ⟨⟨student, queries⟩, -⟩)
      · exact hquiet hnil
      · exact hno student queries
    · unfold attempt Attempt.Refused Attempt.ofRun Command.run createStudentGrade
      simp [hquery, hleft]

/-! ### Transparency -/

variable (ctx ledger failures) in
/-- What the writer comes to write under failures is what it would have written: `CreateStudent`
finds the ID free and the client's MSP as it is, `CreateStudentGrade` a client that may see the
student. -/
def WritesAlike : Command → Prop
  | .createStudent studentJSON => ∀ student, CreatesUnder ctx ledger failures studentJSON student →
    ledger.value student.id = none ∧ (failures.creating ctx).client.mspID = ctx.client.mspID
  | .updateStudent _ _ => True
  | .createStudentGrade studentID gradeJSON => ∀ student grade key,
    GradesUnder ctx ledger failures studentID gradeJSON student grade key →
      MaySee ctx.client studentID student

/-- A nil certificate is dereferenced only where the writer would have refused, and what is written
is what would have been. -/
structure Tolerates (ctx : Context) (ledger : Ledger) (failures : FailurePattern)
    (command : Command) : Prop where
  certificate : DereferencesNil ctx ledger failures command →
    ∀ read key text, ¬ Effect ctx ledger command read key text
  writes : WritesAlike ctx ledger failures command

section Transparency

variable {command : Command} {read key text : String}

theorem writes_noFailures_of_effect (h : Effect ctx ledger command read key text) :
    (attempt ctx ledger noFailures command).writes = [(key, text)] := by
  rw [attempt_noFailures]
  rcases command.run_cases ctx ledger with ⟨_, _, _, heffect, -, -, hwrites⟩ | ⟨hno, -⟩
  · obtain ⟨-, rfl, rfl⟩ := h.unique heffect
    exact hwrites
  · exact absurd h (hno _ _ _)

theorem writes_noFailures_of_no_effect
    (h : ∀ read key text, ¬ Effect ctx ledger command read key text) :
    (attempt ctx ledger noFailures command).writes = [] := by
  rw [attempt_noFailures]
  rcases command.run_cases ctx ledger with ⟨_, _, _, heffect, -⟩ | ⟨-, -, hwrites⟩
  · exact absurd heffect (h _ _ _)
  · exact hwrites

/-- An attempt that panics shows the failure unless the writer would have refused. -/
theorem transparent_iff_of_panic (h : attempt ctx ledger failures command = ⟨.error .panic, []⟩) :
    Transparent ctx ledger failures command ↔
      ∀ read key text, ¬ Effect ctx ledger command read key text := by
  unfold Transparent Attempt.Refused
  rw [h]
  constructor
  · rintro (⟨⟨err, herr⟩, -⟩ | hwrites) read key text heffect
    · cases herr
    · rw [writes_noFailures_of_effect heffect] at hwrites
      cases hwrites
  · exact fun hno ↦ Or.inr (writes_noFailures_of_no_effect hno).symm

/-- An attempt that writes shows no failure when the writer would have written the same. -/
theorem transparent_iff_of_write
    (h : attempt ctx ledger failures command = ⟨.ok (), [(key, text)]⟩) :
    Transparent ctx ledger failures command ↔ ∃ read, Effect ctx ledger command read key text := by
  unfold Transparent Attempt.Refused
  rw [h]
  constructor
  · rintro (⟨⟨err, herr⟩, -⟩ | hwrites)
    · cases herr
    · by_contra hno
      rcases command.run_cases ctx ledger with ⟨read, _, _, heffect, -⟩ | ⟨hrefuses, -⟩
      · rw [writes_noFailures_of_effect heffect] at hwrites
        obtain ⟨rfl, rfl⟩ := Prod.mk.inj (List.singleton_inj.mp hwrites)
        exact hno ⟨read, heffect⟩
      · rw [writes_noFailures_of_no_effect hrefuses] at hwrites
        cases hwrites
  · rintro ⟨read, heffect⟩
    exact Or.inr (writes_noFailures_of_effect heffect).symm

end Transparency

/-- The student that is written is the one that would have been exactly when the ID is free and the
client's MSP is seen as it is. -/
theorem CreatesUnder.effect_iff {studentJSON : String} {student : Student}
    (h : CreatesUnder ctx ledger failures studentJSON student) :
    (∃ read, Effect ctx ledger (.createStudent studentJSON) read student.id
        (marshal (createdStudent (failures.creating ctx) student))) ↔
      ledger.value student.id = none ∧
        (failures.creating ctx).client.mspID = ctx.client.mspID := by
  constructor
  · rintro ⟨read, heffect⟩
    obtain ⟨other, accepts, -, -, htext⟩ := heffect.of_createStudent
    cases Except.ok.inj (h.decoded.symm.trans accepts.decoded)
    refine ⟨accepts.fresh, ?_⟩
    rcases mspID_seen_cases failures (failures.afterCheck ctx.client .start) ctx.client with
      hsame | hempty
    · exact hsame
    have hschool := congrArg Student.school (marshal_injective htext)
    have hlost : (failures.creating ctx).client.mspID = "" := hempty
    unfold createdStudent at hschool
    dsimp only at hschool
    rw [hlost, if_pos (by decide)] at hschool
    by_cases hbureau : ctx.client.mspID = educationBureauMSP
    · rw [if_neg (not_not_intro hbureau)] at hschool
      exact absurd hschool.symm (accepts.school hbureau)
    · rw [if_pos hbureau] at hschool
      rw [hlost, hschool]
  · rintro ⟨hfresh, hmsp⟩
    have accepts : CreateAccepts ctx ledger studentJSON student :=
      ⟨h.admitted.isManager, h.decoded, hfresh, fun hbureau ↦ h.school (hmsp.trans hbureau),
        h.named, h.keyed⟩
    have hsame : createdStudent (failures.creating ctx) student = createdStudent ctx student := by
      unfold createdStudent
      rw [hmsp]
      rfl
    rw [hsame]
    exact ⟨_, .create accepts⟩

/-- The grade that is written is the one that would have been exactly when the client may see the
student. -/
theorem GradesUnder.effect_iff {studentID gradeJSON : String} {student : Student}
    {grade : StudentGrade} {key : String}
    (h : GradesUnder ctx ledger failures studentID gradeJSON student grade key) :
    (∃ read, Effect ctx ledger (.createStudentGrade studentID gradeJSON) read key
        (marshal (createdGrade ctx grade key))) ↔ MaySee ctx.client studentID student := by
  constructor
  · rintro ⟨read, heffect⟩
    obtain ⟨other, _, accepts, -, -⟩ := heffect.of_createStudentGrade
    cases Except.ok.inj (h.queried.stored.symm.trans accepts.stored)
    exact accepts.visible
  · intro hvisible
    exact ⟨_, .grade ⟨h.admitted.isManager, h.queried.stored, hvisible, h.decoded, h.composed,
      h.keyed⟩⟩

theorem transparent_createStudent_iff (studentJSON : String) :
    Transparent ctx ledger failures (.createStudent studentJSON) ↔
      Tolerates ctx ledger failures (.createStudent studentJSON) := by
  rcases attempt_createStudent_cases ctx ledger failures studentJSON with
    ⟨student, creates, hattempt⟩ | ⟨hnil, hattempt⟩ | ⟨hcertificate, hno, hrefused⟩
  · rw [transparent_iff_of_write hattempt, creates.effect_iff]
    refine ⟨fun h ↦ ⟨fun hnil ↦ absurd creates.admitted.1 hnil, fun other hother ↦ ?_⟩,
      fun h ↦ h.writes student creates⟩
    cases Except.ok.inj (creates.decoded.symm.trans hother.decoded)
    exact h
  · rw [transparent_iff_of_panic hattempt]
    exact ⟨fun hno ↦ ⟨fun _ ↦ hno, fun student creates ↦ absurd creates.admitted.1 hnil⟩,
      fun h ↦ h.certificate hnil⟩
  · exact iff_of_true (Or.inl hrefused)
      ⟨fun hnil ↦ absurd hcertificate hnil, fun student creates ↦ absurd creates (hno student)⟩

theorem transparent_updateStudent_iff (studentID studentUpdateJSON : String) :
    Transparent ctx ledger failures (.updateStudent studentID studentUpdateJSON) ↔
      Tolerates ctx ledger failures (.updateStudent studentID studentUpdateJSON) := by
  rcases attempt_updateStudent_cases ctx ledger failures studentID studentUpdateJSON with
    ⟨hcertificate, existOne, student, accepts, hattempt⟩ | ⟨hnil, hattempt⟩ |
      ⟨hcertificate, hrefused⟩
  · rw [transparent_iff_of_write hattempt]
    exact iff_of_true ⟨_, .update accepts⟩ ⟨fun hnil ↦ absurd hcertificate hnil, trivial⟩
  · rw [transparent_iff_of_panic hattempt]
    exact ⟨fun hno ↦ ⟨fun _ ↦ hno, trivial⟩, fun h ↦ h.certificate hnil⟩
  · exact iff_of_true (Or.inl hrefused) ⟨fun hnil ↦ absurd hcertificate hnil, trivial⟩

theorem transparent_createStudentGrade_iff (studentID gradeJSON : String) :
    Transparent ctx ledger failures (.createStudentGrade studentID gradeJSON) ↔
      Tolerates ctx ledger failures (.createStudentGrade studentID gradeJSON) := by
  rcases attempt_createStudentGrade_cases ctx ledger failures studentID gradeJSON with
    ⟨student, grade, key, grades, hattempt⟩ | ⟨hnil, hattempt⟩ | ⟨hquiet, hno, hrefused⟩
  · have hquiet := grades.queried.not_dereferencesNil grades.admitted.1 gradeJSON
    rw [transparent_iff_of_write hattempt, grades.effect_iff]
    refine ⟨fun h ↦ ⟨fun hnil ↦ absurd hnil hquiet, fun other _ _ hother ↦ ?_⟩,
      fun h ↦ h.writes student grade key grades⟩
    cases Except.ok.inj (grades.queried.stored.symm.trans hother.queried.stored)
    exact h
  · rw [transparent_iff_of_panic hattempt]
    refine ⟨fun hno ↦ ⟨fun _ ↦ hno, fun student grade key grades ↦ ?_⟩,
      fun h ↦ h.certificate hnil⟩
    exact absurd hnil (grades.queried.not_dereferencesNil grades.admitted.1 gradeJSON)
  · exact iff_of_true (Or.inl hrefused) ⟨fun hnil ↦ absurd hnil hquiet,
      fun student grade key grades ↦ absurd grades (hno student grade key)⟩

/-- An attempt of a writer is transparent exactly when the writer tolerates the failures. -/
theorem transparent_iff_tolerates (ctx : Context) (ledger : Ledger) (failures : FailurePattern)
    (command : Command) :
    Transparent ctx ledger failures command ↔ Tolerates ctx ledger failures command := by
  cases command with
  | createStudent studentJSON => exact transparent_createStudent_iff studentJSON
  | updateStudent studentID studentUpdateJSON =>
    exact transparent_updateStudent_iff studentID studentUpdateJSON
  | createStudentGrade studentID gradeJSON =>
    exact transparent_createStudentGrade_iff studentID gradeJSON

/-- A transparent creation replaces no record. -/
theorem Transparent.fresh {studentJSON key text : String}
    (h : Transparent ctx ledger failures (.createStudent studentJSON))
    (hwrite : (key, text) ∈ (attempt ctx ledger failures (.createStudent studentJSON)).writes) :
    ledger.value key = none := by
  rcases h with ⟨-, hnone⟩ | hsame
  · rw [hnone] at hwrite
    cases hwrite
  rw [hsame] at hwrite
  rcases Command.run_cases ctx ledger (.createStudent studentJSON) with
    ⟨_, _, _, heffect, -⟩ | ⟨hno, -⟩
  · rw [writes_noFailures_of_effect heffect] at hwrite
    obtain ⟨rfl, -⟩ := Prod.mk.inj (List.mem_singleton.mp hwrite)
    obtain ⟨student, accepts, -, rfl, -⟩ := heffect.of_createStudent
    exact accepts.fresh
  · rw [writes_noFailures_of_no_effect hno] at hwrite
    cases hwrite

/-! ### A failed read that replaces a record -/

/-- Every `GetState` fails. -/
def stateUnavailable : FailurePattern := fun kind _ ↦
  if kind = .getState then some "connection refused" else none

/-- The student as the second school would create it. -/
def adaReplaced : Student := { ada with school := "School2MSP" }

theorem createsUnder_ada :
    CreatesUnder ⟨fabricStub, school2Manager, noon⟩ [[("s1", marshal ada)]] stateUnavailable
      (marshal ada) ada where
  admitted := ⟨rfl, Or.inr (Or.inr ⟨rfl, "school2.manager", rfl, by decide +kernel⟩)⟩
  decoded := unmarshal_marshal ada
  fresh hread := absurd hread (by decide)
  school hbureau := absurd hbureau (by decide +kernel)
  named := by decide
  keyed := by decide

/-- When `GetState` fails, `CreateStudent` of the second school replaces the student of the
first. -/
theorem transparent_replaces_ada :
    Reachable fabricStub [[("s1", marshal ada)]] ∧
      (attempt ⟨fabricStub, school2Manager, noon⟩ [[("s1", marshal ada)]] stateUnavailable
        (.createStudent (marshal ada))).writes = [("s1", marshal adaReplaced)] ∧
      ¬ Transparent ⟨fabricStub, school2Manager, noon⟩ [[("s1", marshal ada)]] stateUnavailable
        (.createStudent (marshal ada)) := by
  have hattempt := createsUnder_ada.attempt_eq
  have hcreated :
      createdStudent (stateUnavailable.creating ⟨fabricStub, school2Manager, noon⟩) ada =
        adaReplaced := by decide +kernel
  refine ⟨⟨_, reaches_enrolment⟩, ?_, fun htransparent ↦ ?_⟩
  · rw [hattempt, hcreated]
    rfl
  · have heffect := (transparent_iff_of_write hattempt).mp htransparent
    have hfresh := (createsUnder_ada.effect_iff.mp heffect).1
    cases value_ada.symm.trans hfresh

end StudentStatus.Chaincode
