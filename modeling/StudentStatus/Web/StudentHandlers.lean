import StudentStatus.Chaincode.Endorsement
import StudentStatus.Json.Stringify

/-!
# Student handlers

`student.post.ts` and `student.patch.ts`. Each handler has the gateway evaluate a transaction, stops
if that reports anything, and then submits a transaction. A handler is a program over these two
calls (`Handler`); a call that throws ends it. The gateway answers both from the contract on the
ledger (`Gateway.answer`): it throws exactly when the contract returns an error.

The PATCH handler evaluates the transaction that it submits, so its dry run always agrees with the
submission. The POST handler evaluates a payload without the school and submits one with it. The
contract demands the school from the bureau, overwrites it for a school, and in both cases refuses a
school that is not a string: the two calls agree exactly when the school that the request asks for
does not decide (`dryRunAgrees_iff`). The bureau can therefore create no student through this
handler (`result_studentPost_iff`).
-/

set_option autoImplicit false
set_option relaxedAutoImplicit false

namespace StudentStatus.Web

open Interaction Optimistic Json Chaincode

/-! ### The gateway -/

/-- The transactions that the handlers name. -/
inductive TransactionName : Type
  | createStudent
  | updateStudent

/-- An argument of a transaction: a text that the handler builds, or a value of the request body,
`none` where it is `undefined`. -/
inductive Argument : Type
  | text (text : String)
  | value (v : Option JsValue)

/-- The calls of the gateway's contract object. -/
inductive GatewayCall : Type
  | evaluateTransaction (name : TransactionName) (args : List Argument)
  | submitTransaction (name : TransactionName) (args : List Argument)

/-- Why a call throws: the library cannot encode an argument, the contract does not take so many
parameters, or the contract returns an error. -/
inductive GatewayError : Type
  | argument
  | parameters
  | contract (abort : Abort)

/-- A request handler, which awaits what a call returns as text. -/
abbrev Handler := Program GatewayCall (fun _ ↦ Except GatewayError String) GatewayError

/-- A gateway connected as a client, with the contract's stub and the library's conversion of body
values to the bytes of an argument. -/
structure Gateway where
  stub : Stub
  client : ClientIdentity
  encode : Option JsValue → Option String

/-- The operation of the contract with that name and these arguments. -/
def commandOf : TransactionName → List String → Option Command
  | .createStudent, [studentJSON] => some (.createStudent studentJSON)
  | .updateStudent, [studentID, studentUpdateJSON] =>
    some (.updateStudent studentID studentUpdateJSON)
  | _, _ => none

namespace Gateway

def bytes (gateway : Gateway) : Argument → Option String
  | .text text => some text
  | .value v => gateway.encode v

/-- A transaction as a peer executes it. The operations named return an error or nothing. -/
def execute (gateway : Gateway) (now : Time) (ledger : Ledger) (name : TransactionName)
    (args : List Argument) : Except GatewayError String :=
  match args.mapM gateway.bytes with
  | none => .error .argument
  | some args =>
    match commandOf name args with
    | none => .error .parameters
    | some command =>
      match (endorse ⟨gateway.stub, gateway.client, now⟩ ledger (.command command)).response with
      | .ok _ => .ok ""
      | .error abort => .error (.contract abort)

/-- The answers of the gateway, where the peers evaluate and endorse at these clock readings. -/
def answer (gateway : Gateway) (evaluated endorsed : Time) (ledger : Ledger) :
    GatewayCall → Except GatewayError String
  | .evaluateTransaction name args => gateway.execute evaluated ledger name args
  | .submitTransaction name args => gateway.execute endorsed ledger name args

end Gateway

/-! ### The handlers -/

/-- What a handler returns: an error, the bytes of the response, or `{ succeed: true }`. -/
inductive HandlerResponse : Type
  | createError (message : String)
  | bytes (resp : String)
  | succeed
  deriving DecidableEq

/-- Await a call; what it throws ends the handler. -/
def await (call : GatewayCall) : Handler String := do
  let resp : Except GatewayError String ← Program.ask call
  match resp with
  | .ok resp => pure resp
  | .error err => Program.raise err

/-- The course of both handlers. -/
def checkThenSubmit (pre call : GatewayCall) : Handler HandlerResponse := do
  let preResp ← await pre
  if preResp ≠ "" then return .createError preResp
  else do
    let resp ← await call
    return if resp ≠ "" then .bytes resp else .succeed

/-- A property of an object literal, which `JSON.stringify` drops when its value is `undefined`. -/
def property (name : String) (v : Option JsValue) : List (JsString × JsValue) :=
  (v.map fun v ↦ (units name, v)).toList

/-- `JSON.stringify` of an object literal. -/
def stringified (properties : List (JsString × JsValue)) : Argument :=
  .text (String.ofList (stringify (.object properties)))

/-- The fields of a POST body, `none` where the body lacks them. -/
structure PostBody where
  id : Option JsValue
  name : Option JsValue
  school : Option JsValue
  major : Option JsValue

/-- The fields of a PATCH body, `none` where the body lacks them. -/
structure PatchBody where
  id : Option JsValue
  name : Option JsValue
  admissionYear : Option JsValue
  graduated : Option JsValue
  major : Option JsValue

/-- The admission year that the POST handler fills in. -/
def year2024 : JsValue := .number ⟨"2024".toList, by decide⟩

/-- The payload that the POST handler evaluates. -/
def evaluatedStudent (body : PostBody) : List (JsString × JsValue) :=
  property "ID" body.id ++ property "Name" body.name ++ property "AdmissionYear" (some year2024) ++
    property "Major" body.major

/-- The payload that the POST handler submits. -/
def submittedStudent (body : PostBody) : List (JsString × JsValue) :=
  property "ID" body.id ++ property "Name" body.name ++ property "School" body.school ++
    property "AdmissionYear" (some year2024) ++ property "Major" body.major

/-- The payload that the PATCH handler evaluates and submits. -/
def studentUpdate (body : PatchBody) : List (JsString × JsValue) :=
  property "Name" body.name ++ property "AdmissionYear" body.admissionYear ++
    property "Graduated" body.graduated ++ property "Major" body.major

def studentPost (body : PostBody) : Handler HandlerResponse :=
  checkThenSubmit (.evaluateTransaction .createStudent [stringified (evaluatedStudent body)])
    (.submitTransaction .createStudent [stringified (submittedStudent body)])

def studentPatch (body : PatchBody) : Handler HandlerResponse :=
  checkThenSubmit
    (.evaluateTransaction .updateStudent [.value body.id, stringified (studentUpdate body)])
    (.submitTransaction .updateStudent [.value body.id, stringified (studentUpdate body)])

/-- The call throws. -/
def Throws (outcome : Except GatewayError String) : Prop := ∃ err, outcome = .error err

/-- The first call of a handler throws exactly when the call that it makes next, after a first call
that reports nothing, throws. -/
def DryRunAgrees (answer : GatewayCall → Except GatewayError String) :
    Handler HandlerResponse → Prop
  | .done _ => True
  | .call pre next =>
    match next (.ok "") with
    | .done _ => True
    | .call call _ => Throws (answer pre) ↔ Throws (answer call)

section Course

variable {answer : GatewayCall → Except GatewayError String} {pre call : GatewayCall}

theorem dryRunAgrees_checkThenSubmit :
    DryRunAgrees answer (checkThenSubmit pre call) ↔
      (Throws (answer pre) ↔ Throws (answer call)) := Iff.rfl

/-- A handler succeeds exactly when neither of its calls throws or reports anything. -/
theorem result_checkThenSubmit_iff :
    (checkThenSubmit pre call).result answer = .ok .succeed ↔
      answer pre = .ok "" ∧ answer call = .ok "" := by
  cases hpre : answer pre with
  | error err => simp [checkThenSubmit, await, hpre, Program.raise, Program.result]
  | ok preResp =>
    by_cases hquiet : preResp = ""
    · cases hcall : answer call with
      | error err =>
        simp [checkThenSubmit, await, hpre, hquiet, hcall, Program.raise, Program.result]
      | ok resp =>
        by_cases hresp : resp = "" <;>
          simp [checkThenSubmit, await, hpre, hquiet, hcall, hresp]
    · simp [checkThenSubmit, await, hpre, hquiet]

end Course

/-! ### What the contract decodes -/

/-- The text that a value leaves in an empty string field; `none` where the field refuses it. -/
def fieldText : Option JsValue → Option String
  | none | some .null => some ""
  | some (.string s) => some s.text
  | some _ => none

section Decoding

variable {τ : Type} [Struct τ]

theorem foldlM_property_some (name : String) (v : JsValue) (s : τ) :
    (property name (some v)).foldlM storeJsMember s = storeJsMember s (units name, v) := by
  change ([(units name, v)] : List (JsString × JsValue)).foldlM storeJsMember s = _
  simp

/-- A property whose value goes to a string field that is empty. -/
theorem foldlM_property_string {name fieldName : String} {get : τ → String} {set : String → τ → τ}
    (hfield : findField (units name).text = some (Field.string fieldName get set)) {s : τ}
    (hempty : set "" s = s) (v : Option JsValue) :
    (property name v).foldlM storeJsMember s = (fieldText v).map fun text ↦ set text s := by
  have hstore (v : JsValue) (w : Value) (hw : v.scalar? = some w) :
      storeJsMember s (units name, v) = (Field.string fieldName get set).store w s := by
    simp only [storeJsMember, readMember, hw, Option.map_some, Option.bind_some, storeMember,
      hfield]
  cases v with
  | none => exact congrArg some hempty.symm
  | some v =>
    rw [foldlM_property_some]
    cases v with
    | null =>
      rw [hstore .null .null rfl]
      exact congrArg some hempty.symm
    | string text => exact hstore (.string text) (.string text.text) rfl
    | bool b => exact hstore (.bool b) (.bool b) rfl
    | number n => exact hstore (.number n) (.number n.literal) rfl
    | array _ => rfl
    | object _ => rfl

end Decoding

/-- The admission year is an integer that fits its field. -/
theorem foldlM_property_year (s : Student) :
    (property "AdmissionYear" (some year2024)).foldlM storeJsMember s =
      some { s with admissionYear := 2024 } := by
  have hname : (units "AdmissionYear").text = "AdmissionYear" := by decide +kernel
  rw [foldlM_property_some]
  simp only [storeJsMember, readMember, year2024, JsValue.scalar?, Option.map_some,
    Option.bind_some, hname]
  rfl

/-- The student that a POST request asks for. -/
def requestedStudent (id name school major : String) : Student :=
  ⟨id, name, 2024, major, school, false, ""⟩

/-- The payload that is evaluated is the one that a body without a school would submit. -/
theorem evaluatedStudent_eq (body : PostBody) :
    evaluatedStudent body = submittedStudent { body with school := none } := by
  simp [evaluatedStudent, submittedStudent, property]

/-- The names that the handlers give the fields are found up to case. -/
theorem findField_property :
    findField (units "ID").text =
        some (Field.string "id" Student.id fun v s ↦ { s with id := v }) ∧
      findField (units "Name").text =
        some (Field.string "name" Student.name fun v s ↦ { s with name := v }) ∧
      findField (units "School").text =
        some (Field.string "school" Student.school fun v s ↦ { s with school := v }) ∧
      findField (units "Major").text =
        some (Field.string "major" Student.major fun v s ↦ { s with major := v }) := by
  have htext : (units "ID").text = "ID" ∧ (units "Name").text = "Name" ∧
      (units "School").text = "School" ∧ (units "Major").text = "Major" := by decide +kernel
  obtain ⟨hid, hname, hschool, hmajor⟩ := htext
  rw [hid, hname, hschool, hmajor]
  exact ⟨rfl, rfl, rfl, rfl⟩

theorem foldlM_submittedStudent (body : PostBody) :
    (submittedStudent body).foldlM storeJsMember (Struct.zero : Student) =
      (fieldText body.id).bind fun id ↦ (fieldText body.name).bind fun name ↦
        (fieldText body.school).bind fun school ↦ (fieldText body.major).map fun major ↦
          requestedStudent id name school major := by
  obtain ⟨hid, hname, hschool, hmajor⟩ := findField_property
  unfold submittedStudent
  simp only [List.foldlM_append, Option.bind_eq_bind]
  rw [foldlM_property_string hid rfl]
  cases fieldText body.id with
  | none => rfl
  | some id =>
    simp only [Option.map_some, Option.bind_some]
    rw [foldlM_property_string hname rfl]
    cases fieldText body.name with
    | none => rfl
    | some name =>
      simp only [Option.map_some, Option.bind_some]
      rw [foldlM_property_string hschool rfl]
      cases fieldText body.school with
      | none => rfl
      | some school =>
        simp only [Option.map_some, Option.bind_some]
        rw [foldlM_property_year, Option.bind_some, foldlM_property_string hmajor rfl]
        rfl

theorem isSome_findField_of_mem_submittedStudent {body : PostBody} {member : JsString × JsValue}
    (h : member ∈ submittedStudent body) :
    (findField member.1.text : Option (Json.Field Student)).isSome := by
  obtain ⟨hid, hname, hschool, hmajor⟩ := findField_property
  have hyear : (findField (units "AdmissionYear").text : Option (Json.Field Student)).isSome := by
    decide +kernel
  have hproperty {name : String} {v : Option JsValue} (h : member ∈ property name v) :
      member.1 = units name := by
    obtain ⟨v, -, rfl⟩ := Option.map_eq_some_iff.mp (Option.mem_toList.mp h)
    rfl
  simp only [submittedStudent, List.mem_append] at h
  rcases h with (((h | h) | h) | h) | h <;> rw [hproperty h]
  · exact Option.isSome_of_eq_some hid
  · exact Option.isSome_of_eq_some hname
  · exact Option.isSome_of_eq_some hschool
  · exact hyear
  · exact Option.isSome_of_eq_some hmajor

/-- What the contract decodes from the submitted payload. -/
theorem unmarshal_submittedStudent_iff (body : PostBody) {student : Student} :
    unmarshal (String.ofList (stringify (.object (submittedStudent body)))) = .ok student ↔
      ∃ id name school major, fieldText body.id = some id ∧ fieldText body.name = some name ∧
        fieldText body.school = some school ∧ fieldText body.major = some major ∧
        requestedStudent id name school major = student := by
  have hne : submittedStudent body ≠ [] := by simp [submittedStudent, property]
  rw [unmarshal_stringify_iff hne fun member ↦ isSome_findField_of_mem_submittedStudent,
    foldlM_submittedStudent]
  simp only [Option.bind_eq_some_iff, Option.map_eq_some_iff]
  constructor
  · rintro ⟨id, hid, name, hname, school, hschool, major, hmajor, heq⟩
    exact ⟨id, name, school, major, hid, hname, hschool, hmajor, heq⟩
  · rintro ⟨id, name, school, major, hid, hname, hschool, hmajor, heq⟩
    exact ⟨id, hid, name, hname, school, hschool, major, hmajor, heq⟩

/-! ### Agreement of the dry run -/

/-- A POST request that the contract accepts from the client, as far as everything but the school is
concerned. -/
structure Creatable (client : ClientIdentity) (ledger : Ledger) (body : PostBody) : Prop where
  manager : IsManager client
  id : ∃ id, fieldText body.id = some id ∧ id ≠ "" ∧ ledger.value id = none
  name : ∃ name, fieldText body.name = some name ∧ name ≠ ""
  major : ∃ major, fieldText body.major = some major

/-- The school that a request asks for is one that the contract accepts from the client. -/
def SchoolAccepted (client : ClientIdentity) (body : PostBody) : Prop :=
  ∃ school, fieldText body.school = some school ∧
    (client.mspID = educationBureauMSP → school ≠ "")

/-- The contract accepts the submitted payload exactly when it accepts the request with its
school. -/
theorem exists_createAccepts_iff (ctx : Context) (ledger : Ledger) (body : PostBody) :
    (∃ student, CreateAccepts ctx ledger
        (String.ofList (stringify (.object (submittedStudent body)))) student) ↔
      Creatable ctx.client ledger body ∧ SchoolAccepted ctx.client body := by
  constructor
  · rintro ⟨student, hmanager, hdecoded, hfresh, hschool, hnamed, hkeyed⟩
    obtain ⟨id, name, school, major, hid, hname, hschool', hmajor, rfl⟩ :=
      (unmarshal_submittedStudent_iff body).mp hdecoded
    exact ⟨⟨hmanager, ⟨id, hid, hkeyed, hfresh⟩, ⟨name, hname, hnamed⟩, ⟨major, hmajor⟩⟩,
      school, hschool', hschool⟩
  · rintro ⟨⟨hmanager, ⟨id, hid, hkeyed, hfresh⟩, ⟨name, hname, hnamed⟩, ⟨major, hmajor⟩⟩,
      school, hschool', hschool⟩
    exact ⟨requestedStudent id name school major, hmanager,
      (unmarshal_submittedStudent_iff body).mpr ⟨id, name, school, major, hid, hname, hschool',
        hmajor, rfl⟩, hfresh, hschool, hnamed, hkeyed⟩

/-- The school of a request does not decide: a school sends none, `null` or a string, the bureau
sends none, `null`, an empty string or something else than a string. -/
def SchoolIndifferent (client : ClientIdentity) (body : PostBody) : Prop :=
  if client.mspID = educationBureauMSP then
    ∀ school, fieldText body.school = some school → school = ""
  else (fieldText body.school).isSome

theorem schoolIndifferent_iff (client : ClientIdentity) (body : PostBody) :
    SchoolIndifferent client body ↔
      (SchoolAccepted client { body with school := none } ↔ SchoolAccepted client body) := by
  unfold SchoolIndifferent SchoolAccepted
  by_cases hmsp : client.mspID = educationBureauMSP
  · simp [hmsp, fieldText]
  · simp [hmsp, fieldText, Option.isSome_iff_exists]

/-- A transaction throws exactly when the contract does not carry it out. -/
theorem throws_execute_iff (gateway : Gateway) (now : Time) (ledger : Ledger)
    {name : TransactionName} {args : List Argument} {texts : List String} {command : Command}
    (hargs : args.mapM gateway.bytes = some texts)
    (hcommand : commandOf name texts = some command) :
    Throws (gateway.execute now ledger name args) ↔ ∀ read key text,
      ¬ Effect ⟨gateway.stub, gateway.client, now⟩ ledger command read key text := by
  simp only [Gateway.execute, hargs, hcommand]
  rcases endorse_command_cases ⟨gateway.stub, gateway.client, now⟩ ledger command with
    ⟨read, key, text, heffect, hendorse⟩ | ⟨hno, err, hendorse⟩
  · rw [hendorse]
    refine ⟨?_, fun hno ↦ absurd heffect (hno read key text)⟩
    rintro ⟨err, heq⟩
    cases heq
  · rw [hendorse]
    exact ⟨fun _ ↦ hno, fun _ ↦ ⟨_, rfl⟩⟩

/-- A creation throws exactly when the contract does not accept the request with its school. -/
theorem throws_createStudent_iff (gateway : Gateway) (now : Time) (ledger : Ledger)
    (body : PostBody) :
    Throws (gateway.execute now ledger .createStudent [stringified (submittedStudent body)]) ↔
      ¬ (Creatable gateway.client ledger body ∧ SchoolAccepted gateway.client body) := by
  rw [throws_execute_iff gateway now ledger rfl rfl,
    ← exists_createAccepts_iff ⟨gateway.stub, gateway.client, now⟩]
  constructor
  · rintro hno ⟨student, accepts⟩
    exact hno _ _ _ (.create accepts)
  · intro hno read key text heffect
    obtain ⟨student, accepts, -⟩ := heffect.of_createStudent
    exact hno ⟨student, accepts⟩

/-- An update is executed alike at every clock reading. -/
theorem execute_updateStudent_clock (gateway : Gateway) (now now' : Time) (ledger : Ledger)
    (args : List Argument) :
    gateway.execute now ledger .updateStudent args =
      gateway.execute now' ledger .updateStudent args := by
  unfold Gateway.execute
  cases args.mapM gateway.bytes with
  | none => rfl
  | some texts =>
    have hclock (studentID studentUpdateJSON : String) :
        endorse ⟨gateway.stub, gateway.client, now⟩ ledger
            (.command (.updateStudent studentID studentUpdateJSON)) =
          endorse ⟨gateway.stub, gateway.client, now'⟩ ledger
            (.command (.updateStudent studentID studentUpdateJSON)) :=
      endorse_eq_of_timeless <|
        Program.uses_bind (timeless_updateStudent studentID studentUpdateJSON) fun _ ↦ trivial
    rcases texts with _ | ⟨studentID, _ | ⟨studentUpdateJSON, _ | ⟨_, _⟩⟩⟩
    · rfl
    · rfl
    · simp only [commandOf, hclock]
    · rfl

/-- What does not throw reports nothing. -/
theorem execute_eq_ok_iff (gateway : Gateway) (now : Time) (ledger : Ledger)
    (name : TransactionName) (args : List Argument) :
    gateway.execute now ledger name args = .ok "" ↔
      ¬ Throws (gateway.execute now ledger name args) := by
  constructor
  · rintro hok ⟨err, herr⟩
    rw [hok] at herr
    cases herr
  · intro hthrows
    unfold Throws at hthrows
    unfold Gateway.execute at hthrows ⊢
    split at hthrows
    · exact absurd ⟨_, rfl⟩ hthrows
    split at hthrows
    · exact absurd ⟨_, rfl⟩ hthrows
    split at hthrows
    · rfl
    · exact absurd ⟨_, rfl⟩ hthrows

/-- Without its school a request is creatable just the same. -/
theorem creatable_withoutSchool_iff {client : ClientIdentity} {ledger : Ledger} {body : PostBody} :
    Creatable client ledger { body with school := none } ↔ Creatable client ledger body :=
  ⟨fun ⟨hmanager, hid, hname, hmajor⟩ ↦ ⟨hmanager, hid, hname, hmajor⟩,
    fun ⟨hmanager, hid, hname, hmajor⟩ ↦ ⟨hmanager, hid, hname, hmajor⟩⟩

/-- The handler creates students for schools only: from the bureau the dry run demands the school
that it does not send. -/
theorem result_studentPost_iff (gateway : Gateway) (evaluated endorsed : Time) (ledger : Ledger)
    (body : PostBody) :
    (studentPost body).result (gateway.answer evaluated endorsed ledger) = .ok .succeed ↔
      gateway.client.mspID ≠ educationBureauMSP ∧ Creatable gateway.client ledger body ∧
        (fieldText body.school).isSome := by
  refine result_checkThenSubmit_iff.trans ?_
  simp only [Gateway.answer]
  rw [execute_eq_ok_iff, execute_eq_ok_iff, evaluatedStudent_eq, throws_createStudent_iff,
    throws_createStudent_iff, not_not, not_not, creatable_withoutSchool_iff]
  unfold SchoolAccepted
  by_cases hmsp : gateway.client.mspID = educationBureauMSP
  · simp [hmsp, fieldText]
  · simp [hmsp, fieldText, Option.isSome_iff_exists]

/-- The dry run of the PATCH handler always agrees with the submission, and that of the POST handler
exactly when the request would fail anyway or its school does not decide. -/
theorem dryRunAgrees_iff (gateway : Gateway) (evaluated endorsed : Time) (ledger : Ledger) :
    (∀ body : PatchBody,
      DryRunAgrees (gateway.answer evaluated endorsed ledger) (studentPatch body)) ∧
    ∀ body : PostBody,
      DryRunAgrees (gateway.answer evaluated endorsed ledger) (studentPost body) ↔
        (Creatable gateway.client ledger body → SchoolIndifferent gateway.client body) := by
  constructor
  · intro body
    refine dryRunAgrees_checkThenSubmit.mpr ?_
    simp only [Gateway.answer]
    rw [execute_updateStudent_clock gateway evaluated endorsed]
  · intro body
    refine dryRunAgrees_checkThenSubmit.trans ?_
    simp only [Gateway.answer]
    rw [evaluatedStudent_eq, throws_createStudent_iff, throws_createStudent_iff,
      creatable_withoutSchool_iff, schoolIndifferent_iff, not_iff_not]
    constructor
    · exact fun h hbody ↦ ⟨fun hschool ↦ (h.mp ⟨hbody, hschool⟩).2,
        fun hschool ↦ (h.mpr ⟨hbody, hschool⟩).2⟩
    · exact fun h ↦ ⟨fun ⟨hbody, hschool⟩ ↦ ⟨hbody, (h hbody).mp hschool⟩,
        fun ⟨hbody, hschool⟩ ↦ ⟨hbody, (h hbody).mpr hschool⟩⟩

/-! ### A request of the bureau -/

/-- An officer of the bureau behind a gateway that sends strings as they are. -/
def bureauGateway : Gateway where
  stub := fabricStub
  client := manager educationBureauMSP "bureau.manager"
  encode
    | some (.string s) => some s.text
    | _ => none

/-- The bureau enrols a student at the first school. -/
def enrolmentBody : PostBody where
  id := some (.string (units "s1"))
  name := some (.string (units "Ada"))
  school := some (.string (units "School1MSP"))
  major := some (.string (units "Mathematics"))

/-- The dry run refuses a request that the contract accepts on the empty ledger. -/
theorem not_dryRunAgrees_enrolment : Reachable fabricStub [] ∧
    Throws (bureauGateway.execute noon [] .createStudent
      [stringified (evaluatedStudent enrolmentBody)]) ∧
    ¬ Throws (bureauGateway.execute noon [] .createStudent
      [stringified (submittedStudent enrolmentBody)]) ∧
    ¬ DryRunAgrees (bureauGateway.answer noon noon []) (studentPost enrolmentBody) := by
  have hpre : Throws (bureauGateway.execute noon [] .createStudent
      [stringified (evaluatedStudent enrolmentBody)]) := by
    rw [evaluatedStudent_eq, throws_createStudent_iff]
    rintro ⟨-, school, hschool, hne⟩
    exact hne rfl (Option.some.inj hschool).symm
  have htext (text : String) (h : (units text).text = text) :
      fieldText (some (.string (units text))) = some text := congrArg some h
  have hcall : ¬ Throws (bureauGateway.execute noon [] .createStudent
      [stringified (submittedStudent enrolmentBody)]) := by
    rw [throws_createStudent_iff, not_not]
    exact ⟨⟨by decide +kernel, ⟨"s1", htext _ (by decide +kernel), by decide, rfl⟩,
        ⟨"Ada", htext _ (by decide +kernel), by decide⟩,
        "Mathematics", htext _ (by decide +kernel)⟩,
      "School1MSP", htext _ (by decide +kernel), fun _ ↦ by decide⟩
  exact ⟨⟨[], reaches_nil⟩, hpre, hcall,
    fun hagrees ↦ hcall ((dryRunAgrees_checkThenSubmit.mp hagrees).mp hpre)⟩

end StudentStatus.Web
