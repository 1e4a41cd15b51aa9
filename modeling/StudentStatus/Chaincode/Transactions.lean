import StudentStatus.Chaincode.Grades

/-!
# Transactions and reachable ledgers

The contract's operations as data. A `Command` is one of the three writers, a `Query` one of the
other operations, and a `Transaction` is a command with its client and the clock reading of its
execution. `execute` is one execution on a ledger; `Effect` says what a successful one can do, and
`execute_eq_some_iff` that it does nothing else: one read and one write. Every invariant of the
ledger is proved by cases on `Effect`.

`Reaches stub txs ledger` says that the transactions, latest first, all succeed one after the other
from the empty ledger and build the ledger.
-/

set_option autoImplicit false
set_option relaxedAutoImplicit false

namespace StudentStatus.Chaincode

open Interaction Optimistic Json

/-! ### Operations -/

/-- The operations that write. -/
inductive Command : Type
  | createStudent (studentJSON : String)
  | updateStudent (studentID studentUpdateJSON : String)
  | createStudentGrade (studentID gradeJSON : String)

def Command.run : Command → Contract Unit
  | .createStudent studentJSON => Chaincode.createStudent studentJSON
  | .updateStudent studentID studentUpdateJSON =>
    Chaincode.updateStudent studentID studentUpdateJSON
  | .createStudentGrade studentID gradeJSON => Chaincode.createStudentGrade studentID gradeJSON

/-- The operations that only read. -/
inductive Query : Type
  | initLedger
  | studentExists (studentID : String)
  | queryStudent (studentID : String)
  | queryAllStudents (pageSize : Int64) (bookmark : String)
  | queryStudentGrades (studentId : String)

/-- What an operation returns. -/
inductive Response : Type
  | done
  | found (found : Bool)
  | student (student : Student)
  | page (page : PaginationQueryResult)
  | grades (grades : List StudentGrade)
  deriving DecidableEq

def Query.run : Query → Contract Response
  | .initLedger => pure .done
  | .studentExists studentID => do return .found (← Chaincode.studentExists studentID)
  | .queryStudent studentID => do return .student (← Chaincode.queryStudent studentID)
  | .queryAllStudents pageSize bookmark => do
    return .page (← Chaincode.queryAllStudents pageSize bookmark)
  | .queryStudentGrades studentId => do return .grades (← Chaincode.queryStudentGrades studentId)

/-- An operation of the contract with its arguments. -/
inductive Invocation : Type
  | command (command : Command)
  | query (query : Query)

def Invocation.run : Invocation → Contract Response
  | .command writer => do
    writer.run
    return .done
  | .query reader => reader.run

/-! ### Queries only read -/

/-- The call neither writes nor reads the clock. -/
def Call.IsReading : Call → Prop
  | .putState _ _ | .now => False
  | _ => True

theorem Call.IsIdentity.isReading {call : Call} (h : call.IsIdentity) : call.IsReading := by
  cases call <;> trivial

theorem reading_getStudent (studentId : String) : (getStudent studentId).Uses Call.IsReading := by
  refine (uses_getStudent studentId).mono ?_
  rintro call rfl
  trivial

theorem reading_queryStudent (studentID : String) :
    (queryStudent studentID).Uses Call.IsReading := by
  refine (uses_queryStudent studentID).mono ?_
  rintro call (hidentity | rfl)
  · exact hidentity.isReading
  · trivial

theorem reading_queryAllStudents (pageSize : Int64) (bookmark : String) :
    (queryAllStudents pageSize bookmark).Uses Call.IsReading := by
  have hcheck := (uses_assertManager []).mono fun _ ↦ Call.IsIdentity.isReading
  refine Program.uses_bind hcheck fun _ ↦ ?_
  refine Program.uses_bind ((Program.uses_ask _).mpr trivial) fun page ↦ ?_
  refine Program.uses_bind (uses_orFail _ _) fun page ↦ ?_
  refine Program.uses_bind (uses_getMSPID.mono fun _ ↦ Call.IsIdentity.isReading) fun msp ↦ ?_
  exact Program.uses_bind (uses_collectStudents _ _) fun students ↦ trivial

theorem reading_queryStudentGrades (studentId : String) :
    (queryStudentGrades studentId).Uses Call.IsReading := by
  refine Program.uses_bind (reading_queryStudent studentId) fun student ↦ ?_
  refine Program.uses_bind ((Program.uses_ask _).mpr trivial) fun iterator ↦ ?_
  refine Program.uses_bind (uses_orFail _ _) fun iterator ↦ ?_
  refine (uses_collectGrades _).mono ?_
  rintro call ⟨key, rfl⟩
  trivial

theorem reading_query (query : Query) : query.run.Uses Call.IsReading := by
  cases query with
  | initLedger => trivial
  | studentExists studentID =>
    have hreading : (studentExists studentID).Uses Call.IsReading := ⟨trivial, fun _ ↦ trivial⟩
    exact Program.uses_bind hreading fun _ ↦ trivial
  | queryStudent studentID =>
    exact Program.uses_bind (reading_queryStudent studentID) fun _ ↦ trivial
  | queryAllStudents pageSize bookmark =>
    exact Program.uses_bind (reading_queryAllStudents pageSize bookmark) fun _ ↦ trivial
  | queryStudentGrades studentId =>
    exact Program.uses_bind (reading_queryStudentGrades studentId) fun _ ↦ trivial

/-! ### Executing an operation -/

/-- What an endorsing peer returns: the response and the write set. -/
structure Endorsement where
  response : Except Abort Response
  writes : List (String × String)

/-- Execute an operation on a ledger. -/
def endorse (ctx : Context) (ledger : Ledger) (invocation : Invocation) : Endorsement :=
  ⟨invocation.run.result (ctx.answer ledger), invocation.run.observed (ctx.answer ledger) writeOf⟩

/-- A query writes nothing. -/
theorem writes_endorse_query (ctx : Context) (ledger : Ledger) (query : Query) :
    (endorse ctx ledger (.query query)).writes = [] :=
  (reading_query query).observed_eq_nil fun event hevent ↦ by
    obtain ⟨request, reply⟩ := event
    cases request <;> first | rfl | exact hevent.elim

/-- A command with the client that submits it and the clock reading of its execution. -/
structure Transaction where
  client : ClientIdentity
  now : Time
  command : Command

/-- The environment in which a transaction is executed. -/
def Transaction.context (tx : Transaction) (stub : Stub) : Context := ⟨stub, tx.client, tx.now⟩

/-- Execute a transaction on a ledger; `none` when it returns an error. -/
def execute (stub : Stub) (tx : Transaction) (ledger : Ledger) :
    Option (Footprint String String) :=
  match tx.command.run.result ((tx.context stub).answer ledger) with
  | .ok _ => some
    ⟨tx.command.run.observed ((tx.context stub).answer ledger) readOf,
      tx.command.run.observed ((tx.context stub).answer ledger) writeOf⟩
  | .error _ => none

/-- What a command that succeeds reads, and the text that it writes under a key. -/
inductive Effect (ctx : Context) (ledger : Ledger) :
    Command → (read key text : String) → Prop
  | create {studentJSON : String} {student : Student}
      (accepts : CreateAccepts ctx ledger studentJSON student) :
      Effect ctx ledger (.createStudent studentJSON) student.id student.id
        (marshal (createdStudent ctx student))
  | update {studentID studentUpdateJSON : String} {existOne student : Student}
      (accepts : UpdateAccepts ctx ledger studentID studentUpdateJSON existOne student) :
      Effect ctx ledger (.updateStudent studentID studentUpdateJSON) studentID studentID
        (marshal (updatedStudent existOne student))
  | grade {studentID gradeJSON : String} {student : Student} {grade : StudentGrade} {key : String}
      (accepts : GradeAccepts ctx ledger studentID gradeJSON student grade key) :
      Effect ctx ledger (.createStudentGrade studentID gradeJSON) studentID key
        (marshal (createdGrade ctx grade key))

/-- A command either has an effect, and then it succeeds with just this effect, or it returns an
error and writes nothing. -/
theorem Command.run_cases (ctx : Context) (ledger : Ledger) (command : Command) :
    (∃ read key text, Effect ctx ledger command read key text ∧
      command.run.result (ctx.answer ledger) = .ok () ∧
      command.run.observed (ctx.answer ledger) readOf = [read] ∧
      command.run.observed (ctx.answer ledger) writeOf = [(key, text)]) ∨
    (∀ read key text, ¬ Effect ctx ledger command read key text) ∧
      (∃ err, command.run.result (ctx.answer ledger) = .error err) ∧
      command.run.observed (ctx.answer ledger) writeOf = [] := by
  cases command with
  | createStudent studentJSON =>
    by_cases h : ∃ student, CreateAccepts ctx ledger studentJSON student
    · obtain ⟨student, accepts⟩ := h
      exact Or.inl ⟨_, _, _, .create accepts, createStudent_of_accepts accepts⟩
    · rw [not_exists] at h
      refine Or.inr ⟨?_, createStudent_rejects h⟩
      rintro _ _ _ ⟨accepts⟩
      exact h _ accepts
  | updateStudent studentID studentUpdateJSON =>
    by_cases h : ∃ existOne student,
        UpdateAccepts ctx ledger studentID studentUpdateJSON existOne student
    · obtain ⟨existOne, student, accepts⟩ := h
      exact Or.inl ⟨_, _, _, .update accepts, updateStudent_of_accepts accepts⟩
    · simp only [not_exists] at h
      refine Or.inr ⟨?_, updateStudent_rejects h⟩
      rintro _ _ _ ⟨⟩
      exact h _ _ ‹_›
  | createStudentGrade studentID gradeJSON =>
    by_cases h : ∃ student grade key,
        GradeAccepts ctx ledger studentID gradeJSON student grade key
    · obtain ⟨student, grade, key, accepts⟩ := h
      exact Or.inl ⟨_, _, _, .grade accepts, createStudentGrade_of_accepts accepts⟩
    · simp only [not_exists] at h
      refine Or.inr ⟨?_, createStudentGrade_rejects h⟩
      rintro _ _ _ ⟨⟩
      exact h _ _ _ ‹_›

/-- The effect of a creation. -/
theorem Effect.of_createStudent {ctx : Context} {ledger : Ledger} {studentJSON : String}
    {read key text : String} (h : Effect ctx ledger (.createStudent studentJSON) read key text) :
    ∃ student, CreateAccepts ctx ledger studentJSON student ∧ read = student.id ∧
      key = student.id ∧ text = marshal (createdStudent ctx student) := by
  cases h with
  | create accepts => exact ⟨_, accepts, rfl, rfl, rfl⟩

/-- The effect of a grading. -/
theorem Effect.of_createStudentGrade {ctx : Context} {ledger : Ledger}
    {studentID gradeJSON : String} {read key text : String}
    (h : Effect ctx ledger (.createStudentGrade studentID gradeJSON) read key text) :
    ∃ student grade, GradeAccepts ctx ledger studentID gradeJSON student grade key ∧
      read = studentID ∧ text = marshal (createdGrade ctx grade key) := by
  cases h with
  | grade accepts => exact ⟨_, _, accepts, rfl, rfl⟩

/-- Only managers have effects. -/
theorem Effect.manager {ctx : Context} {ledger : Ledger} {command : Command}
    {read key text : String} (h : Effect ctx ledger command read key text) :
    IsManager ctx.client := by
  cases h with
  | create accepts => exact accepts.manager
  | update accepts => exact accepts.manager
  | grade accepts => exact accepts.manager

/-- A command does not have two effects on one ledger. -/
theorem Effect.unique {ctx : Context} {ledger : Ledger} {command : Command}
    {read key text read' key' text' : String} (h : Effect ctx ledger command read key text)
    (h' : Effect ctx ledger command read' key' text') :
    read = read' ∧ key = key' ∧ text = text' := by
  cases h with
  | create accepts =>
    cases h' with
    | create accepts' =>
      cases Except.ok.inj (accepts.decoded.symm.trans accepts'.decoded)
      exact ⟨rfl, rfl, rfl⟩
  | update accepts =>
    cases h' with
    | update accepts' =>
      cases Except.ok.inj (accepts.decoded.symm.trans accepts'.decoded)
      cases Except.ok.inj (accepts.stored.symm.trans accepts'.stored)
      exact ⟨rfl, rfl, rfl⟩
  | grade accepts =>
    cases h' with
    | grade accepts' =>
      cases Except.ok.inj (accepts.decoded.symm.trans accepts'.decoded)
      cases Except.ok.inj (accepts.stored.symm.trans accepts'.stored)
      cases Except.ok.inj (accepts.composed.symm.trans accepts'.composed)
      exact ⟨rfl, rfl, rfl⟩

/-- A transaction succeeds exactly when its command has an effect, and then it reads one key and
writes one text. -/
theorem execute_eq_some_iff {stub : Stub} {tx : Transaction} {ledger : Ledger}
    {footprint : Footprint String String} :
    execute stub tx ledger = some footprint ↔ ∃ read key text,
      Effect (tx.context stub) ledger tx.command read key text ∧
        footprint = ⟨[read], [(key, text)]⟩ := by
  rcases Command.run_cases (tx.context stub) ledger tx.command with
    ⟨read, key, text, heffect, hresult, hreads, hwrites⟩ | ⟨hno, ⟨err, hresult⟩, -⟩
  · simp only [execute, hresult, hreads, hwrites, Option.some.injEq]
    constructor
    · rintro rfl
      exact ⟨read, key, text, heffect, rfl⟩
    · rintro ⟨read', key', text', heffect', rfl⟩
      obtain ⟨rfl, rfl, rfl⟩ := heffect.unique heffect'
      rfl
  · simp only [execute, hresult, reduceCtorEq, false_iff]
    rintro ⟨read, key, text, heffect, -⟩
    exact hno _ _ _ heffect

/-- What an endorsing peer returns for a command. -/
theorem endorse_command_cases (ctx : Context) (ledger : Ledger) (command : Command) :
    (∃ read key text, Effect ctx ledger command read key text ∧
      endorse ctx ledger (.command command) = ⟨.ok .done, [(key, text)]⟩) ∨
    (∀ read key text, ¬ Effect ctx ledger command read key text) ∧
      ∃ err, endorse ctx ledger (.command command) = ⟨.error err, []⟩ := by
  rcases command.run_cases ctx ledger with
    ⟨read, key, text, heffect, hresult, -, hwrites⟩ | ⟨hno, ⟨err, hresult⟩, hwrites⟩
  · refine Or.inl ⟨read, key, text, heffect, ?_⟩
    simp [endorse, Invocation.run, hresult, hwrites]
  · refine Or.inr ⟨hno, err, ?_⟩
    simp [endorse, Invocation.run, hresult, hwrites]

/-- What an endorsing peer returns for a command that has an effect. -/
theorem Effect.endorse_eq {ctx : Context} {ledger : Ledger} {command : Command}
    {read key text : String} (h : Effect ctx ledger command read key text) :
    endorse ctx ledger (.command command) = ⟨.ok .done, [(key, text)]⟩ := by
  rcases endorse_command_cases ctx ledger command with
    ⟨read', key', text', heffect, hendorse⟩ | ⟨hno, -⟩
  · obtain ⟨-, rfl, rfl⟩ := h.unique heffect
    exact hendorse
  · exact absurd h (hno _ _ _)

/-! ### Runs -/

/-- The transactions, latest first, succeed one after the other from the empty ledger and build the
ledger. -/
def Reaches (stub : Stub) (txs : List Transaction) (ledger : Ledger) : Prop :=
  replay (execute stub) txs = some ledger

/-- A ledger that some run of successful transactions builds. -/
def Reachable (stub : Stub) (ledger : Ledger) : Prop := ∃ txs, Reaches stub txs ledger

variable {stub : Stub}

theorem reaches_nil : Reaches stub [] [] := rfl

/-- A ledger that a reachable one has gone through. -/
theorem Reachable.of_suffix {older ledger : Ledger} (h : Reachable stub ledger)
    (hsuffix : older <:+ ledger) : Reachable stub older := by
  obtain ⟨txs, hreaches⟩ := h
  obtain ⟨earlier, -, hearlier⟩ := exists_replay_of_suffix hsuffix hreaches
  exact ⟨earlier, hearlier⟩

/-- The last transaction of a run put one text on the ledger of the run before it. -/
theorem reaches_cons_iff {tx : Transaction} {earlier : List Transaction} {ledger : Ledger} :
    Reaches stub (tx :: earlier) ledger ↔ ∃ older read key text,
      Reaches stub earlier older ∧ Effect (tx.context stub) older tx.command read key text ∧
        ledger = [(key, text)] :: older := by
  unfold Reaches
  rw [replay_cons_eq_some]
  constructor
  · rintro ⟨older, footprint, holder, hexec, rfl⟩
    obtain ⟨read, key, text, heffect, rfl⟩ := execute_eq_some_iff.mp hexec
    exact ⟨older, read, key, text, holder, heffect, rfl⟩
  · rintro ⟨older, read, key, text, holder, heffect, rfl⟩
    exact ⟨older, ⟨[read], [(key, text)]⟩, holder,
      execute_eq_some_iff.mpr ⟨read, key, text, heffect, rfl⟩, rfl⟩

/-- The invariant rule for runs: what holds of the empty run and is kept by every effect holds of
every run. -/
theorem Reaches.induction {motive : List Transaction → Ledger → Prop} (hnil : motive [] [])
    (hcons : ∀ (tx : Transaction) earlier older read key text, Reaches stub earlier older →
      motive earlier older → Effect (tx.context stub) older tx.command read key text →
      motive (tx :: earlier) ([(key, text)] :: older))
    {txs : List Transaction} {ledger : Ledger} (h : Reaches stub txs ledger) :
    motive txs ledger := by
  refine replay_induction hnil (fun tx earlier older footprint hreplay hinv hexec ↦ ?_) h
  obtain ⟨read, key, text, heffect, rfl⟩ := execute_eq_some_iff.mp hexec
  exact hcons tx earlier older read key text hreplay hinv heffect

/-- A run goes on with any effect. -/
theorem Reaches.cons {tx : Transaction} {earlier : List Transaction} {older : Ledger}
    {read key text : String} (h : Reaches stub earlier older)
    (heffect : Effect (tx.context stub) older tx.command read key text) :
    Reaches stub (tx :: earlier) ([(key, text)] :: older) :=
  reaches_cons_iff.mpr ⟨older, read, key, text, h, heffect, rfl⟩

/-- A property holds at every moment of a run. -/
def Always (stub : Stub) (txs : List Transaction)
    (property : List Transaction → Ledger → Prop) : Prop :=
  ∀ earlier older, earlier <:+ txs → Reaches stub earlier older → property earlier older

/-- Every transaction of a run meets a condition on what was there before it. -/
def EveryStep (stub : Stub) (txs : List Transaction)
    (condition : Transaction → List Transaction → Ledger → Prop) : Prop :=
  ∀ tx earlier older, tx :: earlier <:+ txs → Reaches stub earlier older →
    condition tx earlier older

/-- A property that one step keeps exactly under a condition holds at every moment of a run exactly
when every step meets the condition. -/
theorem Reaches.always_iff_everyStep {property : List Transaction → Ledger → Prop}
    {condition : Transaction → List Transaction → Ledger → Prop} {txs : List Transaction}
    {ledger : Ledger} (h : Reaches stub txs ledger) (hnil : property [] [])
    (hstep : ∀ (tx : Transaction) earlier older read key text, tx :: earlier <:+ txs →
      Reaches stub earlier older → property earlier older →
      Effect (tx.context stub) older tx.command read key text →
      (property (tx :: earlier) ([(key, text)] :: older) ↔ condition tx earlier older)) :
    Always stub txs property ↔ EveryStep stub txs condition := by
  constructor
  · intro halways tx earlier older hsuffix holder
    obtain ⟨reached, -, hreached⟩ := replay_of_suffix hsuffix h
    obtain ⟨older', read, key, text, holder', heffect, rfl⟩ := reaches_cons_iff.mp hreached
    cases Option.some.inj (holder.symm.trans holder')
    have hbefore := halways _ _ ((List.suffix_cons _ _).trans hsuffix) holder
    exact (hstep tx _ _ _ _ _ hsuffix holder hbefore heffect).mp (halways _ _ hsuffix hreached)
  · intro hsteps earlier older hsuffix hreached
    refine hreached.induction (motive := fun txs' ledger' ↦ txs' <:+ txs → property txs' ledger')
      (fun _ ↦ hnil) ?_ hsuffix
    intro tx before oldest read key text hbefore ih heffect hsuffix
    have hprevious := ih ((List.suffix_cons _ _).trans hsuffix)
    exact (hstep tx _ _ _ _ _ hsuffix hbefore hprevious heffect).mpr
      (hsteps tx _ _ hsuffix hbefore)

/-! ### Registration -/

/-- The transaction creates the student with this ID. -/
def Creates (tx : Transaction) (studentID : String) : Prop :=
  ∃ studentJSON, tx.command = .createStudent studentJSON ∧
    ∃ student : Student, unmarshal studentJSON = .ok student ∧ student.id = studentID

/-- Some transaction of the run created the student with this ID. -/
def Registered (txs : List Transaction) (studentID : String) : Prop :=
  ∃ tx ∈ txs, Creates tx studentID

theorem registered_cons {tx : Transaction} {earlier : List Transaction} {studentID : String} :
    Registered (tx :: earlier) studentID ↔ Creates tx studentID ∨ Registered earlier studentID := by
  simp [Registered]

@[simp] theorem not_creates_updateStudent {client : ClientIdentity} {now : Time}
    {studentID studentUpdateJSON created : String} :
    ¬ Creates ⟨client, now, .updateStudent studentID studentUpdateJSON⟩ created := by
  rintro ⟨studentJSON, hcommand, -⟩
  cases hcommand

@[simp] theorem not_creates_createStudentGrade {client : ClientIdentity} {now : Time}
    {studentID gradeJSON created : String} :
    ¬ Creates ⟨client, now, .createStudentGrade studentID gradeJSON⟩ created := by
  rintro ⟨studentJSON, hcommand, -⟩
  cases hcommand

/-- What a transaction that creates an ID does. -/
theorem Creates.accepts {tx : Transaction} {studentID : String} (h : Creates tx studentID)
    {ctx : Context} {ledger : Ledger} {read key text : String}
    (heffect : Effect ctx ledger tx.command read key text) :
    key = studentID ∧ ∃ studentJSON student, tx.command = .createStudent studentJSON ∧
      student.id = studentID ∧ CreateAccepts ctx ledger studentJSON student ∧
      text = marshal (createdStudent ctx student) := by
  obtain ⟨studentJSON, hcommand, student, hdecoded, rfl⟩ := h
  rw [hcommand] at heffect
  cases heffect with
  | create accepts =>
    cases Except.ok.inj (hdecoded.symm.trans accepts.decoded)
    exact ⟨rfl, studentJSON, student, hcommand, rfl, accepts, rfl⟩

/-- A registered ID has a value from then on. -/
theorem Reaches.isSome_of_registered {txs : List Transaction} {ledger : Ledger}
    (h : Reaches stub txs ledger) {studentID : String} (hregistered : Registered txs studentID) :
    (ledger.value studentID).isSome := by
  refine h.induction (motive := fun txs ledger ↦
    Registered txs studentID → (ledger.value studentID).isSome) ?_ ?_ hregistered
  · rintro ⟨tx, hmem, -⟩
    cases hmem
  intro tx earlier older read key text _ ih heffect hregistered
  rcases registered_cons.mp hregistered with hcreates | hearlier
  · rw [Chain.value_cons_singleton, if_pos (hcreates.accepts heffect).1]
    rfl
  · exact Chain.value_isSome_of_suffix (List.suffix_cons _ _) (ih hearlier)

/-! ### Clients and transactions of the channel -/

/-- A manager of an organisation, whose certificate carries the affiliation. -/
def manager (mspID affiliation : String) : ClientIdentity :=
  ⟨"x509::CN=manager::" ++ mspID, mspID, ⟨["client"]⟩, [("hf.Affiliation", affiliation)]⟩

def school1Manager : ClientIdentity := manager "School1MSP" "school1.manager"

def school2Manager : ClientIdentity := manager "School2MSP" "school2.manager"

theorem isManager_school1Manager : IsManager school1Manager := by decide +kernel

theorem isManager_school2Manager : IsManager school2Manager := by decide +kernel

def noon : Time := ⟨2024, 5, 1, 12, 0, 0, 0, 480⟩

/-- A student of the first school. -/
def ada : Student := ⟨"s1", "Ada", 2023, "Mathematics", "School1MSP", false, noon.format⟩

/-- The first school enrols its student. -/
def enrolment : Transaction := ⟨school1Manager, noon, .createStudent (marshal ada)⟩

theorem createAccepts_ada (stub : Stub) :
    CreateAccepts (enrolment.context stub) [] (marshal ada) ada :=
  ⟨isManager_school1Manager, unmarshal_marshal ada, rfl, fun _ ↦ by decide, by decide, by decide⟩

theorem effect_enrolment (stub : Stub) :
    Effect (enrolment.context stub) [] enrolment.command "s1" "s1" (marshal ada) :=
  .create (createAccepts_ada stub)

theorem reaches_enrolment : Reaches fabricStub [enrolment] [[("s1", marshal ada)]] :=
  reaches_nil.cons (effect_enrolment fabricStub)

theorem value_ada : Chain.value [[("s1", marshal ada)]] "s1" = some (marshal ada) := by
  rw [Chain.value_cons_singleton, if_pos rfl]

theorem storedStudent_ada : storedStudent [[("s1", marshal ada)]] "s1" = .ok ada :=
  (storedStudent_eq_ok_iff _).mpr ⟨_, value_ada, unmarshal_marshal ada⟩

theorem unmarshal_emptyObject : unmarshal "\x7b\x7d" = .ok (Struct.zero : Student) := by
  decide +kernel

/-- Any manager may update the student, here without sending a name. -/
theorem updateAccepts_ada {ctx : Context} (hmanager : IsManager ctx.client) :
    UpdateAccepts ctx [[("s1", marshal ada)]] "s1" "\x7b\x7d" ada Struct.zero where
  manager := hmanager
  stored := storedStudent_ada
  decoded := unmarshal_emptyObject
  keyed := by decide

/-- A grade of the student, as the first school files it. -/
def adaGrade : StudentGrade :=
  ⟨compositeKey compositeKeyStudentGrade ["s1", "School1MSP"], noon.format, "freshman", 0, "A"⟩

def grading : Transaction := ⟨school1Manager, noon, .createStudentGrade "s1" (marshal adaGrade)⟩

/-- The first school can file any grade under the key of the student at the school. -/
theorem effect_filed (hstub : stub.Lawful) {grade : StudentGrade}
    (hcreated : createdGrade ⟨stub, school1Manager, noon⟩ grade adaGrade.id = grade) :
    Effect ⟨stub, school1Manager, noon⟩ [[("s1", marshal ada)]]
      (.createStudentGrade "s1" (marshal grade)) "s1" adaGrade.id (marshal grade) := by
  have accepts : GradeAccepts ⟨stub, school1Manager, noon⟩ [[("s1", marshal ada)]] "s1"
      (marshal grade) ada grade adaGrade.id :=
    { manager := isManager_school1Manager
      stored := storedStudent_ada
      visible := Or.inr (Or.inr rfl)
      decoded := unmarshal_marshal grade
      composed := hstub.createCompositeKey_ok _ _ (by decide +kernel)
      keyed := by decide +kernel }
  have heffect := Effect.grade accepts
  rw [hcreated] at heffect
  exact heffect

theorem effect_grading (hstub : stub.Lawful) :
    Effect (grading.context stub) [[("s1", marshal ada)]] grading.command "s1" adaGrade.id
      (marshal adaGrade) :=
  effect_filed hstub rfl

theorem reaches_grading : Reaches fabricStub [grading, enrolment]
    [[(adaGrade.id, marshal adaGrade)], [("s1", marshal ada)]] :=
  reaches_enrolment.cons (effect_grading fabricStub_lawful)

end StudentStatus.Chaincode
