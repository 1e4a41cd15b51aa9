import StudentStatus.Chaincode.StudentListing
import StudentStatus.Web.Portal

/-!
# The page of the students

`students.ts` answers with one page of `QueryAllStudents`, and `students.vue` shows the pages one at
a time: it asks for the page at its bookmark, and its button sets the bookmark to the one of the
page that it shows. A new bookmark, and every success of one of its dialogs, sends a request that
takes the place of the one before; an answer that fails leaves no page, so that the button leads
back to the first.

The page belongs to a browser that has the portal open. `Browses` holds of what the page can have
become while the portal went through its past: a request of the page is a program of two calls, and
anything may happen between the two, before the answer comes and between two clicks.
-/

set_option autoImplicit false
set_option relaxedAutoImplicit false

namespace StudentStatus.Web

open Interaction Optimistic Json Chaincode

/-! ### The handler -/

/-- The query of a GET request, `none` where it lacks a parameter. -/
structure StudentsQuery where
  size : Option String
  bookmark : Option String

/-- The calls of the handler: those of the portal, and the evaluation of `QueryAllStudents`. -/
inductive StudentsCall : Type
  | portal (call : PortalCall)
  | queryAllStudents (connection : Connection) (pageSize bookmark : String)

/-- What the handler throws: the error of connecting, or that of the evaluation, where the page size
is no integer, the contract returns an error or no peer answers. -/
inductive StudentsError : Type
  | portal (err : PortalError)
  | pageSize
  | contract (abort : Abort)
  | unreachable

/-- What a call returns. The bytes of an evaluation are decoded, `none` where there are none. -/
@[reducible] def StudentsReply : StudentsCall → Type
  | .portal call => PortalReply call
  | .queryAllStudents _ _ _ => Except StudentsError (Option PaginationQueryResult)

abbrev StudentsProgram := Program StudentsCall StudentsReply StudentsError

/-- Evaluate `QueryAllStudents` with the query on a connection. -/
def evaluateStudents (query : StudentsQuery) (connection : Connection) :
    StudentsProgram (Option PaginationQueryResult) := do
  let students : Except StudentsError (Option PaginationQueryResult) ← Program.ask
    (StudentsCall.queryAllStudents connection (query.size.getD "20") (query.bookmark.getD ""))
  match students with
  | .error err => Program.raise err
  | .ok students => return students

theorem evaluateStudents_eq_call (query : StudentsQuery) (connection : Connection) :
    evaluateStudents query connection = .call (.queryAllStudents connection
      (query.size.getD "20") (query.bookmark.getD "")) Program.done := by
  refine congrArg (Program.call (StudentsCall.queryAllStudents connection _ _))
    (funext fun reply ↦ ?_)
  cases reply <;> rfl

/-- The GET handler, which returns an empty list where there are no bytes. -/
def studentsGet (query : StudentsQuery) : StudentsProgram (Option PaginationQueryResult) := do
  let connection ← getGatewayByUser.interpret (fun call ↦ Program.ask (.portal call)) .portal
  evaluateStudents query connection

/-- The handler once the user of the session has been looked up. -/
def studentsFor (query : StudentsQuery) :
    Option AppMetadata → StudentsProgram (Option PaginationQueryResult)
  | none => Program.raise (.portal .notSignedIn)
  | some appMetadata =>
    match peers.find? fun peer ↦ peer.msp = appMetadata.msp with
    | none => Program.raise (.portal .noPeer)
    | some peer =>
      evaluateStudents query (getGateway peer appMetadata.certificate appMetadata.key)

theorem studentsGet_eq_call (query : StudentsQuery) : studentsGet query =
    .call (.portal .serverSupabaseUser) (studentsFor query) := by
  refine congrArg (Program.call (StudentsCall.portal .serverSupabaseUser)) (funext fun user ↦ ?_)
  cases user with
  | none => rfl
  | some appMetadata =>
    unfold studentsFor
    dsimp only [Program.bind]
    cases peers.find? fun peer ↦ peer.msp = appMetadata.msp <;> rfl

/-- What a peer evaluates for a client on a ledger. -/
def evaluatedPage (ctx : Context) (ledger : Ledger) (size : Int64) (bookmark : String) :
    Except StudentsError (Option PaginationQueryResult) :=
  match (queryAllStudents size bookmark).result (ctx.answer ledger) with
  | .ok data => .ok (some data)
  | .error abort => .error (.contract abort)

theorem evaluatedPage_eq_iff {ctx : Context} {ledger : Ledger} {size : Int64} {bookmark : String}
    {data : PaginationQueryResult} : evaluatedPage ctx ledger size bookmark = .ok (some data) ↔
      (queryAllStudents size bookmark).result (ctx.answer ledger) = .ok data := by
  rw [evaluatedPage]
  cases (queryAllStudents size bookmark).result (ctx.answer ledger) <;> simp

/-- The answers to a call for a session. The contract's library converts the page size. -/
inductive StudentsAnswers (deployment : Deployment) (convert : String → Option Int64)
    (session : Option UserId) (portal : Portal) : (call : StudentsCall) → StudentsReply call → Prop
  | user : StudentsAnswers deployment convert session portal (.portal .serverSupabaseUser)
      ((portal.world.accounts.find? fun account ↦ some account.id = session).map
        Account.appMetadata)
  | noUser : StudentsAnswers deployment convert session portal (.portal .serverSupabaseUser) none
  | evaluated {connection : Connection} {pageSize bookmark : String} {size : Int64}
      (snapshot : Ledger) (hsnapshot : snapshot <:+ portal.network.chain) (now : Time)
      (hsize : convert pageSize = some size) :
      StudentsAnswers deployment convert session portal
        (.queryAllStudents connection pageSize bookmark)
        (evaluatedPage ⟨deployment.stub, (deployment.gateway connection).client, now⟩ snapshot size
          bookmark)
  | notInteger {connection : Connection} {pageSize bookmark : String}
      (hsize : convert pageSize = none) :
      StudentsAnswers deployment convert session portal
        (.queryAllStudents connection pageSize bookmark) (.error .pageSize)
  | unreachable {connection : Connection} {pageSize bookmark : String} :
      StudentsAnswers deployment convert session portal
        (.queryAllStudents connection pageSize bookmark) (.error .unreachable)

/-! ### The page -/

/-- An answer with the bookmark that was asked for. -/
structure Table where
  bookmark : String
  data : PaginationQueryResult

/-- The later table was asked for with the bookmark of the earlier one. -/
def Table.Follows (earlier later : Table) : Prop :=
  earlier.data.bookmark ≠ "" ∧ later.bookmark = earlier.data.bookmark

/-- The students of the tables. -/
def studentsOf (tables : List Table) : List Student := tables.flatMap fun table ↦ table.data.items

theorem studentsOf_concat (tables : List Table) (table : Table) :
    studentsOf (tables ++ [table]) = studentsOf tables ++ table.data.items := by
  rw [studentsOf, List.flatMap_append, List.flatMap_singleton]
  rfl

/-- The state of `students.vue`: the bookmark of its query, what it shows and the request that it
waits for. `left` keeps the tables that were left with the button since the first page. -/
structure StudentsPage where
  bookmark : String
  table : Option Table
  request : Option (StudentsProgram (Option PaginationQueryResult))
  left : List Table

namespace StudentsPage

/-- The query of the page, whose size is 20. -/
def query (page : StudentsPage) : StudentsQuery := ⟨some "20", some page.bookmark⟩

/-- Send a request; one that is under way no longer counts. -/
def fetch (page : StudentsPage) : StudentsPage :=
  { page with request := some (studentsGet page.query) }

/-- The page when it is opened. -/
def opened : StudentsPage := fetch ⟨"", none, none, []⟩

/-- The bookmark of what is shown. -/
def shownBookmark (page : StudentsPage) : String :=
  (page.table.map fun table ↦ table.data.bookmark).getD ""

/-- The button: a bookmark that changes sends a request. -/
def nextPage (page : StudentsPage) : StudentsPage :=
  if page.shownBookmark = page.bookmark then page
  else fetch { page with
    bookmark := page.shownBookmark
    left := if page.shownBookmark = "" then [] else page.left ++ page.table.toList }

/-- The outcome of the request arrives. -/
def receive (page : StudentsPage) :
    Except StudentsError (Option PaginationQueryResult) → StudentsPage
  | .ok data => { page with table := data.map (Table.mk page.bookmark), request := none }
  | .error _ => { page with table := none, request := none }

/-- The tables of the pass: those that were left, and what is shown unless it is still the one that
was left last. -/
def pass (page : StudentsPage) : List Table :=
  page.left ++ (page.table.filter fun table ↦ table.bookmark = page.bookmark).toList

end StudentsPage

/-- What a page of the session can have become while the portal went through its past. -/
inductive Browses (deployment : Deployment) (convert : String → Option Int64)
    (session : Option UserId) : List (Moment ℕ Portal) → StudentsPage → Prop
  | opened {past : List (Moment ℕ Portal)} :
      Browses deployment convert session past .opened
  | meanwhile {past : List (Moment ℕ Portal)} {page : StudentsPage}
      (h : Browses deployment convert session past page) (moment : Moment ℕ Portal) :
      Browses deployment convert session (moment :: past) page
  | call {moment : Moment ℕ Portal} {earlier : List (Moment ℕ Portal)} {page : StudentsPage}
      {call : StudentsCall}
      {next : StudentsReply call → StudentsProgram (Option PaginationQueryResult)}
      {reply : StudentsReply call}
      (h : Browses deployment convert session (moment :: earlier) page)
      (hrequest : page.request = some (.call call next))
      (hanswer : StudentsAnswers deployment convert session moment.state call reply) :
      Browses deployment convert session (moment :: earlier)
        { page with request := some (next reply) }
  | lost {past : List (Moment ℕ Portal)} {page : StudentsPage}
      (h : Browses deployment convert session past page) (hrequest : page.request ≠ none) :
      Browses deployment convert session past
        { page with request := some (.done (.error .unreachable)) }
  | receive {past : List (Moment ℕ Portal)} {page : StudentsPage}
      {outcome : Except StudentsError (Option PaginationQueryResult)}
      (h : Browses deployment convert session past page)
      (hrequest : page.request = some (.done outcome)) :
      Browses deployment convert session past (page.receive outcome)
  | next {past : List (Moment ℕ Portal)} {page : StudentsPage}
      (h : Browses deployment convert session past page) :
      Browses deployment convert session past page.nextPage
  | refresh {past : List (Moment ℕ Portal)} {page : StudentsPage}
      (h : Browses deployment convert session past page) :
      Browses deployment convert session past page.fetch

end StudentStatus.Web
