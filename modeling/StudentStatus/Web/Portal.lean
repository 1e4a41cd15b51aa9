import StudentStatus.Chaincode.Concurrency
import StudentStatus.Interaction.Interleaving
import StudentStatus.Web.Accounts
import StudentStatus.Web.StudentHandlers

/-!
# The portal

The server of the portal with all that it talks to: the CAs and Supabase (`World`) and the channel
(`Network`). Requests are served side by side. Each is a program of single calls: signing in, or a
student handler, which connects to the gateway as the user of its session (`getGatewayByUser`) and
whose submission is endorsed and sent first and asked for its status when it has been ordered
(`callGateway`). Between two calls of a request anything may happen that the system allows: calls of
other requests, a change at a CA, transactions of other clients, the ordering of pending ones, and a
restart of the server, which loses its requests and its cache (`portal`).

A call to a CA or to Supabase may fail, before it has had its effect or after it. Every request has
a ticket, which the transaction that it submits carries as its label.
-/

set_option autoImplicit false
set_option relaxedAutoImplicit false

namespace StudentStatus.Web

open Interaction Optimistic Json Chaincode

/-! ### The gateway of a user -/

/-- A peer of `peers.ts`, without the certificate that its TLS connection is checked with. -/
structure Peer where
  name : String
  msp : String
  endpoint : String
  deriving DecidableEq

def peers : List Peer :=
  [⟨"学校 1", "School1MSP", "peer0.school1.edu.cn:7061"⟩,
    ⟨"学校 2", "School2MSP", "peer0.school2.edu.cn:7071"⟩,
    ⟨"教育局", "EducationBureauMSP", "peer0.bureau.edu.cn:7051"⟩]

/-- A gateway as `getGateway` connects it: the peer, the identity and the key of the signer. -/
structure Connection where
  endpoint : String
  mspId : String
  credentials : Certificate
  keystore : ℕ
  deriving DecidableEq

def getGateway (peer : Peer) (credentials : Certificate) (keystore : ℕ) : Connection :=
  ⟨peer.endpoint, peer.msp, credentials, keystore⟩

/-! ### Requests -/

/-- A request, with the user whose session it carries. -/
inductive PortalRequest : Type
  | signIn (request : Request)
  | studentPost (session : Option UserId) (body : PostBody)
  | studentPatch (session : Option UserId) (body : PatchBody)

def PortalRequest.session : PortalRequest → Option UserId
  | .signIn request => request.loggedIn
  | .studentPost session _ => session
  | .studentPatch session _ => session

/-- How a submission begins: the peers refuse it, it is endorsed and sent with the result that they
endorsed, or it may or may not have been sent. -/
inductive SubmitReply : Type
  | refused (err : GatewayError)
  | accepted (result : String)
  | unknown

/-- The calls of the server. -/
inductive PortalCall : Type
  | web (call : SignInCall)
  | serverSupabaseUser
  | evaluate (connection : Connection) (name : TransactionName) (args : List Argument)
  | submit (connection : Connection) (name : TransactionName) (args : List Argument)
  | getStatus

/-- What a call returns: the application metadata of the user, what the peer evaluates, how the
submission begins, and whether the transaction is valid, unless the status cannot be had. -/
@[reducible] def PortalReply : PortalCall → Type
  | .web call => SignInReply call
  | .serverSupabaseUser => Option AppMetadata
  | .evaluate _ _ _ => Except GatewayError String
  | .submit _ _ _ => SubmitReply
  | .getStatus => Option Bool

/-- What a request throws: a sign-in error, `未登录`, the `TypeError` of a peer that is not there, the
error of a call, or that the transaction was invalidated or its fate is not known. -/
inductive PortalError : Type
  | signIn (err : SignInError)
  | notSignedIn
  | noPeer
  | gateway (err : GatewayError)
  | invalidated
  | unknown

inductive PortalResponse : Type
  | signIn (response : SignInResponse)
  | handler (response : HandlerResponse)

abbrev PortalProgram := Program PortalCall PortalReply PortalError

/-- Ask one call of the server. -/
def request (call : PortalCall) : PortalProgram (PortalReply call) := Program.ask call

def getGatewayByUser : PortalProgram Connection := do
  let user : Option AppMetadata ← request .serverSupabaseUser
  match user with
  | none => Program.raise .notSignedIn
  | some appMetadata =>
    match peers.find? fun peer ↦ peer.msp = appMetadata.msp with
    | none => Program.raise .noPeer
    | some peer => pure (getGateway peer appMetadata.certificate appMetadata.key)

/-- `submitTransaction` of the gateway library: endorse and send, then wait for the status. -/
def submitTransaction (connection : Connection) (name : TransactionName) (args : List Argument) :
    PortalProgram (Except GatewayError String) := do
  let reply : SubmitReply ← request (.submit connection name args)
  match reply with
  | .refused err => return .error err
  | .unknown => Program.raise .unknown
  | .accepted result => do
    let status : Option Bool ← request .getStatus
    match status with
    | none => Program.raise .unknown
    | some false => Program.raise .invalidated
    | some true => return .ok result

/-- The calls of a handler on a connection. -/
def callGateway (connection : Connection) :
    GatewayCall → PortalProgram (Except GatewayError String)
  | .evaluateTransaction name args => request (.evaluate connection name args)
  | .submitTransaction name args => submitTransaction connection name args

/-- Run a handler on the connection of the user. -/
def handle (handler : Handler HandlerResponse) : PortalProgram PortalResponse := do
  let connection ← getGatewayByUser
  let response ← handler.interpret (callGateway connection) .gateway
  return .handler response

/-- The program that serves a request. -/
def PortalRequest.run : PortalRequest → PortalProgram PortalResponse
  | .signIn signInRequest => do
    let response ← (Web.signIn signInRequest).interpret (fun call ↦ request (.web call)) .signIn
    return .signIn response
  | .studentPost _ body => handle (Web.studentPost body)
  | .studentPatch _ body => handle (Web.studentPatch body)

/-! ### What the server talks to -/

/-- A transaction, labelled with the ticket of the request that submits it if the portal does. -/
abbrev Labelled := Option ℕ × Transaction

structure Portal where
  world : World
  network : Network String String Labelled

/-- What the source leaves to its environment: the requests, by their tickets, the letters of
Supabase, the contract's stub, the library's conversion of body values, and the client that a peer
reads from a certificate. -/
structure Deployment where
  requests : ℕ → PortalRequest
  letters : LetterCase
  stub : Stub
  encode : Option JsValue → Option String
  clientOf : String → Certificate → ClientIdentity
  /-- The peer takes the MSP of the client from the identity. -/
  mspID_clientOf : ∀ mspId certificate, (clientOf mspId certificate).mspID = mspId

/-- What the call returns when it fails. The calls of the cache do not fail. -/
def SignInCall.Fails : (call : SignInCall) → SignInReply call → Prop
  | .serverSupabaseUser, reply => reply = none
  | .cacheHas _, _ => False
  | .cacheSet _, _ => False
  | .enroll _ _ _, reply => ∃ message, reply = .error message
  | .getOne _ _, reply => ∃ message, reply = .error message
  | .getUserIdByEmail _, reply => reply = none
  | .createUser _ _ _, reply => ∃ message, reply = .error message
  | .updateUserById _ _, reply => ∃ message, reply = .error message
  | .signInWithPassword _ _, reply => ∃ message, reply = .error message

/-- Execute a labelled transaction. -/
def executeLabelled (stub : Stub) (labelled : Labelled) (ledger : Ledger) :
    Option (Footprint String String) :=
  execute stub labelled.2 ledger

/-- A request in progress. -/
abbrev PortalRunning := Running ℕ PortalCall PortalReply PortalError PortalResponse Portal

namespace Deployment

variable (deployment : Deployment)

/-- The gateway of a connection, as the handlers see it. -/
def gateway (connection : Connection) : Gateway :=
  ⟨deployment.stub, deployment.clientOf connection.mspId connection.credentials, deployment.encode⟩

/-- How the CAs and Supabase answer a call of the request with the ticket. -/
def respond (ticket : ℕ) (call : SignInCall) (world : World) : SignInReply call × World :=
  World.respond deployment.letters (deployment.requests ticket).session call world

/-- The answers to a call of the request with the ticket, and the state that each leaves. -/
inductive Answers (ticket : ℕ) :
    (call : PortalCall) → Portal → PortalReply call → Portal → Prop
  | web {portal : Portal} (call : SignInCall) :
      Answers ticket (.web call) portal
        (deployment.respond ticket call portal.world).1
        { portal with world := (deployment.respond ticket call portal.world).2 }
  | failed {portal : Portal} {call : SignInCall} {reply : SignInReply call}
      (hfails : call.Fails reply) : Answers ticket (.web call) portal reply portal
  | unanswered {portal : Portal} {call : SignInCall} {reply : SignInReply call}
      (hfails : call.Fails reply) :
      Answers ticket (.web call) portal reply
        { portal with world := (deployment.respond ticket call portal.world).2 }
  | user {portal : Portal} :
      Answers ticket .serverSupabaseUser portal
        ((portal.world.accounts.find? fun account ↦
          some account.id = (deployment.requests ticket).session).map Account.appMetadata) portal
  | noUser {portal : Portal} : Answers ticket .serverSupabaseUser portal none portal
  | evaluated {portal : Portal} {connection : Connection} {name : TransactionName}
      {args : List Argument} (snapshot : Ledger) (hsnapshot : snapshot <:+ portal.network.chain)
      (now : Time) :
      Answers ticket (.evaluate connection name args) portal
        ((deployment.gateway connection).execute now snapshot name args) portal
  | unreachable {portal : Portal} {connection : Connection} {name : TransactionName}
      {args : List Argument} (err : GatewayError) :
      Answers ticket (.evaluate connection name args) portal (.error err) portal
  | refused {portal : Portal} {connection : Connection} {name : TransactionName}
      {args : List Argument} (err : GatewayError) :
      Answers ticket (.submit connection name args) portal (.refused err) portal
  | lost {portal : Portal} {connection : Connection} {name : TransactionName}
      {args : List Argument} :
      Answers ticket (.submit connection name args) portal .unknown portal
  | submitted {portal : Portal} {connection : Connection} {name : TransactionName}
      {args : List Argument} {texts : List String} {command : Command} {snapshot : Ledger}
      {now : Time} {footprint : Footprint String String} {reply : SubmitReply}
      (hargs : args.mapM (deployment.gateway connection).bytes = some texts)
      (hcommand : commandOf name texts = some command)
      (hsnapshot : snapshot <:+ portal.network.chain)
      (hexec : execute deployment.stub ⟨(deployment.gateway connection).client, now, command⟩
        snapshot = some footprint)
      -- the transaction may have been sent although the answer is lost
      (hreply : reply = .accepted "" ∨ reply = .unknown) :
      Answers ticket (.submit connection name args) portal reply { portal with
        network := { portal.network with
          pending := endorsedOn
            (some ticket, ⟨(deployment.gateway connection).client, now, command⟩) snapshot
              footprint :: portal.network.pending } }
  | valid {portal : Portal}
      (hcommitted : ∃ endorsed ∈ portal.network.committed, endorsed.tx.1 = some ticket) :
      Answers ticket .getStatus portal (some true) portal
  | invalid {portal : Portal}
      (hnone : ∀ endorsed ∈ portal.network.pending ++ portal.network.committed,
        endorsed.tx.1 ≠ some ticket) :
      Answers ticket .getStatus portal (some false) portal
  | noStatus {portal : Portal} : Answers ticket .getStatus portal none portal

/-- What happens without the server: a change at a CA, an endorsement for another client, and the
ordering of a pending transaction. -/
inductive Drift : Portal → Portal → Prop
  | register {portal : Portal} (caname username : String) (registration : Option Registration) :
      Drift portal { portal with
        world := step deployment.letters (.register caname username registration) portal.world }
  | endorse {portal : Portal} {snapshot : Ledger} {footprint : Footprint String String}
      (tx : Transaction) (hsnapshot : snapshot <:+ portal.network.chain)
      (hexec : execute deployment.stub tx snapshot = some footprint) :
      Drift portal { portal with
        network := { portal.network with
          pending := endorsedOn (none, tx) snapshot footprint :: portal.network.pending } }
  | commit {portal : Portal} {before after : List (Endorsed String String Labelled)}
      (endorsed : Endorsed String String Labelled)
      (hpending : portal.network.pending = before ++ endorsed :: after)
      (hcurrent : portal.network.Current endorsed) :
      Drift portal { portal with
        network := ⟨endorsed.writes :: portal.network.chain, before ++ after,
          endorsed :: portal.network.committed⟩ }
  | invalidate {portal : Portal} {before after : List (Endorsed String String Labelled)}
      (endorsed : Endorsed String String Labelled)
      (hpending : portal.network.pending = before ++ endorsed :: after)
      (hstale : ¬ portal.network.Current endorsed) :
      Drift portal { portal with network := { portal.network with pending := before ++ after } }

/-- The portal as a system of requests. A restart of the server empties its cache. -/
def portal : System ℕ PortalCall PortalReply PortalError PortalResponse Portal where
  body ticket := (deployment.requests ticket).run
  answers := deployment.Answers
  start state := state = ⟨emptyWorld, Network.initial⟩
  drift := deployment.Drift
  restart state next := next = { state with world := { state.world with caClients := [] } }

end Deployment

end StudentStatus.Web
