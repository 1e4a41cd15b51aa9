import StudentStatus.Web.Portal

/-!
# Service in the portal

What the portal can do. Requests that are served one after the other are among its runs: every
history of completed sign-ins leads to the same world with the same responses (`history_reaches`),
and a student handler that no other request interrupts and whose two calls report nothing ends with
its transaction committed (`reaches_handle`).
-/

set_option autoImplicit false
set_option relaxedAutoImplicit false

namespace StudentStatus.Web

open Interaction Optimistic Json Chaincode

/-! ### A sign-in that is served next -/

/-- The answers to the calls of a request that no failure meets and that stays away from the
gateway. -/
def webAlone (deployment : Deployment) (ticket : ℕ) :
    (call : PortalCall) → Portal → PortalReply call × Portal
  | .web call, state =>
    ((deployment.respond ticket call state.world).1,
      { state with world := (deployment.respond ticket call state.world).2 })
  | .serverSupabaseUser, state => (none, state)
  | .evaluate _ _ _, state => (.error .argument, state)
  | .submit _ _ _, state => (.unknown, state)
  | .getStatus, state => (none, state)

theorem answers_webAlone (deployment : Deployment) (ticket : ℕ) (call : PortalCall)
    (state : Portal) :
    deployment.Answers ticket call state (webAlone deployment ticket call state).1
      (webAlone deployment ticket call state).2 := by
  cases call with
  | web call => exact .web call
  | serverSupabaseUser => exact .noUser
  | evaluate connection name args => exact .unreachable .argument
  | submit connection name args => exact .lost
  | getStatus => exact .noStatus

/-- The response of the sign-in handler as one of the server. -/
def signInOutcome : Except SignInError SignInResponse → Except PortalError PortalResponse
  | .ok response => .ok (.signIn response)
  | .error err => .error (.signIn err)

/-- A sign-in request that is served alone. -/
theorem runIn_signIn {deployment : Deployment} {ticket : ℕ} {request : Request}
    (hrequest : deployment.requests ticket = .signIn request) (world : World)
    (network : Network String String Labelled) :
    (PortalRequest.signIn request).run.runIn (webAlone deployment ticket) ⟨world, network⟩ =
      (signInOutcome (serve deployment.letters request world).1,
        ⟨(serve deployment.letters request world).2, network⟩) := by
  have hcalls (call : SignInCall) (world : World) :
      (Web.request (.web call) : PortalProgram (SignInReply call)).runIn
          (webAlone deployment ticket) (Portal.mk world network) =
        (.ok (World.respond deployment.letters request.loggedIn call world).1,
          Portal.mk (World.respond deployment.letters request.loggedIn call world).2 network) := by
    change (Except.ok (deployment.respond ticket call world).1,
      Portal.mk (deployment.respond ticket call world).2 network) = _
    unfold Deployment.respond
    rw [hrequest]
    rfl
  unfold PortalRequest.run
  rw [Program.runIn_bind,
    Program.runIn_interpret (World.respond deployment.letters request.loggedIn)
      (fun world ↦ Portal.mk world network) hcalls]
  unfold serve
  cases ((signIn request).runIn (World.respond deployment.letters request.loggedIn) world).1 <;> rfl

/-- A sign-in request that is served next, without an interruption. -/
theorem reaches_signIn {deployment : Deployment} {moment : Moment ℕ Portal}
    {earlier : List (Moment ℕ Portal)}
    {running : List PortalRunning}
    (h : Interaction.Reaches deployment.portal (moment :: earlier) running) {ticket : ℕ}
    (hpast : NotBy ticket (moment :: earlier)) (hrunning : ∀ other ∈ running, other.tag ≠ ticket)
    {request : Request} (hrequest : deployment.requests ticket = .signIn request) :
    ∃ newer, (∀ later ∈ newer, later.actor = some ticket) ∧
      Now (newer ++ moment :: earlier) (· = ⟨(serve deployment.letters request
        moment.state.world).2, moment.state.network⟩) ∧
      Interaction.Reaches deployment.portal (newer ++ moment :: earlier)
        (⟨ticket, moment :: earlier, .done (signInOutcome
          (serve deployment.letters request moment.state.world).1)⟩ :: running) := by
  have hspawned := h.spawn ticket hpast hrunning
  change Interaction.Reaches _ _ (⟨_, _, (deployment.requests ticket).run⟩ :: _) at hspawned
  have hdone := Reaches.runIn (answers_webAlone deployment ticket) _ hspawned
  have hnow := now_momentsAlone (webAlone deployment ticket) ticket
    (deployment.requests ticket).run moment earlier
  have hrun := runIn_signIn hrequest moment.state.world moment.state.network
  rw [hrequest, hrun] at hnow hdone
  exact ⟨_, fun _ ↦ actor_of_mem_momentsAlone, hnow, hdone⟩

/-! ### A student request that is served next -/

/-- A transaction that the peers execute. -/
theorem Gateway.exists_of_execute_eq_ok {gateway : Gateway} {now : Time} {ledger : Ledger}
    {name : TransactionName} {args : List Argument}
    (h : gateway.execute now ledger name args = .ok "") :
    ∃ texts command footprint, args.mapM gateway.bytes = some texts ∧
      commandOf name texts = some command ∧
      Chaincode.execute gateway.stub ⟨gateway.client, now, command⟩ ledger = some footprint := by
  unfold Gateway.execute at h
  cases hargs : args.mapM gateway.bytes with
  | none =>
    rw [hargs] at h
    cases h
  | some texts =>
    simp only [hargs] at h
    cases hcommand : commandOf name texts with
    | none =>
      rw [hcommand] at h
      cases h
    | some command =>
      simp only [hcommand] at h
      rcases endorse_command_cases ⟨gateway.stub, gateway.client, now⟩ ledger command with
        ⟨read, key, text, heffect, -⟩ | ⟨-, err, hendorse⟩
      · exact ⟨texts, command, _, rfl, hcommand,
          execute_eq_some_iff.mpr ⟨read, key, text, heffect, rfl⟩⟩
      · rw [hendorse] at h
        cases h

/-- With the metadata of the user, the gateway connects to the peer of the MSP. -/
theorem getGatewayByUser_eq_call {appMetadata : AppMetadata} {peer : Peer}
    (hpeer : peers.find? (fun peer ↦ peer.msp = appMetadata.msp) = some peer) :
    ∃ next, getGatewayByUser = .call .serverSupabaseUser next ∧ next (some appMetadata) =
      pure (getGateway peer appMetadata.certificate appMetadata.key) := by
  refine ⟨_, rfl, ?_⟩
  simp only [Program.bind, hpeer]

/-- A transaction of the request is committed next. -/
def CommitsNext (ticket : ℕ) (moment : Moment ℕ Portal) (newer earlier : List (Moment ℕ Portal)) :
    Prop :=
  Now (newer ++ moment :: earlier) fun state ↦ ∃ endorsed,
    state.network.committed = endorsed :: moment.state.network.committed ∧
      endorsed.tx.1 = some ticket

/-- A program that a transaction is executed for endorses it, has it ordered next and learns that it
is valid. -/
theorem reaches_submitTransaction {deployment : Deployment} {moment : Moment ℕ Portal}
    {earlier since : List (Moment ℕ Portal)}
    {running : List PortalRunning}
    {ticket : ℕ} {connection : Connection} {name : TransactionName} {args : List Argument}
    {rest : Except GatewayError String → PortalProgram PortalResponse}
    (h : Interaction.Reaches deployment.portal (moment :: earlier)
      (⟨ticket, since, submitTransaction connection name args >>= rest⟩ :: running)) {now : Time}
    (hexecuted :
      (deployment.gateway connection).execute now moment.state.network.chain name args = .ok "") :
    ∃ newer, CommitsNext ticket moment newer earlier ∧
      Interaction.Reaches deployment.portal (newer ++ moment :: earlier)
        (⟨ticket, since, rest (.ok "")⟩ :: running) := by
  obtain ⟨texts, command, footprint, hargs, hcommand, hexec⟩ :=
    Gateway.exists_of_execute_eq_ok hexecuted
  have hsubmit := h.callHead (.submitted hargs hcommand List.suffix_rfl hexec (.inl rfl))
  have hcommit := hsubmit.drift (.commit _ (List.nil_append _).symm fun read hread ↦ by
    obtain ⟨key, -, rfl⟩ := List.mem_map.mp hread
    rfl)
  have hstatus := hcommit.callHead (.valid ⟨_, List.mem_cons_self, rfl⟩)
  exact ⟨[_, _, _], now_cons.mpr ⟨_, rfl, rfl⟩, hstatus⟩

/-- A handler that no other request interrupts, and whose two calls report nothing, succeeds. -/
theorem reaches_handle {deployment : Deployment} {moment : Moment ℕ Portal}
    {earlier since : List (Moment ℕ Portal)}
    {running : List PortalRunning}
    {ticket : ℕ} {evaluated name : TransactionName} {evaluatedArgs args : List Argument}
    (h : Interaction.Reaches deployment.portal (moment :: earlier)
      (⟨ticket, since, handle (checkThenSubmit (.evaluateTransaction evaluated evaluatedArgs)
        (.submitTransaction name args))⟩ :: running)) {account : Account}
    (haccount : moment.state.world.accounts.find? (fun account ↦
      some account.id = (deployment.requests ticket).session) = some account) {peer : Peer}
    (hpeer : peers.find? (fun peer ↦ peer.msp = account.appMetadata.msp) = some peer)
    {now now' : Time}
    (hevaluated : (deployment.gateway (getGateway peer account.appMetadata.certificate
      account.appMetadata.key)).execute now moment.state.network.chain evaluated evaluatedArgs =
        .ok "")
    (hsubmitted : (deployment.gateway (getGateway peer account.appMetadata.certificate
      account.appMetadata.key)).execute now' moment.state.network.chain name args = .ok "") :
    ∃ newer, CommitsNext ticket moment newer earlier ∧
      Interaction.Reaches deployment.portal (newer ++ moment :: earlier)
        (⟨ticket, since, .done (.ok (.handler .succeed))⟩ :: running) := by
  obtain ⟨next, hgateway, hnext⟩ := getGatewayByUser_eq_call hpeer
  rw [handle, hgateway] at h
  have huser : deployment.Answers ticket .serverSupabaseUser moment.state _ moment.state := .user
  rw [haccount] at huser
  have hconnected := h.callHead huser
  change Interaction.Reaches _ _ (⟨_, _, next (some account.appMetadata) >>= _⟩ :: _)
    at hconnected
  rw [hnext] at hconnected
  have hanswer : deployment.Answers ticket (.evaluate (getGateway peer
      account.appMetadata.certificate account.appMetadata.key) evaluated evaluatedArgs)
      moment.state _ moment.state := .evaluated moment.state.network.chain List.suffix_rfl now
  have hchecked := hconnected.callHead hanswer
  rw [hevaluated] at hchecked
  change Interaction.Reaches _ _ (⟨_, _, submitTransaction _ name args >>= _ >>= _⟩ :: _)
    at hchecked
  rw [Program.bind_assoc] at hchecked
  obtain ⟨newer, hcommits, hdone⟩ := reaches_submitTransaction hchecked hsubmitted
  refine ⟨newer ++ [⟨some ticket, moment.state⟩, ⟨some ticket, moment.state⟩], ?_, ?_⟩
  · unfold CommitsNext
    rw [List.append_assoc]
    exact hcommits
  · rw [List.append_assoc]
    exact hdone

/-! ### A school that enrols a student -/

/-- A user of the first school signs in, and then sends the request to enrol a student. -/
def schoolPortal : Deployment where
  requests
    | 0 => .signIn (requestAs "alice" "a")
    | _ + 1 => .studentPost (some 0) enrolmentBody
  letters := asciiCase
  stub := fabricStub
  encode := bureauGateway.encode
  clientOf mspId _ := manager mspId "school1.manager"
  mspID_clientOf _ _ := rfl

/-- The CA registers the user, who signs in. -/
def aliceSignedIn : List SignInEvent :=
  [.signIn (requestAs "alice" "a"), registration "alice" "a", registrar]

/-- The sign-in when it has been served. -/
def signedInRequest (since : List (Moment ℕ Portal)) : PortalRunning :=
  ⟨0, since, .done (.ok (.signIn (.session ⟨0⟩)))⟩

/-- The enrolment when it has been served. -/
def enrolledRequest (since : List (Moment ℕ Portal)) : PortalRunning :=
  ⟨1, since, .done (.ok (.handler .succeed))⟩

/-- The moment after the user has signed in. -/
def aliceMoment (actor : Option ℕ) : Moment ℕ Portal :=
  ⟨actor, ⟨worldAfter asciiCase aliceSignedIn, Network.initial⟩⟩

theorem reaches_aliceSignedIn : ∃ actor earlier since, NotBy 1 (aliceMoment actor :: earlier) ∧
    Interaction.Reaches schoolPortal.portal (aliceMoment actor :: earlier)
      [signedInRequest since] := by
  have hstart : Interaction.Reaches schoolPortal.portal _ [] := .start rfl
  have hregistered := (hstart.drift (.register "ca-school1" "admin"
    (some ⟨"adminpw", .ok ""⟩))).drift
      (.register "ca-school1" "alice" (some ⟨"a", .ok "school1"⟩))
  have hnone (ticket : ℕ) (first second third : Portal) :
      NotBy ticket [⟨none, third⟩, ⟨none, second⟩, ⟨none, first⟩] :=
    (((notBy_nil ticket).cons_none first).cons_none second).cons_none third
  have hrequest : schoolPortal.requests 0 = .signIn (requestAs "alice" "a") := rfl
  obtain ⟨newer, hnewer, ⟨moment, earlier, hpast, hmoment⟩, hdone⟩ :=
    reaches_signIn hregistered (hnone 0 _ _ _) (fun _ hmem ↦ by cases hmem) hrequest
  have hsession : (serve asciiCase (requestAs "alice" "a")
      (worldAfter asciiCase aliceSignedIn.tail)).1 = .ok (.session ⟨0⟩) := by
    decide +kernel
  change Interaction.Reaches _ _ [⟨_, _, .done (signInOutcome (serve asciiCase _
    (worldAfter asciiCase aliceSignedIn.tail)).1)⟩] at hdone
  rw [hsession] at hdone
  have hnotBy : NotBy 1 (moment :: earlier) := by
    rw [← hpast, notBy_append]
    refine ⟨fun later hmem heq ↦ ?_, hnone 1 _ _ _⟩
    cases (hnewer later hmem).symm.trans heq
  have halice : moment = aliceMoment moment.actor := congrArg (Moment.mk moment.actor) hmoment
  rw [hpast, halice] at hdone
  rw [halice] at hnotBy
  exact ⟨moment.actor, earlier, _, hnotBy, hdone⟩

/-- The contract accepts the enrolment from the user. -/
theorem creatable_enrolmentBody :
    Creatable (manager "School1MSP" "school1.manager") [] enrolmentBody := by
  have htext (text : String) (h : (units text).text = text) :
      fieldText (some (.string (units text))) = some text := congrArg some h
  exact ⟨by decide +kernel, ⟨"s1", htext _ (by decide +kernel), by decide, rfl⟩,
    ⟨"Ada", htext _ (by decide +kernel), by decide⟩, "Mathematics", htext _ (by decide +kernel)⟩

/-- The handler would succeed alone. -/
theorem result_enrolmentBody {gateway : Gateway}
    (hclient : gateway.client = manager "School1MSP" "school1.manager") :
    (studentPost enrolmentBody).result (gateway.answer noon noon []) = .ok .succeed := by
  rw [result_studentPost_iff, hclient]
  exact ⟨by decide, creatable_enrolmentBody, rfl⟩

theorem execute_enrolmentBody {gateway : Gateway}
    (hclient : gateway.client = manager "School1MSP" "school1.manager") :
    gateway.execute noon [] .createStudent [stringified (evaluatedStudent enrolmentBody)] =
        .ok "" ∧
      gateway.execute noon [] .createStudent [stringified (submittedStudent enrolmentBody)] =
        .ok "" :=
  result_checkThenSubmit_iff.mp (result_enrolmentBody hclient)

/-- The account of the user. -/
theorem exists_aliceAccount : ∃ account,
    (worldAfter asciiCase aliceSignedIn).accounts.find? (fun account ↦
      some account.id = (schoolPortal.requests 1).session) = some account ∧
      account.appMetadata.msp = "School1MSP" :=
  Option.map_eq_some_iff.mp (by decide +kernel)

/-- The sign-in does not have the ticket of the enrolment. -/
theorem tag_ne_one_of_mem (since : List (Moment ℕ Portal)) :
    ∀ other ∈ [signedInRequest since], other.tag ≠ 1 := by
  intro other hmem
  rw [List.mem_singleton.mp hmem]
  exact zero_ne_one

/-- The user has enrolled a student. -/
theorem reaches_enrolled : ∃ moment earlier since since' endorsed,
    moment.state.network.committed = [endorsed] ∧ endorsed.tx.1 = some 1 ∧
      Interaction.Reaches schoolPortal.portal (moment :: earlier)
        [enrolledRequest since', signedInRequest since] := by
  obtain ⟨actor, earlier, since, hnotBy, hsignedIn⟩ := reaches_aliceSignedIn
  obtain ⟨account, haccount, hmsp⟩ := exists_aliceAccount
  have hspawned : Interaction.Reaches schoolPortal.portal (aliceMoment actor :: earlier)
      [⟨1, _, handle (studentPost enrolmentBody)⟩, _] :=
        hsignedIn.spawn 1 hnotBy (tag_ne_one_of_mem since)
  have hpeer : peers.find? (fun peer ↦ peer.msp = account.appMetadata.msp) =
      some ⟨"学校 1", "School1MSP", "peer0.school1.edu.cn:7061"⟩ := by
    rw [hmsp]
    rfl
  have hclient : (schoolPortal.gateway (getGateway
      ⟨"学校 1", "School1MSP", "peer0.school1.edu.cn:7061"⟩ account.appMetadata.certificate
        account.appMetadata.key)).client = manager "School1MSP" "school1.manager" := rfl
  obtain ⟨hevaluated, hsubmitted⟩ := execute_enrolmentBody hclient
  unfold studentPost at hspawned
  obtain ⟨newer, ⟨last, past, hpast, endorsed, hcommitted, hlabel⟩, hdone⟩ :=
    reaches_handle hspawned haccount hpeer hevaluated hsubmitted
  rw [hpast] at hdone
  exact ⟨last, past, since, _, endorsed, hcommitted, hlabel, hdone⟩

/-! ### Histories of completed sign-ins -/

/-- The number of sign-in requests of a history. -/
def signIns : List SignInEvent → ℕ
  | [] => 0
  | .signIn _ :: earlier => signIns earlier + 1
  | .register _ _ _ :: earlier => signIns earlier

/-- The tickets of a past and of the programs in progress are below a bound. -/
def TicketsBelow (bound : ℕ) (past : List (Moment ℕ Portal))
    (running : List PortalRunning) : Prop :=
  (∀ moment ∈ past, ∀ ticket, moment.actor = some ticket → ticket < bound) ∧
    ∀ one ∈ running, one.tag < bound

/-- Every history of completed sign-ins is a run of the portal, in which the requests, numbered in
their order, receive the same responses and leave the same world. -/
theorem history_reaches (deployment : Deployment) (history : List SignInEvent)
    (hrequests : ∀ request earlier, SignInEvent.signIn request :: earlier <:+ history →
      deployment.requests (signIns earlier) = .signIn request) :
    ∃ past running, Interaction.Reaches deployment.portal past running ∧
      TicketsBelow (signIns history) past running ∧
      Now past (· = ⟨worldAfter deployment.letters history, Network.initial⟩) ∧
      ∀ request earlier, SignInEvent.signIn request :: earlier <:+ history →
        ∃ since, ⟨signIns earlier, since, .done (signInOutcome
          (serve deployment.letters request (worldAfter deployment.letters earlier)).1)⟩ ∈
            running := by
  induction history with
  | nil =>
    refine ⟨_, [], .start rfl, ⟨?_, ?_⟩, now_cons.mpr rfl, ?_⟩
    · intro moment hmem ticket hactor
      rw [List.mem_singleton.mp hmem] at hactor
      cases hactor
    · intro one hmem
      cases hmem
    · intro request earlier hsuffix
      exact absurd (List.suffix_nil.mp hsuffix) (List.cons_ne_nil _ _)
  | cons event history ih =>
    obtain ⟨past, running, hreaches, ⟨hpast, hrunning⟩, ⟨moment, older, rfl, hworld⟩, houtcomes⟩ :=
      ih fun request earlier hsuffix ↦
        hrequests request earlier (hsuffix.trans (List.suffix_cons _ _))
    cases event with
    | register caname username registration =>
      have hdrift : deployment.Drift moment.state _ := .register caname username registration
      refine ⟨_, running, hreaches.drift hdrift, ⟨?_, hrunning⟩, ?_, ?_⟩
      · intro other hmem ticket hactor
        rcases List.mem_cons.mp hmem with rfl | hmem
        · cases hactor
        · exact hpast other hmem ticket hactor
      · refine now_cons.mpr ?_
        rw [hworld]
        rfl
      · intro request earlier hsuffix
        rcases List.suffix_cons_iff.mp hsuffix with heq | hsuffix
        · cases (List.cons.inj heq).1
        · exact houtcomes request earlier hsuffix
    | signIn request =>
      have hrequest := hrequests request history List.suffix_rfl
      obtain ⟨newer, hnewer, hnow, hdone⟩ := reaches_signIn hreaches
        (fun other hmem hactor ↦ lt_irrefl _ (hpast other hmem _ hactor))
        (fun other hmem heq ↦ (hrunning other hmem).ne heq) hrequest
      rw [hworld] at hnow hdone
      refine ⟨_, _, hdone, ⟨?_, ?_⟩, hnow, ?_⟩
      · intro other hmem ticket hactor
        rcases List.mem_append.mp hmem with hmem | hmem
        · rw [hnewer other hmem] at hactor
          exact (Option.some.inj hactor) ▸ Nat.lt_succ_self _
        · exact (hpast other hmem ticket hactor).trans (Nat.lt_succ_self _)
      · intro one hmem
        rcases List.mem_cons.mp hmem with rfl | hmem
        · exact Nat.lt_succ_self _
        · exact (hrunning one hmem).trans (Nat.lt_succ_self _)
      · intro other earlier hsuffix
        rcases List.suffix_cons_iff.mp hsuffix with heq | hsuffix
        · obtain ⟨hother, rfl⟩ := List.cons.inj heq
          cases hother
          exact ⟨_, List.mem_cons_self⟩
        · obtain ⟨since, hmem⟩ := houtcomes other earlier hsuffix
          exact ⟨since, List.mem_cons_of_mem _ hmem⟩

/-- The sign-in of one user. -/
theorem history_reaches_aliceSignedIn :
    ∃ past running, Interaction.Reaches schoolPortal.portal past running ∧
      TicketsBelow 1 past running ∧
      Now past (· = ⟨worldAfter asciiCase aliceSignedIn, Network.initial⟩) ∧
      ∃ since, ⟨0, since, .done (signInOutcome (serve asciiCase (requestAs "alice" "a")
        (worldAfter asciiCase aliceSignedIn.tail)).1)⟩ ∈ running := by
  have hrequests : ∀ request earlier, SignInEvent.signIn request :: earlier <:+ aliceSignedIn →
      schoolPortal.requests (signIns earlier) = .signIn request := by
    intro request earlier hsuffix
    rcases List.suffix_cons_iff.mp hsuffix with heq | hsuffix
    · cases heq
      rfl
    · have hmem := hsuffix.subset List.mem_cons_self
      simp [registration, registrar] at hmem
  obtain ⟨past, running, hreaches, hbelow, hnow, houtcomes⟩ :=
    history_reaches schoolPortal aliceSignedIn hrequests
  exact ⟨past, running, hreaches, hbelow, hnow, houtcomes _ _ List.suffix_rfl⟩

end StudentStatus.Web
