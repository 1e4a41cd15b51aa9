import StudentStatus.Web.PortalHandlers
import StudentStatus.Web.PortalService
import StudentStatus.Web.PortalSignIn
import StudentStatus.Web.StudentUpdates

/-!
# Runs of the portal

What holds in every run of the portal, however its requests are interleaved with each other, with
the rest of the channel and with restarts. The accounts stay well-formed and attested
(`portal_accounts`), and a session stands for credentials that the CA accepted while the request for
it was served (`portal_session`). A student request that succeeds has exactly one committed
transaction, and one that fails has none (`portal_atomic`); each committed transaction of a request
is a step of the sequential contract, taken for a user whom the CA of the session's account
accepted, and has just the effect that its form asks for (`portal_commit`).
-/

set_option autoImplicit false
set_option relaxedAutoImplicit false

namespace StudentStatus.Web

open Interaction Optimistic Json Chaincode

/-! ### Every request is safe -/

/-- What the request leaves. -/
def PortalPost (deployment : Deployment) (ticket : ℕ) (since : List (Moment ℕ Portal))
    (outcome : Except PortalError PortalResponse) (past : List (Moment ℕ Portal)) : Prop :=
  match deployment.requests ticket with
  | .signIn request => ∀ response, outcome = .ok (.signIn response) →
    SignInPost deployment request since response past
  | .studentPost _ _ | .studentPatch _ _ =>
    NoTransaction ticket since ∧ HandlerPost ticket outcome past

section Stability

variable {deployment : Deployment} {ticket : ℕ}

theorem stable_noTransaction : Stable (SoundPast deployment) ticket (NoTransaction ticket) :=
  fun _ _ hnone hnewer hsound ↦ hsound.noTransaction hnewer hnone

theorem stable_isCommitted : Stable (SoundPast deployment) ticket (IsCommitted ticket) :=
  fun _ _ hcommitted _ hsound ↦ hsound.committed hcommitted

theorem stable_handlerPost (outcome : Except PortalError PortalResponse) :
    Stable (SoundPast deployment) ticket (HandlerPost ticket outcome) := by
  cases outcome with
  | error e =>
    cases e with
    | unknown => exact fun _ _ _ _ _ ↦ trivial
    | _ => exact stable_noTransaction
  | ok response =>
    cases response with
    | signIn response => exact stable_isCommitted
    | handler response =>
      cases response with
      | createError message => exact stable_noTransaction
      | bytes resp => exact stable_isCommitted
      | succeed => exact stable_isCommitted

theorem stable_signInPost (request : Request) (since : List (Moment ℕ Portal))
    (response : SignInResponse) :
    Stable (SoundPast deployment) ticket (SignInPost deployment request since response) := by
  intro past newer h _ hsound session hsession
  obtain ⟨config, hmem, hmsp, hsessionSound⟩ := h session hsession
  refine ⟨config, hmem, hmsp, fun other hother ↦ ?_⟩
  obtain ⟨hvouched, hnow⟩ := hsessionSound other hother
  exact ⟨hvouched.append newer, hsound.account hnow⟩

end Stability

section Requests

variable {deployment : Deployment} {ticket : ℕ} {past : List (Moment ℕ Portal)}

/-- The sign-in handler is safe as a program of the server. -/
theorem safe_runSignIn (signInRequest : Request) :
    PortalSafe deployment ticket (fun outcome now ↦ ∀ response, outcome = .ok (.signIn response) →
        SignInPost deployment signInRequest past response now)
      (PortalRequest.signIn signInRequest).run past := by
  refine Safe.bind (fun outcome now ↦ ∀ response, outcome = .ok response →
    SignInPost deployment signInRequest past response now) ?_ ?_ fun e now _ response heq ↦ by
      cases heq
  · refine Safe.interpret ?_ (safe_signIn signInRequest past) (fun response now h other heq ↦ ?_)
      fun e now _ response heq ↦ by cases heq
    swap
    · cases heq
      exact h response rfl
    intro call mid now h newer moment earlier reply state hpast hnewer hinv hanswer
    obtain ⟨hkept, hmid⟩ := h newer moment earlier reply state hpast hnewer hinv hanswer
    exact ⟨hkept, reply, rfl, hmid⟩
  · intro response now h other heq
    cases heq
    exact h response rfl

/-- The POST handler is safe. -/
theorem safe_runStudentPost {session : Option UserId} {body : PostBody}
    (hrequest : deployment.requests ticket = .studentPost session body)
    (hnone : NoTransaction ticket past) :
    PortalSafe deployment ticket (HandlerPost ticket) (PortalRequest.studentPost session body).run
      past := by
  refine safe_handle hnone (fun connection texts command hargs hcommand ↦ ?_)
    fun connection hexecuted ↦ ?_
  · rw [hrequest]
    cases hargs
    exact (Option.some.inj hcommand).symm
  · rw [hrequest]
    exact hexecuted

/-- The PATCH handler is safe. -/
theorem safe_runStudentPatch {session : Option UserId} {body : PatchBody}
    (hrequest : deployment.requests ticket = .studentPatch session body)
    (hnone : NoTransaction ticket past) :
    PortalSafe deployment ticket (HandlerPost ticket) (PortalRequest.studentPatch session body).run
      past := by
  refine safe_handle hnone (fun connection texts command hargs hcommand ↦ ?_)
    fun connection hexecuted ↦ ?_
  · rw [hrequest]
    change ([.value body.id, stringified (studentUpdate body)] : List Argument).mapM
      (deployment.gateway connection).bytes = some texts at hargs
    cases hid : deployment.encode body.id with
    | none => simp [Gateway.bytes, Deployment.gateway, hid] at hargs
    | some id =>
      simp only [Gateway.bytes, Deployment.gateway, hid, stringified, List.mapM_cons,
        List.mapM_nil, Option.pure_def, Option.bind_eq_bind, Option.bind_some,
        Option.some.injEq] at hargs
      subst hargs
      exact ⟨id, hid, (Option.some.inj hcommand).symm⟩
  · rw [hrequest]
    exact hexecuted

end Requests

/-- Whatever is interleaved, the past of the portal is sound and every request is safe. -/
theorem guarantees (deployment : Deployment) :
    Guarantees deployment.portal (SoundPast deployment) (PortalPost deployment) where
  start := soundPast_start
  drift moment earlier state hsound hdrift := hsound.drift hdrift
  restart moment earlier state hsound hrestart := by
    subst hrestart
    exact hsound.quiet none rfl rfl
  body ticket moment earlier hsound hnotBy := by
    have hnone : NoTransaction ticket (moment :: earlier) :=
      now_cons.mpr (hsound.networkSound.transactionsOf_eq_zero hnotBy)
    change Safe _ _ _ _ (deployment.requests ticket).run _
    unfold PortalPost
    cases hrequest : deployment.requests ticket with
    | signIn signInRequest => exact safe_runSignIn signInRequest
    | studentPost session body =>
      exact (safe_runStudentPost hrequest hnone).mono fun outcome past h ↦ ⟨hnone, h⟩
    | studentPatch session body =>
      exact (safe_runStudentPatch hrequest hnone).mono fun outcome past h ↦ ⟨hnone, h⟩
  stable ticket since outcome := by
    unfold PortalPost
    cases deployment.requests ticket with
    | signIn signInRequest =>
      intro past newer h hnewer hsound response heq
      exact stable_signInPost signInRequest since response past newer (h response heq) hnewer hsound
    | studentPost session body =>
      exact fun past newer h hnewer hsound ↦
        ⟨h.1, stable_handlerPost outcome past newer h.2 hnewer hsound⟩
    | studentPatch session body =>
      exact fun past newer h hnewer hsound ↦
        ⟨h.1, stable_handlerPost outcome past newer h.2 hnewer hsound⟩

/-! ### What holds in every run -/

section Runs

variable {deployment : Deployment} {past : List (Moment ℕ Portal)}
  {running : List PortalRunning}

/-- At every moment of every run the accounts are well-formed and each of them is attested by what
happened before; and every account that was there is there now, with the same id, e-mail and
password. -/
theorem portal_accounts (h : Reaches deployment.portal past running)
    {newer earlier : List (Moment ℕ Portal)} {moment : Moment ℕ Portal}
    (hpast : past = newer ++ moment :: earlier) :
    WellFormed deployment.letters moment.state.world.accounts ∧
      (∀ account ∈ moment.state.world.accounts, ∃ config,
        Attested deployment.letters (moment :: earlier) config account) ∧
      Now past fun state ↦ Kept moment.state.world.accounts state.world.accounts := by
  have hsound := ((guarantees deployment).reaches h).1
  subst hpast
  obtain ⟨⟨hwell, hattested⟩, -⟩ := hsound.good (moment :: earlier) (List.suffix_append _ _)
  refine ⟨hwell, hattested, ?_⟩
  refine hsound.linked.now (fun _ ↦ True) (fun _ _ ↦ trivial) ?_
    (now_cons.mpr (Kept.refl _))
  intro actor before after _ hlink hkept account hmem
  obtain ⟨kept, hmem', hid, hemail, hpassword⟩ := hkept account hmem
  obtain ⟨last, hlast, hid', hemail', hpassword'⟩ := hlink.kept kept hmem'
  exact ⟨last, hlast, hid'.trans hid, hemail'.trans hemail, hpassword'.trans hpassword⟩

/-- The run in which a school enrols a student. -/
theorem portal_accounts_enrolled :
    ∃ past running, Reaches schoolPortal.portal past running ∧ past ≠ [] ∧
      ∀ newer moment earlier, past = newer ++ moment :: earlier →
        WellFormed asciiCase moment.state.world.accounts ∧
          (∀ account ∈ moment.state.world.accounts, ∃ config,
            Attested asciiCase (moment :: earlier) config account) ∧
          Now past fun state ↦ Kept moment.state.world.accounts state.world.accounts := by
  obtain ⟨moment, earlier, since, since', endorsed, -, -, hreaches⟩ := reaches_enrolled
  exact ⟨moment :: earlier, _, hreaches, List.cons_ne_nil _ _,
    fun _ _ _ hpast ↦ portal_accounts hreaches hpast⟩

/-- A session that a sign-in request returned stands for an account with the lower-case form of its
e-mail and its password, and the CA of its MSP accepted its user while the request was served. -/
theorem portal_session (h : Reaches deployment.portal past running) {ticket : ℕ}
    {request : Request} (hrequest : deployment.requests ticket = .signIn request)
    {since : List (Moment ℕ Portal)} {session : Session}
    (hmem : ⟨ticket, since, .done (.ok (.signIn (.session session)))⟩ ∈ running) :
    ∃ config ∈ orgs, config.msp = request.msp ∧
      Meanwhile since past (fun state ↦
        state.world.Accepts config.ca.name request.username request.password) ∧
      Now past fun state ↦ ∃ account ∈ state.world.accounts, account.id = session.user ∧
        account.email = deployment.letters.lowerCase (emailOf request.username config) ∧
        account.password = request.password := by
  have hpost := (guarantees deployment).outcome h hmem
  unfold PortalPost at hpost
  rw [hrequest] at hpost
  obtain ⟨config, hconfig, hmsp, hsound⟩ := hpost _ rfl session rfl
  exact ⟨config, hconfig, hmsp, hsound session rfl⟩

/-- The session of the user who enrols a student. -/
theorem portal_session_enrolled :
    ∃ past running since, Reaches schoolPortal.portal past running ∧
      signedInRequest since ∈ running ∧
      ∃ config ∈ orgs, config.msp = "School1MSP" ∧
        Meanwhile since past (fun state ↦ state.world.Accepts config.ca.name "alice" "a") ∧
        Now past fun state ↦ ∃ account ∈ state.world.accounts, account.id = 0 ∧
          account.email = asciiCase.lowerCase (emailOf "alice" config) ∧
          account.password = "a" := by
  obtain ⟨moment, earlier, since, since', endorsed, -, -, hreaches⟩ := reaches_enrolled
  have hrequest : schoolPortal.requests 0 = .signIn (requestAs "alice" "a") := rfl
  have hmem := List.mem_cons_of_mem (enrolledRequest since') (List.mem_singleton_self
    (signedInRequest since))
  exact ⟨moment :: earlier, _, since, hreaches, hmem, portal_session hreaches hrequest hmem⟩

/-- The request is served with a success. -/
def Succeeds : Except PortalError PortalResponse → Prop
  | .ok (.handler (.createError _)) => False
  | .ok _ => True
  | .error _ => False

/-- The request did not learn what became of its transaction. -/
def IsUnknown : Except PortalError PortalResponse → Prop
  | .error .unknown => True
  | _ => False

theorem HandlerPost.cases {ticket : ℕ} {outcome : Except PortalError PortalResponse}
    (h : HandlerPost ticket outcome past) :
    (Succeeds outcome → IsCommitted ticket past) ∧
      (¬ Succeeds outcome → ¬ IsUnknown outcome → NoTransaction ticket past) := by
  cases outcome with
  | error e =>
    refine ⟨fun hsucceeds ↦ hsucceeds.elim, fun _ hknown ↦ ?_⟩
    cases e with
    | unknown => exact absurd trivial hknown
    | _ => exact h
  | ok response =>
    cases response with
    | signIn response => exact ⟨fun _ ↦ h, fun hno ↦ absurd trivial hno⟩
    | handler response =>
      cases response with
      | createError message => exact ⟨fun hsucceeds ↦ hsucceeds.elim, fun _ _ ↦ h⟩
      | bytes resp => exact ⟨fun _ ↦ h, fun hno ↦ absurd trivial hno⟩
      | succeed => exact ⟨fun _ ↦ h, fun hno ↦ absurd trivial hno⟩

/-- No request ever has more than one transaction. A student request has none when it begins. When
it succeeds its one is committed, and when it fails it has none and gets none any more, unless it
could not learn what became of its transaction. -/
theorem portal_atomic (h : Reaches deployment.portal past running) :
    (∀ newer moment earlier, past = newer ++ moment :: earlier →
      ∀ ticket, transactionsOf ticket moment.state.network ≤ 1) ∧
    ∀ ticket since outcome, (∀ request, deployment.requests ticket ≠ .signIn request) →
      ⟨ticket, since, .done outcome⟩ ∈ running →
      Now since (fun state ↦ transactionsOf ticket state.network = 0) ∧
        Now past fun state ↦ transactionsOf ticket state.network ≤ 1 ∧
          (Succeeds outcome → committedOf ticket state.network = 1) ∧
          (¬ Succeeds outcome → ¬ IsUnknown outcome → transactionsOf ticket state.network = 0) := by
  have hsound := ((guarantees deployment).reaches h).1
  have hsingle : ∀ newer moment earlier, past = newer ++ moment :: earlier →
      ∀ ticket, transactionsOf ticket moment.state.network ≤ 1 := by
    rintro newer moment earlier rfl ticket
    exact (hsound.good (moment :: earlier) (List.suffix_append _ _)).2.single ticket
  refine ⟨hsingle, fun ticket since outcome hrequest hmem ↦ ?_⟩
  have hpost := (guarantees deployment).outcome h hmem
  have hhandler : NoTransaction ticket since ∧ HandlerPost ticket outcome past := by
    unfold PortalPost at hpost
    cases hcase : deployment.requests ticket with
    | signIn request => exact absurd hcase (hrequest request)
    | studentPost session body => rwa [hcase] at hpost
    | studentPatch session body => rwa [hcase] at hpost
  obtain ⟨hsucceeds, hfails⟩ := hhandler.2.cases
  refine ⟨hhandler.1, ?_⟩
  obtain ⟨moment, earlier, rfl⟩ := h.exists_cons
  have hone := hsingle [] moment earlier rfl ticket
  refine now_cons.mpr ⟨hone, fun hyes ↦ ?_, fun hno hknown ↦ now_cons.mp (hfails hno hknown)⟩
  have hpos := now_cons.mp (hsucceeds hyes)
  unfold transactionsOf at hone
  omega

/-- The request that enrols a student has one committed transaction. -/
theorem portal_atomic_enrolled :
    ∃ past running since, Reaches schoolPortal.portal past running ∧
      enrolledRequest since ∈ running ∧
      (∀ newer moment earlier, past = newer ++ moment :: earlier →
        ∀ ticket, transactionsOf ticket moment.state.network ≤ 1) ∧
      Now since (fun state ↦ transactionsOf 1 state.network = 0) ∧
      Now past fun state ↦ committedOf 1 state.network = 1 := by
  obtain ⟨moment, earlier, since, since', endorsed, -, -, hreaches⟩ := reaches_enrolled
  have hrequest (request : Request) : schoolPortal.requests 1 ≠ .signIn request := nofun
  obtain ⟨hsingle, hstudent⟩ := portal_atomic hreaches
  obtain ⟨hsince, hpast⟩ := hstudent 1 since' _ hrequest List.mem_cons_self
  exact ⟨moment :: earlier, _, since', hreaches, List.mem_cons_self, hsingle, hsince,
    now_cons.mpr ((now_cons.mp hpast).2.1 trivial)⟩

end Runs

/-! ### What a request commits -/

section Commits

variable {deployment : Deployment}

theorem readsDetermine_executeLabelled (stub : Stub) : ReadsDetermine (executeLabelled stub) :=
  fun labelled ↦ readsDetermine_execute stub labelled.2

end Commits

/-! ### A student request that is served next -/

/-- The handler of a student request. -/
def PortalRequest.handler : PortalRequest → Option (Handler HandlerResponse)
  | .signIn _ => none
  | .studentPost _ body => some (Web.studentPost body)
  | .studentPatch _ body => some (Web.studentPatch body)

/-- Every organisation has a peer. -/
theorem exists_peer {config : OrgConfig} (hconfig : config ∈ orgs) :
    ∃ peer, peers.find? (fun peer ↦ peer.msp = config.msp) = some peer ∧ peer.msp = config.msp := by
  have hpeers : ∀ config ∈ orgs, (peers.find? fun peer ↦ peer.msp = config.msp).isSome := by decide
  obtain ⟨peer, hpeer⟩ := Option.isSome_iff_exists.mp (hpeers config hconfig)
  exact ⟨peer, hpeer, by simpa using List.find?_some hpeer⟩

/-- The MSP of every account has a peer. -/
theorem SoundPast.exists_peer {deployment : Deployment} {moment : Moment ℕ Portal}
    {earlier : List (Moment ℕ Portal)} (h : SoundPast deployment (moment :: earlier))
    {account : Account} (haccount : account ∈ moment.state.world.accounts) :
    ∃ peer, peers.find? (fun peer ↦ peer.msp = account.appMetadata.msp) = some peer ∧
      peer.msp = account.appMetadata.msp := by
  obtain ⟨config, hattested⟩ := h.accountsSound.attested account haccount
  have hmsp : account.appMetadata.msp = config.msp := by
    obtain ⟨_, _, -, -, _, -, -, hmsp, -⟩ := hattested.metadata
    exact hmsp
  rw [hmsp]
  exact Web.exists_peer hattested.config_mem

/-- In any state of the portal, a student request whose handler would succeed alone, on the current
ledger and with the credentials of the account of its session, can succeed next, with its
transaction committed; the organisation of the account has a peer. -/
theorem handler_serves {deployment : Deployment} {moment : Moment ℕ Portal}
    {earlier : List (Moment ℕ Portal)}
    {running : List PortalRunning}
    (h : Interaction.Reaches deployment.portal (moment :: earlier) running) {ticket : ℕ}
    (hpast : NotBy ticket (moment :: earlier)) (hrunning : ∀ other ∈ running, other.tag ≠ ticket)
    {handler : Handler HandlerResponse}
    (hhandler : (deployment.requests ticket).handler = some handler) {account : Account}
    (haccount : moment.state.world.accounts.find? (fun account ↦
      some account.id = (deployment.requests ticket).session) = some account) {now now' : Time}
    (hserves : handler.result ((Gateway.mk deployment.stub (deployment.clientOf
      account.appMetadata.msp account.appMetadata.certificate) deployment.encode).answer now now'
        moment.state.network.chain) = .ok .succeed) :
    (∃ peer, peers.find? (fun peer ↦ peer.msp = account.appMetadata.msp) = some peer) ∧
      ∃ newer, CommitsNext ticket moment newer earlier ∧
        Interaction.Reaches deployment.portal (newer ++ moment :: earlier)
          (⟨ticket, moment :: earlier, .done (.ok (.handler .succeed))⟩ :: running) := by
  obtain ⟨evaluated, evaluatedArgs, name, args, rfl, hrun⟩ : ∃ evaluated evaluatedArgs name args,
      handler = checkThenSubmit (.evaluateTransaction evaluated evaluatedArgs)
        (.submitTransaction name args) ∧ (deployment.requests ticket).run = handle handler := by
    cases hrequest : deployment.requests ticket with
    | signIn request =>
      rw [hrequest] at hhandler
      cases hhandler
    | studentPost session body =>
      rw [hrequest] at hhandler
      cases hhandler
      exact ⟨_, _, _, _, rfl, rfl⟩
    | studentPatch session body =>
      rw [hrequest] at hhandler
      cases hhandler
      exact ⟨_, _, _, _, rfl, rfl⟩
  obtain ⟨hevaluated, hsubmitted⟩ := result_checkThenSubmit_iff.mp hserves
  have hsound := ((guarantees deployment).reaches h).1
  obtain ⟨peer, hpeer, hpeerMsp⟩ := hsound.exists_peer (List.mem_of_find?_eq_some haccount)
  rw [← hpeerMsp] at hevaluated hsubmitted
  have hspawned := h.spawn ticket hpast hrunning
  change Interaction.Reaches _ _ (⟨_, _, (deployment.requests ticket).run⟩ :: _) at hspawned
  rw [hrun] at hspawned
  exact ⟨⟨peer, hpeer⟩, reaches_handle hspawned haccount hpeer hevaluated hsubmitted⟩

/-- The user who has signed in can enrol a student next. -/
theorem handler_serves_alice :
    ∃ moment earlier newer since running,
      Interaction.Reaches schoolPortal.portal (moment :: earlier) running ∧
      CommitsNext 1 moment newer earlier ∧
      Interaction.Reaches schoolPortal.portal (newer ++ moment :: earlier)
        (⟨1, since, .done (.ok (.handler .succeed))⟩ :: running) := by
  obtain ⟨actor, earlier, since, hnotBy, hsignedIn⟩ := reaches_aliceSignedIn
  obtain ⟨account, haccount, hmsp⟩ := exists_aliceAccount
  have hrunning := tag_ne_one_of_mem since
  have hhandler : (schoolPortal.requests 1).handler = some (studentPost enrolmentBody) := rfl
  have hclient : (Gateway.mk fabricStub (schoolPortal.clientOf account.appMetadata.msp
      account.appMetadata.certificate) bureauGateway.encode).client =
        manager "School1MSP" "school1.manager" := by
    rw [hmsp]
    rfl
  obtain ⟨-, newer, hcommits, hdone⟩ := handler_serves hsignedIn hnotBy hrunning hhandler haccount
    (result_enrolmentBody hclient)
  exact ⟨aliceMoment actor, earlier, newer, _, _, hsignedIn, hcommits, hdone⟩

end StudentStatus.Web
