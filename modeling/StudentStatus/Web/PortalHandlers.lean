import StudentStatus.Web.PortalInvariant

/-!
# The student handlers among other requests

A student handler is safe in the portal (`safe_handle`). It connects with the credentials that the
account of its session had at some moment of the request, and submits at most one transaction. When
it returns a success its transaction is committed; when it fails it has none, neither pending nor
committed, unless it could not learn what became of it.
-/

set_option autoImplicit false
set_option relaxedAutoImplicit false

namespace StudentStatus.Web

open Interaction Optimistic Json Chaincode

variable {deployment : Deployment} {ticket : ℕ}

/-- The judgement about a part of a handler. -/
abbrev PortalSafe (deployment : Deployment) (ticket : ℕ) {α : Type}
    (post : Except PortalError α → List (Moment ℕ Portal) → Prop) :
    PortalProgram α → List (Moment ℕ Portal) → Prop :=
  Safe (deployment.Answers ticket) (SoundPast deployment) ticket post

/-- The request has no transaction. -/
def NoTransaction (ticket : ℕ) (past : List (Moment ℕ Portal)) : Prop :=
  Now past fun state ↦ transactionsOf ticket state.network = 0

/-- A transaction of the request is committed. -/
def IsCommitted (ticket : ℕ) (past : List (Moment ℕ Portal)) : Prop :=
  Now past fun state ↦ 0 < committedOf ticket state.network

/-- What a part of a handler leaves when it throws. -/
def ErrorPost (ticket : ℕ) : PortalError → List (Moment ℕ Portal) → Prop
  | .unknown, _ => True
  | _, past => NoTransaction ticket past

/-- The account of the session had this application metadata at some moment. -/
def KnownAs (session : Option UserId) (appMetadata : AppMetadata) (past : List (Moment ℕ Portal)) :
    Prop :=
  ∃ account, some account.id = session ∧
    (∃ moment ∈ past, account ∈ moment.state.world.accounts) ∧ account.appMetadata = appMetadata

/-- The connection has the MSP and the credentials that the account of the session had at some
moment. -/
def Connected (session : Option UserId) (connection : Connection)
    (past : List (Moment ℕ Portal)) : Prop :=
  ∃ account, some account.id = session ∧
    (∃ moment ∈ past, account ∈ moment.state.world.accounts) ∧
    connection.mspId = account.appMetadata.msp ∧
    connection.credentials = account.appMetadata.certificate ∧
    connection.keystore = account.appMetadata.key

/-- The account that is found for the session. -/
theorem knownAs_of_find? {session : Option UserId} {moment : Moment ℕ Portal}
    {past : List (Moment ℕ Portal)} (hmem : moment ∈ past) {appMetadata : AppMetadata}
    (h : (moment.state.world.accounts.find? fun account ↦ some account.id = session).map
      Account.appMetadata = some appMetadata) : KnownAs session appMetadata past := by
  obtain ⟨account, hfind, hmetadata⟩ := Option.map_eq_some_iff.mp h
  have hid := List.find?_some hfind
  rw [decide_eq_true_eq] at hid
  exact ⟨account, hid, ⟨moment, hmem, List.mem_of_find?_eq_some hfind⟩, hmetadata⟩

/-- The gateway connects to the peer of the MSP with the credentials. -/
theorem KnownAs.connected {session : Option UserId} {appMetadata : AppMetadata}
    {past : List (Moment ℕ Portal)} (h : KnownAs session appMetadata past) {peer : Peer}
    (hpeer : peers.find? (fun peer ↦ peer.msp = appMetadata.msp) = some peer) :
    Connected session (getGateway peer appMetadata.certificate appMetadata.key) past := by
  obtain ⟨account, hsession, hmoment, rfl⟩ := h
  have hmsp := List.find?_some hpeer
  rw [decide_eq_true_eq] at hmsp
  exact ⟨account, hsession, hmoment, hmsp, rfl, rfl⟩

section Parts

variable {past : List (Moment ℕ Portal)}

theorem Connected.append {session : Option UserId} {connection : Connection}
    (h : Connected session connection past) (newer : List (Moment ℕ Portal)) :
    Connected session connection (newer ++ past) := by
  obtain ⟨account, hsession, ⟨moment, hmem, haccount⟩, hconnection⟩ := h
  exact ⟨account, hsession, ⟨moment, List.mem_append_right _ hmem, haccount⟩, hconnection⟩

/-- A call that changes nothing. -/
theorem safe_request_still {call : PortalCall}
    {post : Except PortalError (PortalReply call) → List (Moment ℕ Portal) → Prop}
    (hstill : ∀ portal reply after, deployment.Answers ticket call portal reply after →
      after = portal)
    (hpost : ∀ newer moment earlier reply, newer ++ past = moment :: earlier →
      NotBy ticket newer → SoundPast deployment (moment :: earlier) →
      deployment.Answers ticket call moment.state reply moment.state →
      post (.ok reply) (⟨some ticket, moment.state⟩ :: moment :: earlier)) :
    PortalSafe deployment ticket post (request call) past := by
  refine Safe.ask fun newer moment earlier reply state hpast hnewer hsound hanswer ↦ ?_
  obtain rfl := hstill _ _ _ hanswer
  exact ⟨hsound.quiet _ rfl rfl, hpost newer moment earlier reply hpast hnewer hsound hanswer⟩

/-- The request has no transaction yet when its next call is made. -/
theorem NoTransaction.later (h : NoTransaction ticket past) {newer earlier : List (Moment ℕ Portal)}
    {moment : Moment ℕ Portal} (hpast : newer ++ past = moment :: earlier)
    (hnewer : NotBy ticket newer) (hsound : SoundPast deployment (moment :: earlier)) :
    transactionsOf ticket moment.state.network = 0 := by
  have hlater := SoundPast.noTransaction (hpast ▸ hsound) hnewer h
  rwa [hpast, now_cons] at hlater

theorem safe_getGatewayByUser (hnone : NoTransaction ticket past) :
    PortalSafe deployment ticket (fun outcome past ↦ NoTransaction ticket past ∧
        ∀ connection, outcome = .ok connection →
          Connected (deployment.requests ticket).session connection past)
      getGatewayByUser past := by
  refine Safe.bind (fun outcome past ↦ NoTransaction ticket past ∧ ∀ appMetadata,
      outcome = .ok (some appMetadata) →
        KnownAs (deployment.requests ticket).session appMetadata past) ?_ ?_ ?_
  · refine safe_request_still (fun portal reply after hanswer ↦ by cases hanswer <;> rfl) ?_
    intro newer moment earlier reply hpast hnewer hsound hanswer
    have hzero := hnone.later hpast hnewer hsound
    refine ⟨now_cons.mpr hzero, fun appMetadata heq ↦ ?_⟩
    cases heq
    generalize hreply : (some appMetadata : PortalReply .serverSupabaseUser) = reply at hanswer
    cases hanswer with
    | user => exact knownAs_of_find? (List.mem_cons_of_mem _ List.mem_cons_self) hreply.symm
    | noUser => cases hreply
  · rintro (_ | appMetadata) past ⟨hnone, huser⟩
    · exact ⟨hnone, fun connection heq ↦ by cases heq⟩
    · have hknown := huser appMetadata rfl
      dsimp only
      cases hpeer : peers.find? fun peer ↦ peer.msp = appMetadata.msp with
      | none => exact ⟨hnone, fun connection heq ↦ by cases heq⟩
      | some peer =>
        refine ⟨hnone, fun connection heq ↦ ?_⟩
        cases heq
        exact hknown.connected hpeer
  · rintro e past ⟨hnone, -⟩
    exact ⟨hnone, fun connection heq ↦ by cases heq⟩

/-! ### The submission -/

/-- The transaction of a request becomes pending. -/
theorem SoundPast.submit {moment : Moment ℕ Portal} {earlier : List (Moment ℕ Portal)}
    (h : SoundPast deployment (moment :: earlier))
    (hnone : transactionsOf ticket moment.state.network = 0) {tx : Transaction}
    (hauthorised : Authorised deployment (moment :: earlier) ticket tx) {snapshot : Ledger}
    {footprint : Footprint String String} (hsnapshot : snapshot <:+ moment.state.network.chain)
    (hexec : execute deployment.stub tx snapshot = some footprint) {state : Portal}
    (hstate : state = { moment.state with network := { moment.state.network with
      pending := endorsedOn (some ticket, tx) snapshot footprint ::
        moment.state.network.pending } }) :
    SoundPast deployment (⟨some ticket, state⟩ :: moment :: earlier) := by
  have hnetwork := h.networkSound.cons ⟨some ticket, state⟩
  subst hstate
  have hcount (other : ℕ) : transactionsOf other { moment.state.network with
      pending := endorsedOn (some ticket, tx) snapshot footprint ::
        moment.state.network.pending } =
        transactionsOf other moment.state.network + if ticket = other then 1 else 0 := by
    simp only [transactionsOf, pendingOf, committedOf, endorsedOn, List.countP_cons,
      Option.some.injEq, decide_eq_true_eq]
    omega
  refine h.onNetwork _ rfl List.suffix_rfl (fun other hother ↦ ?_)
    ⟨hnetwork.reachable.step (.endorse (some ticket, tx) hsnapshot hexec), fun other ↦ ?_, ?_⟩
  · rw [hcount, if_neg fun heq ↦ hother (congrArg some heq)]
    exact le_rfl
  · rw [hcount]
    split_ifs with heq
    · rw [← heq, hnone]
    · exact hnetwork.single other
  · intro endorsed hmem other hlabel
    rw [List.cons_append] at hmem
    rcases List.mem_cons.mp hmem with rfl | hmem
    · obtain rfl := Option.some.inj hlabel
      exact ⟨⟨_, List.mem_cons_self, rfl⟩, hauthorised.cons _⟩
    · exact hnetwork.labelled endorsed hmem other hlabel

/-- What a submission leaves. -/
def SubmitPost (ticket : ℕ) :
    Except PortalError (Except GatewayError String) → List (Moment ℕ Portal) → Prop
  | .ok (.ok _), past => IsCommitted ticket past
  | .ok (.error _), past => NoTransaction ticket past
  | .error e, past => ErrorPost ticket e past

theorem safe_submitTransaction {connection : Connection} {name : TransactionName}
    {args : List Argument} (hnone : NoTransaction ticket past)
    (hconnected : Connected (deployment.requests ticket).session connection past)
    (hsubmits : ∀ texts command, args.mapM (deployment.gateway connection).bytes = some texts →
      commandOf name texts = some command →
      (deployment.requests ticket).Submits deployment.encode command)
    (hrehearsed : (deployment.requests ticket).Rehearsed deployment
      (deployment.gateway connection).client) :
    PortalSafe deployment ticket (SubmitPost ticket) (submitTransaction connection name args)
      past := by
  refine Safe.bind (fun outcome past ↦ (∃ reply, outcome = .ok reply) ∧
    ∀ err, outcome = .ok (.refused err) → NoTransaction ticket past) ?_ ?_ ?_
  · refine Safe.ask fun newer moment earlier reply state hpast hnewer hsound hanswer ↦ ?_
    have hzero := hnone.later hpast hnewer hsound
    cases hanswer with
    | refused err => exact ⟨hsound.quiet _ rfl rfl, ⟨_, rfl⟩, fun _ _ ↦ now_cons.mpr hzero⟩
    | lost => exact ⟨hsound.quiet _ rfl rfl, ⟨_, rfl⟩, fun err heq ↦ by cases heq⟩
    | submitted hargs hcommand hsnapshot hexec hreply =>
      obtain ⟨account, hsession, hmoment, hmsp, hcredentials, -⟩ :=
        hpast ▸ hconnected.append newer
      refine ⟨hsound.submit hzero
        ⟨hsubmits _ _ hargs hcommand, hrehearsed, account, hsession, hmoment, ?_⟩ hsnapshot hexec
        rfl, ⟨_, rfl⟩, fun err heq ↦ ?_⟩
      · rw [← hmsp, ← hcredentials]
        rfl
      · rcases hreply with rfl | rfl <;> cases heq
  · rintro (err | result | _) past ⟨-, hrefused⟩
    · exact hrefused err rfl
    · refine Safe.bind (fun outcome past ↦ (∃ status, outcome = .ok status) ∧
        (outcome = .ok (some true) → IsCommitted ticket past) ∧
        (outcome = .ok (some false) → NoTransaction ticket past)) ?_ ?_ ?_
      · refine safe_request_still (fun portal reply after hanswer ↦ by cases hanswer <;> rfl) ?_
        intro newer moment earlier reply hpast hnewer hsound hanswer
        refine ⟨⟨_, rfl⟩, fun heq ↦ ?_, fun heq ↦ ?_⟩
        · cases heq
          generalize hreply : (some true : PortalReply .getStatus) = reply at hanswer
          cases hanswer with
          | valid hcommitted =>
            refine now_cons.mpr (List.countP_pos_iff.mpr ?_)
            simpa using hcommitted
          | invalid hnone => cases hreply
          | noStatus => cases hreply
        · cases heq
          generalize hreply : (some false : PortalReply .getStatus) = reply at hanswer
          cases hanswer with
          | valid hcommitted => cases hreply
          | invalid hnone => exact now_cons.mpr (transactionsOf_eq_zero_iff.mpr hnone)
          | noStatus => cases hreply
      · rintro (_ | _ | _) past ⟨-, hvalid, hinvalid⟩
        · trivial
        · exact hinvalid rfl
        · exact hvalid rfl
      · rintro e past ⟨⟨status, heq⟩, -⟩
        cases heq
    · trivial
  · rintro e past ⟨⟨reply, heq⟩, -⟩
    cases heq

/-! ### The handler -/

/-- What a handler leaves. -/
def HandlerPost (ticket : ℕ) :
    Except PortalError PortalResponse → List (Moment ℕ Portal) → Prop
  | .ok (.handler (.createError _)), past => NoTransaction ticket past
  | .ok _, past => IsCommitted ticket past
  | .error e, past => ErrorPost ticket e past

/-- A handler that evaluates a transaction and then submits one. -/
theorem safe_handle {evaluated name : TransactionName} {evaluatedArgs args : List Argument}
    (hnone : NoTransaction ticket past)
    (hsubmits : ∀ connection texts command,
      args.mapM (deployment.gateway connection).bytes = some texts →
      commandOf name texts = some command →
      (deployment.requests ticket).Submits deployment.encode command)
    (hrehearsed : ∀ connection, (∃ now ledger, (deployment.gateway connection).execute now ledger
        evaluated evaluatedArgs = .ok "") →
      (deployment.requests ticket).Rehearsed deployment (deployment.gateway connection).client) :
    PortalSafe deployment ticket (HandlerPost ticket)
      (handle (checkThenSubmit (.evaluateTransaction evaluated evaluatedArgs)
        (.submitTransaction name args))) past := by
  refine Safe.bind _ (safe_getGatewayByUser hnone) ?_ ?_
  · rintro connection past ⟨hnone, hconnection⟩
    have hconnected := hconnection connection rfl
    refine Safe.bind (fun outcome past ↦
        HandlerPost ticket (outcome.map PortalResponse.handler) past) ?_ (fun _ _ h ↦ h)
      fun _ _ h ↦ h
    refine Safe.bind (fun outcome past ↦ (∃ preResp, outcome = .ok preResp) ∧
      NoTransaction ticket past ∧ Connected (deployment.requests ticket).session connection past ∧
      ∀ preResp, outcome = .ok (.ok preResp) → ∃ now ledger,
        (deployment.gateway connection).execute now ledger evaluated evaluatedArgs =
          .ok preResp) ?_ ?_ ?_
    · refine safe_request_still (fun portal reply after hanswer ↦ by cases hanswer <;> rfl) ?_
      intro newer moment earlier reply hpast hnewer hsound hanswer
      have hzero := hnone.later hpast hnewer hsound
      refine ⟨⟨_, rfl⟩, now_cons.mpr hzero, ?_, fun preResp heq ↦ ?_⟩
      · rw [← hpast]
        exact (hconnected.append newer).append [_]
      · cases hanswer with
        | evaluated snapshot hsnapshot now => exact ⟨now, snapshot, Except.ok.inj heq⟩
        | unreachable err => cases heq
    · rintro (err | preResp) past ⟨-, hnone, hconnected, hexecuted⟩
      · exact hnone
      · by_cases hquiet : preResp = ""
        · subst hquiet
          refine Safe.bind _ (safe_submitTransaction hnone hconnected (hsubmits connection)
            (hrehearsed connection (hexecuted "" rfl))) ?_ ?_
          · rintro (err | resp) past h
            · exact h
            · by_cases hresp : resp = ""
              · subst hresp
                exact h
              · change HandlerPost ticket (.ok (.handler (if resp ≠ "" then .bytes resp
                  else .succeed))) past
                rw [if_pos hresp]
                exact h
          · exact fun e past h ↦ h
        · change Safe _ _ _ _ (Program.interpret (callGateway connection) PortalError.gateway
            (if preResp ≠ "" then pure (HandlerResponse.createError preResp) else _)) past
          rw [if_pos hquiet]
          exact hnone
    · rintro e past ⟨⟨reply, heq⟩, -⟩
      cases heq
  · rintro e past ⟨hnone, -⟩
    cases e <;> first | exact hnone | trivial

end Parts

end StudentStatus.Web
