import StudentStatus.Web.PortalInvariant

/-!
# Signing in among other requests

The sign-in handler is safe in the portal (`safe_signIn`). Between its calls accounts may be created
and get new metadata, CAs may change what they have registered, and its own calls may fail. Still it
writes only credentials that the CA issued during the request, into an account whose e-mail is the
lower-case form of the request's, and a session that it returns is one of an account with that
e-mail and the password of the request, which the CA accepted during the request.
-/

set_option autoImplicit false
set_option relaxedAutoImplicit false

namespace StudentStatus.Web

open Interaction Optimistic Chaincode

variable {deployment : Deployment} {ticket : ℕ}

/-- The answers to the calls of the handler. -/
abbrev signInAnswers (deployment : Deployment) (ticket : ℕ) :
    (call : SignInCall) → Portal → SignInReply call → Portal → Prop :=
  fun call ↦ deployment.Answers ticket (.web call)

/-- A call is answered, or it fails before or after its effect. -/
theorem Deployment.Answers.web_cases {call : SignInCall} {portal after : Portal}
    {reply : SignInReply call} (h : deployment.Answers ticket (.web call) portal reply after) :
    after.network = portal.network ∧
      (reply = (deployment.respond ticket call portal.world).1 ∨ call.Fails reply) ∧
      (after.world = portal.world ∨
        after.world = (deployment.respond ticket call portal.world).2) := by
  cases h with
  | web call => exact ⟨rfl, Or.inl rfl, Or.inr rfl⟩
  | failed hfails => exact ⟨rfl, Or.inr hfails, Or.inl rfl⟩
  | unanswered hfails => exact ⟨rfl, Or.inr hfails, Or.inr rfl⟩

/-- The judgement about a part of the handler. -/
abbrev SignInSafe (deployment : Deployment) (ticket : ℕ) {α : Type}
    (post : Except SignInError α → List (Moment ℕ Portal) → Prop) :
    SignInProgram α → List (Moment ℕ Portal) → Prop :=
  Safe (signInAnswers deployment ticket) (SoundPast deployment) ticket post

section Parts

variable {past since : List (Moment ℕ Portal)}

/-- A call keeps the past sound when its effect on the accounts does. -/
theorem safe_send {call : SignInCall}
    {post : Except SignInError (SignInReply call) → List (Moment ℕ Portal) → Prop}
    (heffect : ∀ newer moment earlier state, newer ++ past = moment :: earlier →
      NotBy ticket newer → SoundPast deployment (moment :: earlier) →
      state.world = (deployment.respond ticket call moment.state.world).2 →
      Kept moment.state.world.accounts state.world.accounts ∧
        AccountsSound deployment.letters (⟨some ticket, state⟩ :: moment :: earlier)
          state.world.accounts)
    (hpost : ∀ newer moment earlier reply state, newer ++ past = moment :: earlier →
      SoundPast deployment (⟨some ticket, state⟩ :: moment :: earlier) →
      (state.world = moment.state.world ∨
        state.world = (deployment.respond ticket call moment.state.world).2) →
      (reply = (deployment.respond ticket call moment.state.world).1 ∨ call.Fails reply) →
      post (.ok reply) (⟨some ticket, state⟩ :: moment :: earlier)) :
    SignInSafe deployment ticket post (send call) past := by
  refine Safe.ask fun newer moment earlier reply state hpast hnewer hsound hanswer ↦ ?_
  obtain ⟨hnetwork, hreply, hworld⟩ := hanswer.web_cases
  have hsound' : SoundPast deployment (⟨some ticket, state⟩ :: moment :: earlier) := by
    rcases hworld with hsame | hafter
    · exact hsound.quiet _ hnetwork (by rw [hsame])
    · obtain ⟨hkept, haccounts⟩ := heffect newer moment earlier state hpast hnewer hsound hafter
      exact hsound.onWeb _ hnetwork hkept haccounts
  exact ⟨hsound', hpost newer moment earlier reply state hpast hsound' hworld hreply⟩

/-- A call that leaves the accounts alone. -/
theorem safe_send_quiet {call : SignInCall}
    {post : Except SignInError (SignInReply call) → List (Moment ℕ Portal) → Prop}
    (hquiet : ∀ world, (deployment.respond ticket call world).2.accounts = world.accounts)
    (hpost : ∀ newer moment earlier reply state, newer ++ past = moment :: earlier →
      state.world.accounts = moment.state.world.accounts →
      (reply = (deployment.respond ticket call moment.state.world).1 ∨ call.Fails reply) →
      post (.ok reply) (⟨some ticket, state⟩ :: moment :: earlier)) :
    SignInSafe deployment ticket post (send call) past := by
  refine safe_send (fun newer moment earlier state _ _ hsound hafter ↦ ?_)
    fun newer moment earlier reply state hpast _ hworld hreply ↦
      hpost newer moment earlier reply state hpast ?_ hreply
  · rw [hafter, hquiet]
    exact ⟨Kept.refl _, hsound.accountsSound.cons _⟩
  · rcases hworld with hsame | hafter
    · rw [hsame]
    · rw [hafter, hquiet]

/-- The request has begun by now. -/
theorem suffix_of_append {newer earlier : List (Moment ℕ Portal)} {moment : Moment ℕ Portal}
    (hsince : since <:+ past) (hpast : newer ++ past = moment :: earlier)
    (later : Moment ℕ Portal) : since <:+ later :: moment :: earlier := by
  rw [← hpast]
  exact (hsince.trans (List.suffix_append _ _)).trans (List.suffix_cons _ _)

/-- During the request the CA of the organisation accepted the credentials. -/
def Vouched (since past : List (Moment ℕ Portal)) (config : OrgConfig)
    (username password : String) : Prop :=
  Meanwhile since past fun state ↦ state.world.Accepts config.ca.name username password

theorem Vouched.accepted {config : OrgConfig} {username password : String}
    (h : Vouched since past config username password) : Accepted past config username password :=
  h.exists_mem

theorem Vouched.later {config : OrgConfig} {username password : String}
    (h : Vouched since past config username password) {newer earlier : List (Moment ℕ Portal)}
    {moment : Moment ℕ Portal} (hpast : newer ++ past = moment :: earlier) :
    Vouched since (moment :: earlier) config username password := hpast ▸ h.append newer

theorem Vouched.cons {config : OrgConfig} {username password : String}
    (h : Vouched since past config username password) (moment : Moment ℕ Portal) :
    Vouched since (moment :: past) config username password := h.append [moment]

theorem World.accepts_of_enroll_eq_ok {world : World}
    {caname enrollmentID enrollmentSecret : String} {enrollment : Enrollment}
    (h : (world.enroll caname enrollmentID enrollmentSecret).1 = .ok enrollment) :
    world.Accepts caname enrollmentID enrollmentSecret ∧
      enrollment.certificate.issuer = caname ∧ enrollment.certificate.subject = enrollmentID ∧
      enrollment.key = enrollment.certificate.publicKey := by
  by_cases haccepts : world.Accepts caname enrollmentID enrollmentSecret
  · rw [World.enroll_of_accepts haccepts] at h
    obtain rfl := Except.ok.inj h
    exact ⟨haccepts, rfl, rfl, rfl⟩
  · rw [World.enroll_of_not_accepts haccepts] at h
    cases h

theorem World.accounts_enroll (world : World) (caname enrollmentID enrollmentSecret : String) :
    (world.enroll caname enrollmentID enrollmentSecret).2.accounts = world.accounts := by
  unfold World.enroll
  split
  · rfl
  · split_ifs <;> rfl

/-- What `enroll` returns was issued to a user whom the CA accepted. -/
theorem safe_enroll (hsince : since <:+ past) (caname enrollmentID enrollmentSecret : String) :
    SignInSafe deployment ticket (fun outcome past ↦ since <:+ past ∧
      ∀ enrollment, outcome = .ok enrollment →
        Meanwhile since past (fun state ↦
          state.world.Accepts caname enrollmentID enrollmentSecret) ∧
        enrollment.certificate.issuer = caname ∧ enrollment.certificate.subject = enrollmentID ∧
        enrollment.key = enrollment.certificate.publicKey)
      (enroll caname enrollmentID enrollmentSecret) past := by
  refine Safe.bind (fun outcome past ↦ since <:+ past ∧ ∀ enrollment,
      outcome = .ok (.ok enrollment) →
        Meanwhile since past (fun state ↦
          state.world.Accepts caname enrollmentID enrollmentSecret) ∧
        enrollment.certificate.issuer = caname ∧ enrollment.certificate.subject = enrollmentID ∧
        enrollment.key = enrollment.certificate.publicKey) ?_ ?_ ?_
  · refine safe_send_quiet (fun world ↦ World.accounts_enroll world _ _ _) ?_
    intro newer moment earlier reply state hpast _ hreply
    refine ⟨suffix_of_append hsince hpast _, fun enrollment heq ↦ ?_⟩
    cases heq
    rcases hreply with hreply | ⟨message, hfails⟩
    · obtain ⟨haccepts, hissued⟩ := World.accepts_of_enroll_eq_ok hreply.symm
      refine ⟨(Meanwhile.of_cons ?_ haccepts).append [_], hissued⟩
      rw [← hpast]
      exact hsince.trans (List.suffix_append _ _)
    · cases hfails
  · rintro (message | enrollment) past ⟨hsince, hissued⟩
    · exact ⟨hsince, fun enrollment heq ↦ by cases heq⟩
    · refine ⟨hsince, fun other heq ↦ ?_⟩
      cases heq
      exact hissued enrollment rfl
  · rintro e past ⟨hsince, -⟩
    exact ⟨hsince, fun enrollment heq ↦ by cases heq⟩

theorem safe_getCAClient (hsince : since <:+ past) (config : OrgConfig) :
    SignInSafe deployment ticket (fun _ past ↦ since <:+ past) (getCAClient config) past := by
  refine Safe.bind (fun _ past ↦ since <:+ past) ?_ ?_ fun e past h ↦ h
  · exact safe_send_quiet (fun world ↦ rfl) fun newer moment earlier reply state hpast _ _ ↦
      suffix_of_append hsince hpast _
  · rintro (_ | _) past hsince
    · refine Safe.bind (fun _ past ↦ since <:+ past) ?_ ?_ fun e past h ↦ h
      · exact (safe_enroll hsince _ _ _).mono fun outcome past h ↦ h.1
      · intro registrar past hsince
        exact safe_send_quiet (fun world ↦ rfl) fun newer moment earlier reply state hpast _ _ ↦
          suffix_of_append hsince hpast _
    · exact hsince

/-- Metadata that `authenticate` returns belongs to the user, whom the CA accepted. -/
theorem safe_authenticate (hsince : since <:+ past) {config : OrgConfig} (hconfig : config ∈ orgs)
    (username password : String) :
    SignInSafe deployment ticket (fun outcome past ↦ ∀ appMetadata,
        outcome = .ok (.ok appMetadata) → appMetadata.BelongsTo ⟨config.msp, username⟩ ∧
          Vouched since past config username password)
      (authenticate config username password) past := by
  refine Safe.bind _ (safe_getCAClient hsince config) ?_ fun e past _ appMetadata heq ↦ by cases heq
  intro _ past hsince
  refine Safe.bind _ (safe_enroll hsince _ _ _) ?_ fun e past _ appMetadata heq ↦ by cases heq
  rintro cert past ⟨-, hcert⟩
  obtain ⟨hvouched, hissuer, hsubject, hkey⟩ := hcert cert rfl
  refine Safe.bind (fun outcome past ↦ Vouched since past config username password ∧
      ∀ identity, outcome = .ok (.ok identity) →
        identity.id = username ∧ identity.caname = config.ca.name) ?_ ?_
    fun e past _ appMetadata heq ↦ by cases heq
  · refine safe_send_quiet (fun world ↦ rfl) ?_
    intro newer moment earlier reply state hpast _ hreply
    refine ⟨(Vouched.later hvouched hpast).cons _, fun identity heq ↦ ?_⟩
    cases heq
    rcases hreply with hreply | ⟨message, hfails⟩
    · exact World.getOne_eq_ok hreply.symm
    · cases hfails
  · rintro (message | identity) past ⟨hvouched, hidentity⟩ appMetadata heq
    · cases heq
    · cases heq
      obtain ⟨hid, hcaname⟩ := hidentity identity rfl
      exact ⟨⟨config, hconfig, rfl, rfl, hissuer, hsubject, hkey, hid, hcaname⟩, hvouched⟩

/-! ### The accounts -/

/-- An account of the e-mail with the password. -/
def HasAccount (state : Portal) (id : UserId) (email password : String) : Prop :=
  ∃ account ∈ state.world.accounts, account.id = id ∧ account.email = email ∧
    account.password = password

/-- A new account is attested by the user for whom it is created. -/
theorem AccountsSound.createUser {letters : LetterCase} {config : OrgConfig}
    {username password : String} {appMetadata : AppMetadata} {world : World}
    (h : AccountsSound letters past world.accounts) (hconfig : config ∈ orgs)
    (hbelongs : appMetadata.BelongsTo ⟨config.msp, username⟩)
    (haccepted : Accepted past config username password) :
    Kept world.accounts
        (world.createUser letters (emailOf username config) password appMetadata).2.accounts ∧
      AccountsSound letters past
        (world.createUser letters (emailOf username config) password appMetadata).2.accounts := by
  by_cases hfound : Found world.accounts (letters.lowerCase (emailOf username config))
  · rw [World.createUser_of_found hfound]
    exact ⟨Kept.refl _, h⟩
  · rw [World.createUser_of_not_found hfound]
    have hfree : ¬ Found world.accounts (emailOf username config) := by
      rintro ⟨account, hmem, hemail⟩
      refine hfound ⟨account, hmem, ?_⟩
      rw [← hemail]
      exact (h.wellFormed.lower account hmem).symm
    refine ⟨fun account hmem ↦ ⟨account, List.mem_append_left _ hmem, rfl, rfl, rfl⟩,
      (AccountEffect.created hfree hfound).wellFormed h.wellFormed, fun account hmem ↦ ?_⟩
    rcases List.mem_append.mp hmem with hmem | hmem
    · exact h.attested account hmem
    · rw [List.mem_singleton.mp hmem]
      exact ⟨config, hconfig, ⟨username, rfl, haccepted⟩,
        ⟨username, password, rfl, haccepted, hbelongs⟩⟩

/-- An account whose e-mail is that of a user may get the metadata of the user. -/
theorem AccountsSound.updateUserById {letters : LetterCase} {config : OrgConfig}
    {username secret : String} {appMetadata : AppMetadata} {world : World} {id : UserId}
    (h : AccountsSound letters past world.accounts) (hconfig : config ∈ orgs)
    (hbelongs : appMetadata.BelongsTo ⟨config.msp, username⟩)
    (haccepted : Accepted past config username secret)
    (hfound : ∃ account ∈ world.accounts, account.id = id ∧
      account.email = emailOf username config) :
    Kept world.accounts (world.updateUserById id appMetadata).accounts ∧
      AccountsSound letters past (world.updateUserById id appMetadata).accounts := by
  obtain ⟨found, hmem, rfl, hemail⟩ := hfound
  -- an update does not look at the password, so any answer to it will do
  obtain ⟨response, -, hanswer⟩ :=
    @runIn_signInWithPassword letters none (emailOf username config) secret world
  have heffect : AccountEffect letters world.accounts (emailOf username config) secret appMetadata
    _ response := .updated hmem hemail hanswer
  refine ⟨fun account haccount ↦ ?_, heffect.wellFormed h.wellFormed, fun account haccount ↦ ?_⟩
  · obtain ⟨after, hafter, hid, hemail, hpassword, -⟩ :=
      World.exists_mem_updateAccounts haccount found.id appMetadata
    exact ⟨after, hafter, hid, hemail, hpassword⟩
  · obtain ⟨before, hbefore, -, hsame, hpassword, hmetadata⟩ :=
      World.exists_of_mem_updateAccounts haccount
    obtain ⟨config', hattested⟩ := h.attested before hbefore
    rcases hmetadata with ⟨hid, hmetadata⟩ | ⟨-, rfl⟩
    · obtain rfl := h.wellFormed.eq_of_id hbefore hmem hid
      have hlower : before.email = letters.lowerCase (emailOf username config) := by
        rw [← hemail]
        exact (h.wellFormed.lower before hmem).symm
      -- the e-mail determines the organisation
      have hsameConfig : config' = config := by
        obtain ⟨owner, howner, -⟩ := hattested.password
        rw [hlower, lowerCase_emailOf letters _ hconfig,
          lowerCase_emailOf letters _ hattested.config_mem] at howner
        exact (emailOf_inj hconfig hattested.config_mem howner).2.symm
      subst hsameConfig
      obtain ⟨owner, howner, hownerAccepted⟩ := hattested.password
      exact ⟨config', hconfig, ⟨owner, hsame.trans howner, hpassword ▸ hownerAccepted⟩,
        ⟨username, secret, hsame.trans hlower, haccepted, hmetadata ▸ hbelongs⟩⟩
    · exact ⟨config', hattested⟩

/-- What a session of the request stands for: the CA accepted the user during the request, and there
is an account with the lower-case form of the e-mail and the password. -/
def SessionSound (deployment : Deployment) (since : List (Moment ℕ Portal)) (config : OrgConfig)
    (username password : String) (response : SignInResponse) (past : List (Moment ℕ Portal)) :
    Prop :=
  ∀ session, response = .session session → Vouched since past config username password ∧
    Now past fun state ↦ HasAccount state session.user
      (deployment.letters.lowerCase (emailOf username config)) password

/-- A session is one of an account that has the lower-case form of the e-mail and the password. -/
theorem safe_signInWithPassword {config : OrgConfig} {username password : String}
    (hvouched : Vouched since past config username password) :
    SignInSafe deployment ticket (fun outcome past ↦ ∀ response, outcome = .ok response →
        SessionSound deployment since config username password response past)
      (signInWithPassword (emailOf username config) password) past := by
  refine Safe.bind (fun outcome past ↦ Vouched since past config username password ∧
      ∀ session, outcome = .ok (.ok session) → Now past fun state ↦ HasAccount state session.user
        (deployment.letters.lowerCase (emailOf username config)) password) ?_ ?_
    fun e past _ response heq ↦ by cases heq
  · refine safe_send_quiet (fun world ↦ rfl) ?_
    intro newer moment earlier reply state hpast haccounts hreply
    refine ⟨(hvouched.later hpast).cons _, fun session heq ↦ ?_⟩
    cases heq
    rw [now_cons, HasAccount, haccounts]
    rcases hreply with hreply | ⟨message, hfails⟩
    · change .ok session = World.signInWithPassword _ _ password moment.state.world at hreply
      unfold World.signInWithPassword at hreply
      split at hreply
      · next account hfind =>
        obtain rfl := Except.ok.inj hreply
        have hboth := List.find?_some hfind
        simp only [decide_eq_true_eq] at hboth
        exact ⟨account, List.mem_of_find?_eq_some hfind, rfl, hboth.1, hboth.2⟩
      · cases hreply
    · cases hfails
  · rintro (message | session) past ⟨hvouched, hsession⟩ response heq other hother
    · cases heq
      cases hother
    · cases heq
      cases hother
      exact ⟨hvouched, hsession session rfl⟩

/-- The part of the handler that asks Supabase writes the metadata where it belongs. -/
theorem safe_signInAccount {config : OrgConfig} (hconfig : config ∈ orgs)
    {username password : String} {appMetadata : AppMetadata}
    (hbelongs : appMetadata.BelongsTo ⟨config.msp, username⟩)
    (hvouched : Vouched since past config username password) :
    SignInSafe deployment ticket (fun outcome past ↦ ∀ response, outcome = .ok response →
        SessionSound deployment since config username password response past)
      (signInAccount (emailOf username config) password appMetadata) past := by
  refine Safe.bind (fun outcome past ↦ Vouched since past config username password ∧
      ∀ id, outcome = .ok (some id) → ∃ password, Now past fun state ↦
        HasAccount state id (emailOf username config) password) ?_ ?_
    fun e past _ response heq ↦ by cases heq
  · refine safe_send_quiet (fun world ↦ rfl) ?_
    intro newer moment earlier reply state hpast haccounts hreply
    refine ⟨(hvouched.later hpast).cons _, fun id heq ↦ ?_⟩
    cases heq
    rcases hreply with hreply | hfails
    · obtain ⟨account, hfind, rfl⟩ := Option.map_eq_some_iff.mp
        (show moment.state.world.getUserIdByEmail (emailOf username config) = some id from
          hreply.symm)
      have hemail := List.find?_some hfind
      simp only [decide_eq_true_eq] at hemail
      refine ⟨account.password, now_cons.mpr ⟨account, ?_, rfl, hemail, rfl⟩⟩
      rw [haccounts]
      exact List.mem_of_find?_eq_some hfind
    · cases hfails
  rintro (_ | id) past ⟨hvouched, hfound⟩
  · refine Safe.bind (fun _ past ↦ Vouched since past config username password) ?_ ?_
      fun e past _ response heq ↦ by cases heq
    · refine safe_send ?_ fun newer moment earlier reply state hpast _ _ _ ↦
        (hvouched.later hpast).cons _
      intro newer moment earlier state hpast _ hsound hafter
      rw [hafter]
      exact (hsound.accountsSound.cons _).createUser hconfig hbelongs
        ((hvouched.later hpast).cons _).accepted
    · rintro (message | _) past hvouched
      · intro response heq session hsession
        cases heq
        cases hsession
      · exact safe_signInWithPassword hvouched
  · obtain ⟨owner, hnow⟩ := hfound id rfl
    refine Safe.bind (fun _ past ↦ Vouched since past config username password) ?_ ?_
      fun e past _ response heq ↦ by cases heq
    · refine safe_send ?_ fun newer moment earlier reply state hpast _ _ _ ↦
        (hvouched.later hpast).cons _
      intro newer moment earlier state hpast _ hsound hafter
      rw [hafter]
      -- the account that was found is still there
      have hkept := SoundPast.account (hpast ▸ hsound) hnow
      rw [hpast, now_cons] at hkept
      obtain ⟨account, hmem, hid, hemail, -⟩ := hkept
      exact (hsound.accountsSound.cons _).updateUserById hconfig hbelongs
        ((hvouched.later hpast).cons _).accepted ⟨account, hmem, hid, hemail⟩
    · intro _ past hvouched
      exact safe_signInWithPassword hvouched

/-! ### The handler -/

/-- What the sign-in handler returns, whatever goes on beside it. -/
def SignInPost (deployment : Deployment) (request : Request) (since : List (Moment ℕ Portal))
    (response : SignInResponse) (past : List (Moment ℕ Portal)) : Prop :=
  ∀ session, response = .session session → ∃ config ∈ orgs, config.msp = request.msp ∧
    SessionSound deployment since config request.username request.password response past

theorem safe_signIn (request : Request) (past : List (Moment ℕ Portal)) :
    SignInSafe deployment ticket (fun outcome now ↦ ∀ response, outcome = .ok response →
      SignInPost deployment request past response now) (signIn request) past := by
  unfold signIn
  cases hconfig : request.config? with
  | none =>
    intro response heq
    cases heq
  | some config =>
    obtain ⟨hmem, hmsp⟩ := Request.config?_eq_some_iff.mp hconfig
    refine Safe.bind (fun _ now ↦ past <:+ now) ?_ ?_ fun e now _ response heq ↦ by cases heq
    · exact safe_send_quiet (fun world ↦ rfl) fun newer moment earlier reply state hpast _ _ ↦
        suffix_of_append List.suffix_rfl hpast _
    rintro (_ | id) now hsince
    · refine Safe.bind _ (safe_authenticate hsince hmem request.username request.password) ?_
        fun e past _ response heq ↦ by cases heq
      rintro (messages | appMetadata) now hmetadata
      · intro response heq session hsession
        cases heq
        cases hsession
      · obtain ⟨hbelongs, hvouched⟩ := hmetadata appMetadata rfl
        refine (safe_signInAccount hmem hbelongs hvouched).mono ?_
        intro outcome now h response heq session hsession
        exact ⟨config, hmem, hmsp, h response heq⟩
    · intro response heq session hsession
      cases heq
      cases hsession

end Parts

end StudentStatus.Web
