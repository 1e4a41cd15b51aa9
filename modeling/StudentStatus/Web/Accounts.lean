import StudentStatus.Web.SignIn
import StudentStatus.Keys.Terminated

/-!
# Accounts and their owners

What a history of sign-ins leaves. Every account was created by one request (`CreatedBy`), carries
the password of that request and the lower-case form of its e-mail (`CreatedBy.exists_account`), and
no two accounts share an e-mail. A later request finds an account by its exact e-mail, so it finds
the account of every user of its MSP whose name has the name of the request as its lower-case form.

Two consequences are exact. The credentials of every account stay those of the user for whom it was
created exactly when no request comes from a user whose name is the lower-case form of another
user's who created an account (`isolated_iff`). And a request that the CA admits is served exactly
when the account that it finds was created with its password, or there is no account of that
lower-case name yet (`served_iff`).
-/

set_option autoImplicit false
set_option relaxedAutoImplicit false

namespace StudentStatus.Web

open Interaction Keys

/-! ### E-mails -/

section Emails

variable (letters : LetterCase)

@[simp] theorem lowerCase_lowerCase (s : String) :
    letters.lowerCase (letters.lowerCase s) = letters.lowerCase s := by
  simp [LetterCase.lowerCase, Function.comp_def, letters.idempotent]

theorem lowerCase_append (s t : String) :
    letters.lowerCase (s ++ t) = letters.lowerCase s ++ letters.lowerCase t := by
  simp [LetterCase.lowerCase]

/-- A text of ASCII characters without capitals is its own lower case. -/
theorem lowerCase_eq_self {s : String}
    (h : s.toList.all fun c ↦ c.toNat < 128 ∧ c.toLower = c) : letters.lowerCase s = s := by
  have hascii (c : Char) (hc : c ∈ s.toList) : c.toNat < 128 ∧ c.toLower = c :=
    of_decide_eq_true (List.all_eq_true.mp h c hc)
  have hmap : s.toList.map letters.lower = s.toList := by
    refine (List.map_congr_left fun c hc ↦ ?_).trans (List.map_id _)
    rw [letters.ascii c (hascii c hc).1, (hascii c hc).2]
    rfl
  rw [LetterCase.lowerCase, hmap, String.ofList_toList]

theorem lowerCase_emailOf (username : String) {config : OrgConfig} (hconfig : config ∈ orgs) :
    letters.lowerCase (emailOf username config) = emailOf (letters.lowerCase username) config := by
  have hat : letters.lowerCase "@" = "@" := lowerCase_eq_self letters (by decide)
  have hdomain : ∀ config ∈ orgs,
      config.domain.toList.all fun c ↦ c.toNat < 128 ∧ c.toLower = c := by
    decide
  rw [emailOf, lowerCase_append, lowerCase_append, hat,
    lowerCase_eq_self letters (hdomain config hconfig)]
  rfl

end Emails

theorem config_eq_of_msp : ∀ config ∈ orgs, ∀ config' ∈ orgs,
    config.msp = config'.msp → config = config' := by
  decide

/-- The part of an e-mail after its last `@` is the domain, whatever the user name is. -/
theorem emailOf_inj {username username' : String} {config config' : OrgConfig}
    (hconfig : config ∈ orgs) (hconfig' : config' ∈ orgs)
    (h : emailOf username config = emailOf username' config') :
    username = username' ∧ config = config' := by
  have hat : ∀ config ∈ orgs, '@' ∉ config.domain.toList.reverse := by decide
  have hdomain : ∀ config ∈ orgs, ∀ config' ∈ orgs,
      config.domain = config'.domain → config = config' := by decide
  have hreverse (username : String) (config : OrgConfig) :
      (emailOf username config).toList.reverse =
        config.domain.toList.reverse ++ '@' :: username.toList.reverse := by
    simp [emailOf]
  have heq := congrArg (fun s : String ↦ s.toList.reverse) h
  simp only [hreverse] at heq
  have hbegins {s t : List Char} (heq : s = t) : s <+: t := heq ▸ List.prefix_rfl
  obtain ⟨hd, hu⟩ := (append_stop_prefix_iff (hat config hconfig) (hat config' hconfig')).mp
    (hbegins heq)
  obtain ⟨-, hu'⟩ := (append_stop_prefix_iff (hat config' hconfig') (hat config hconfig)).mp
    (hbegins heq.symm)
  have husername := hu.eq_of_length_le hu'.length_le
  exact ⟨String.toList_injective (List.reverse_injective husername),
    hdomain config hconfig config' hconfig'
      (String.toList_injective (List.reverse_injective hd))⟩

/-! ### The accounts of a history -/

variable {letters : LetterCase}

variable (letters) in
/-- The ids count the accounts, and the e-mails are in lower case and differ. -/
structure WellFormed (accounts : List Account) : Prop where
  ids : accounts.map Account.id = List.range accounts.length
  emails : (accounts.map Account.email).Nodup
  lower : ∀ account ∈ accounts, letters.lowerCase account.email = account.email

namespace WellFormed

variable {accounts : List Account} (h : WellFormed letters accounts)

include h

theorem eq_of_id {account other : Account} (hmem : account ∈ accounts) (hother : other ∈ accounts)
    (hid : account.id = other.id) : account = other :=
  List.inj_on_of_nodup_map (h.ids ▸ List.nodup_range) hmem hother hid

theorem eq_of_email {account other : Account} (hmem : account ∈ accounts)
    (hother : other ∈ accounts) (hemail : account.email = other.email) : account = other :=
  List.inj_on_of_nodup_map h.emails hmem hother hemail

theorem id_lt {account : Account} (hmem : account ∈ accounts) : account.id < accounts.length :=
  List.mem_range.mp (h.ids ▸ List.mem_map_of_mem hmem)

end WellFormed

theorem map_updateAccounts {β : Type} (accounts : List Account) (id : UserId)
    (appMetadata : AppMetadata) {f : Account → β}
    (hf : ∀ account : Account, f { account with appMetadata := appMetadata } = f account) :
    (World.updateAccounts accounts id appMetadata).map f = accounts.map f := by
  rw [World.updateAccounts, List.map_map]
  refine List.map_congr_left fun account _ ↦ ?_
  change f (if account.id = id then { account with appMetadata := appMetadata } else account) = _
  split_ifs
  · exact hf account
  · rfl

namespace AccountEffect

variable {accounts left : List Account} {username password : String} {config : OrgConfig}
  {appMetadata : AppMetadata} {response : SignInResponse}

/-- The effect of a request keeps the accounts well-formed. -/
theorem wellFormed (heffect : AccountEffect letters accounts (emailOf username config) password
    appMetadata left response) (h : WellFormed letters accounts) : WellFormed letters left := by
  cases heffect with
  | @updated account _ hmem hemail hanswer =>
    refine ⟨?_, ?_, fun after hafter ↦ ?_⟩
    · rw [map_updateAccounts accounts account.id appMetadata fun _ ↦ rfl, h.ids,
        World.updateAccounts, List.length_map]
    · rw [map_updateAccounts accounts account.id appMetadata fun _ ↦ rfl]
      exact h.emails
    · obtain ⟨before, hbefore, -, hemail', -⟩ := World.exists_of_mem_updateAccounts hafter
      rw [hemail']
      exact h.lower before hbefore
  | taken hfound htaken message => exact h
  | created hfound hfree =>
    refine ⟨?_, ?_, fun account hmem ↦ ?_⟩
    · rw [List.map_append, h.ids, List.length_append, List.length_singleton, List.range_succ]
      rfl
    · rw [List.map_append, List.nodup_append]
      refine ⟨h.emails, List.nodup_singleton _, ?_⟩
      rintro email hmem _ hnew rfl
      obtain ⟨account, haccount, rfl⟩ := List.mem_map.mp hmem
      exact hfree ⟨account, haccount, List.mem_singleton.mp hnew⟩
    · rcases List.mem_append.mp hmem with hmem | hmem
      · exact h.lower account hmem
      · rw [List.mem_singleton.mp hmem]
        exact lowerCase_lowerCase letters _

/-- An account stays with its id, e-mail and password, and with its metadata unless the request
found it. -/
theorem exists_after (heffect : AccountEffect letters accounts (emailOf username config) password
    appMetadata left response) (h : WellFormed letters accounts) {account : Account}
    (hmem : account ∈ accounts) :
    ∃ after ∈ left, after.id = account.id ∧ after.email = account.email ∧
      after.password = account.password ∧
      (account.email = emailOf username config ∧ after.appMetadata = appMetadata ∨
        account.email ≠ emailOf username config ∧ after = account) := by
  cases heffect with
  | @updated found _ hfound hemail hanswer =>
    obtain ⟨after, hafter, hid, hemail', hpassword, hmetadata⟩ :=
      World.exists_mem_updateAccounts hmem found.id appMetadata
    refine ⟨after, hafter, hid, hemail', hpassword, hmetadata.imp ?_ ?_⟩
    · rintro ⟨heq, hmetadata⟩
      rw [h.eq_of_id hmem hfound heq]
      exact ⟨hemail, hmetadata⟩
    · rintro ⟨hne, hafter⟩
      refine ⟨fun heq ↦ hne ?_, hafter⟩
      rw [h.eq_of_email hmem hfound (heq.trans hemail.symm)]
  | taken hfound htaken message =>
    exact ⟨account, hmem, rfl, rfl, rfl, Or.inr ⟨fun heq ↦ hfound ⟨account, hmem, heq⟩, rfl⟩⟩
  | created hfound hfree =>
    exact ⟨account, List.mem_append_left _ hmem, rfl, rfl, rfl,
      Or.inr ⟨fun heq ↦ hfound ⟨account, hmem, heq⟩, rfl⟩⟩

/-- An account after a request was there before, or the request created it. -/
theorem exists_before (heffect : AccountEffect letters accounts (emailOf username config) password
    appMetadata left response) (h : WellFormed letters accounts) {after : Account}
    (hmem : after ∈ left) :
    (∃ account ∈ accounts, account.id = after.id ∧ (after = account ∨
        account.email = emailOf username config ∧ after.appMetadata = appMetadata)) ∨
      ¬ Found accounts (letters.lowerCase (emailOf username config)) ∧
        after = ⟨accounts.length, letters.lowerCase (emailOf username config), password,
          appMetadata⟩ := by
  cases heffect with
  | @updated found _ hfound hemail hanswer =>
    obtain ⟨before, hbefore, hid, -, -, ⟨heq, hmetadata⟩ | ⟨-, rfl⟩⟩ :=
      World.exists_of_mem_updateAccounts hmem
    · refine Or.inl ⟨before, hbefore, hid.symm, Or.inr ⟨?_, hmetadata⟩⟩
      rw [h.eq_of_id hbefore hfound heq]
      exact hemail
    · exact Or.inl ⟨after, hbefore, rfl, Or.inl rfl⟩
  | taken hfound htaken message => exact Or.inl ⟨after, hmem, rfl, Or.inl rfl⟩
  | created hfound hfree =>
    rcases List.mem_append.mp hmem with hmem | hmem
    · exact Or.inl ⟨after, hmem, rfl, Or.inl rfl⟩
    · exact Or.inr ⟨hfree, List.mem_singleton.mp hmem⟩

/-- The response is a session of an account of the e-mail exactly when an account has the e-mail
itself and the password, or none has its lower-case form. -/
theorem session_iff {email : String}
    (heffect : AccountEffect letters accounts email password appMetadata left response)
    (h : WellFormed letters accounts) :
    (∃ session, response = .session session ∧ ∃ account ∈ left,
        account.id = session.user ∧ account.email = letters.lowerCase email) ↔
      (∃ account ∈ accounts, account.email = email ∧ account.password = password) ∨
        ¬ Found accounts (letters.lowerCase email) := by
  cases heffect with
  | @updated found response hfound hemail hanswer =>
    have hlower : letters.lowerCase email = email := hemail ▸ h.lower found hfound
    rw [hlower] at hanswer ⊢
    constructor
    · rintro ⟨session, rfl, -⟩
      obtain ⟨account, hmem, hsame, hpassword, -⟩ := hanswer
      exact Or.inl ⟨account, hmem, hsame, hpassword⟩
    · rintro (⟨account, hmem, hsame, hpassword⟩ | hno)
      · cases response with
        | user id => exact hanswer.elim
        | session session =>
          obtain ⟨other, hother, hotherEmail, -, hid⟩ := hanswer
          obtain ⟨after, hafter, hid', hafterEmail, -⟩ :=
            World.exists_mem_updateAccounts hother found.id appMetadata
          exact ⟨session, rfl, after, hafter, hid'.trans hid.symm, hafterEmail.trans hotherEmail⟩
        | createError message => exact absurd hpassword (hanswer account hmem hsame)
      · exact absurd ⟨found, hfound, hemail⟩ hno
  | taken hfound htaken message =>
    constructor
    · rintro ⟨session, heq, -⟩
      cases heq
    · rintro (⟨account, hmem, hemail, -⟩ | hno)
      · exact absurd ⟨account, hmem, hemail⟩ hfound
      · exact absurd htaken hno
  | created hfound hfree =>
    exact ⟨fun _ ↦ Or.inr hfree,
      fun _ ↦ ⟨_, rfl, _, List.mem_append_right _ (List.mem_singleton_self _), rfl, rfl⟩⟩

end AccountEffect

/-- An event leaves the accounts alone, or it is a request that is admitted and has its effect. -/
theorem step_cases (event : SignInEvent) (world : World) :
    ((step letters event world).accounts = world.accounts ∧
        ∀ request config, event = .signIn request → ¬ Admitted world request config) ∨
      ∃ request config appMetadata response, event = .signIn request ∧
        Admitted world request config ∧ appMetadata.BelongsTo request.caUser ∧
        (serve letters request world).1 = .ok response ∧
        AccountEffect letters world.accounts (emailOf request.username config) request.password
          appMetadata (step letters event world).accounts response := by
  cases event with
  | signIn request =>
    rcases @serve_cases letters request world with
      ⟨config, appMetadata, response, hadmitted, hbelongs, hserve, heffect⟩ | ⟨hno, haccounts, -⟩
    · exact Or.inr ⟨request, config, appMetadata, response, rfl, hadmitted, hbelongs, hserve,
        heffect⟩
    · refine Or.inl ⟨haccounts, ?_⟩
      rintro _ config ⟨⟩ hadmitted
      exact hno ⟨config, hadmitted⟩
  | register caname username registration =>
    exact Or.inl ⟨rfl, fun request config heq ↦ by cases heq⟩

theorem wellFormed_worldAfter (history : List SignInEvent) :
    WellFormed letters (worldAfter letters history).accounts := by
  induction history with
  | nil => exact ⟨rfl, List.nodup_nil, fun account hmem ↦ by cases hmem⟩
  | cons event earlier ih =>
    change WellFormed letters (step letters event (worldAfter letters earlier)).accounts
    rcases @step_cases letters event (worldAfter letters earlier) with
      ⟨haccounts, -⟩ | ⟨request, config, appMetadata, response, -, -, -, -, heffect⟩
    · rw [haccounts]
      exact ih
    · exact heffect.wellFormed ih

/-! ### Who created an account -/

def HasId (accounts : List Account) (id : UserId) : Prop := ∃ account ∈ accounts, account.id = id

variable (letters) in
/-- The account did not exist before this request of the history, and it existed after it. -/
def CreatedBy : List SignInEvent → UserId → Request → Prop
  | [], _, _ => False
  | event :: earlier, id, request =>
    CreatedBy earlier id request ∨
      event = .signIn request ∧ ¬ HasId (worldAfter letters earlier).accounts id ∧
        HasId (worldAfter letters (event :: earlier)).accounts id

/-- The account that a request created keeps its id, the password of the request and the lower-case
form of its e-mail. -/
theorem CreatedBy.exists_account {history : List SignInEvent} {id : UserId} {first : Request}
    (h : CreatedBy letters history id first) :
    ∃ account ∈ (worldAfter letters history).accounts, account.id = id ∧
      account.password = first.password ∧ ∃ config ∈ orgs, config.msp = first.msp ∧
        account.email = emailOf (letters.lowerCase first.username) config := by
  induction history with
  | nil => exact h.elim
  | cons event earlier ih =>
    have hcases := @step_cases letters event (worldAfter letters earlier)
    rcases h with h | ⟨rfl, hbefore, account, hmem, hid⟩
    · obtain ⟨account, hmem, hid, hpassword, config, hconfig, hmsp, hemail⟩ := ih h
      rcases hcases with
        ⟨haccounts, -⟩ | ⟨request, config', appMetadata, response, -, -, -, -, heffect⟩
      · exact ⟨account, haccounts ▸ hmem, hid, hpassword, config, hconfig, hmsp, hemail⟩
      · obtain ⟨after, hafter, hid', hemail', hpassword', -⟩ :=
          heffect.exists_after (wellFormed_worldAfter earlier) hmem
        exact ⟨after, hafter, hid'.trans hid, hpassword'.trans hpassword, config, hconfig, hmsp,
          hemail'.trans hemail⟩
    · rcases hcases with
        ⟨haccounts, -⟩ | ⟨request, config, appMetadata, response, heq, hadmitted, -, -, heffect⟩
      · exact absurd ⟨account, haccounts ▸ hmem, hid⟩ hbefore
      · cases heq
        rcases heffect.exists_before (wellFormed_worldAfter earlier) hmem with
          ⟨before, hmem', hid', -⟩ | ⟨-, rfl⟩
        · exact absurd ⟨before, hmem', hid'.trans hid⟩ hbefore
        · exact ⟨_, hmem, hid, rfl, config, hadmitted.config_mem, hadmitted.msp,
            lowerCase_emailOf letters _ hadmitted.config_mem⟩

theorem exists_createdBy {history : List SignInEvent} {id : UserId}
    (h : HasId (worldAfter letters history).accounts id) :
    ∃ first, CreatedBy letters history id first := by
  induction history with
  | nil =>
    obtain ⟨account, hmem, -⟩ := h
    cases hmem
  | cons event earlier ih =>
    by_cases hbefore : HasId (worldAfter letters earlier).accounts id
    · obtain ⟨first, hfirst⟩ := ih hbefore
      exact ⟨first, Or.inl hfirst⟩
    · rcases @step_cases letters event (worldAfter letters earlier) with
        ⟨haccounts, -⟩ | ⟨request, config, appMetadata, response, rfl, -⟩
      · obtain ⟨account, hmem, hid⟩ := h
        exact absurd ⟨account, haccounts ▸ hmem, hid⟩ hbefore
      · exact ⟨request, Or.inr ⟨rfl, hbefore, h⟩⟩

/-- An account is created once. -/
theorem CreatedBy.unique {history : List SignInEvent} {id : UserId} {first other : Request}
    (h : CreatedBy letters history id first) (hother : CreatedBy letters history id other) :
    first = other := by
  have hasId {history : List SignInEvent} {first : Request}
      (h : CreatedBy letters history id first) :
      HasId (worldAfter letters history).accounts id := by
    obtain ⟨account, hmem, hid, -⟩ := h.exists_account
    exact ⟨account, hmem, hid⟩
  induction history with
  | nil => exact h.elim
  | cons event earlier ih =>
    rcases h with h | ⟨heq, hbefore, -⟩ <;> rcases hother with hother | ⟨heq', hbefore', -⟩
    · exact ih h hother
    · exact absurd (hasId h) hbefore'
    · exact absurd (hasId hother) hbefore
    · exact SignInEvent.signIn.inj (heq.symm.trans heq')

/-- An account has the e-mail of a user exactly when the user's name is the lower-case form of the
name that created it, at the same MSP. -/
theorem CreatedBy.email_eq_iff {history : List SignInEvent} {account : Account} {first : Request}
    (h : CreatedBy letters history account.id first)
    (hmem : account ∈ (worldAfter letters history).accounts) {username : String}
    {config : OrgConfig} (hconfig : config ∈ orgs) :
    account.email = emailOf username config ↔
      first.msp = config.msp ∧ letters.lowerCase first.username = username := by
  obtain ⟨account', hmem', hid, -, config', hconfig', hmsp, hemail⟩ := h.exists_account
  rw [(wellFormed_worldAfter history).eq_of_id hmem' hmem hid] at hemail
  rw [hemail]
  constructor
  · intro heq
    obtain ⟨husername, rfl⟩ := emailOf_inj hconfig' hconfig heq
    exact ⟨hmsp.symm, husername⟩
  · rintro ⟨hmsp', rfl⟩
    rw [config_eq_of_msp config' hconfig' config hconfig (hmsp.trans hmsp')]

/-! ### Isolation -/

variable (letters) in
/-- The credentials of every account belong to the user for whom it was created, and the last
request left the accounts of other users as they were. -/
structure Isolated (history : List SignInEvent) : Prop where
  belongs : ∀ account ∈ (worldAfter letters history).accounts, ∃ first,
    CreatedBy letters history account.id first ∧ account.appMetadata.BelongsTo first.caUser
  undisturbed : ∀ request earlier, history = .signIn request :: earlier →
    ∀ account ∈ (worldAfter letters earlier).accounts, ∀ first,
      CreatedBy letters earlier account.id first → first.caUser ≠ request.caUser →
      account ∈ (worldAfter letters history).accounts

variable (letters) in
/-- An admitted request finds the account of another user, whose name has the name of the request as
its lower-case form. -/
def Usurps (event : SignInEvent) (earlier : List SignInEvent) : Prop :=
  ∃ request config, event = .signIn request ∧
    Admitted (worldAfter letters earlier) request config ∧
    ∃ id first, CreatedBy letters earlier id first ∧ first.msp = request.msp ∧
      letters.lowerCase first.username = request.username ∧ first.username ≠ request.username

/-- The account that a request finds, where it does not usurp, was created by the same user. -/
theorem CreatedBy.caUser_eq {earlier : List SignInEvent} {account : Account}
    {first request : Request} {config : OrgConfig} (h : CreatedBy letters earlier account.id first)
    (hmem : account ∈ (worldAfter letters earlier).accounts)
    (hadmitted : Admitted (worldAfter letters earlier) request config)
    (hno : ¬ Usurps letters (.signIn request) earlier)
    (hemail : account.email = emailOf request.username config) :
    first.caUser = request.caUser := by
  obtain ⟨hmsp, hlower⟩ := (h.email_eq_iff hmem hadmitted.config_mem).mp hemail
  rw [hadmitted.msp] at hmsp
  by_contra hne
  refine hno ⟨request, config, rfl, hadmitted, account.id, first, h, hmsp, hlower, fun heq ↦ hne ?_⟩
  rw [Request.caUser, Request.caUser, hmsp, heq]

/-- A step that does not usurp keeps the accounts isolated. -/
theorem Isolated.cons {event : SignInEvent} {earlier : List SignInEvent}
    (h : Isolated letters earlier) (hno : ¬ Usurps letters event earlier) :
    Isolated letters (event :: earlier) := by
  rcases @step_cases letters event (worldAfter letters earlier) with
    ⟨haccounts, -⟩ | ⟨request, config, appMetadata, response, rfl, hadmitted, hbelongs, -, heffect⟩
  · refine ⟨fun account hmem ↦ ?_, fun request earlier' heq account hmem first _ _ ↦ ?_⟩
    · obtain ⟨first, hfirst, hown⟩ := h.belongs account (haccounts ▸ hmem)
      exact ⟨first, Or.inl hfirst, hown⟩
    · cases heq
      exact haccounts.symm ▸ hmem
  · have hwell := @wellFormed_worldAfter letters earlier
    refine ⟨fun account hmem ↦ ?_, fun request' earlier' heq account hmem first hfirst hne ↦ ?_⟩
    · rcases heffect.exists_before hwell hmem with
        ⟨before, hbefore, hid, rfl | ⟨hemail, hmetadata⟩⟩ | ⟨hfree, rfl⟩
      · obtain ⟨first, hfirst, hown⟩ := h.belongs account hbefore
        exact ⟨first, Or.inl hfirst, hown⟩
      · obtain ⟨first, hfirst, -⟩ := h.belongs before hbefore
        refine ⟨first, Or.inl (hid ▸ hfirst), ?_⟩
        rw [hmetadata, hfirst.caUser_eq hbefore hadmitted hno hemail]
        exact hbelongs
      · refine ⟨request, Or.inr ⟨rfl, ?_, _, hmem, rfl⟩, hbelongs⟩
        rintro ⟨before, hbefore, hid⟩
        exact absurd (hwell.id_lt hbefore) (hid ▸ lt_irrefl _)
    · cases heq
      obtain ⟨after, hafter, -, -, -, ⟨hemail, -⟩ | ⟨-, rfl⟩⟩ := heffect.exists_after hwell hmem
      · exact absurd (hfirst.caUser_eq hmem hadmitted hno hemail) hne
      · exact hafter

/-- After a step that usurps, an account has the credentials of another user. -/
theorem Usurps.not_isolated {event : SignInEvent} {earlier : List SignInEvent}
    (h : Usurps letters event earlier) : ¬ Isolated letters (event :: earlier) := by
  obtain ⟨request, config, rfl, hadmitted, id, first, hfirst, hmsp, hlower, hne⟩ := h
  intro hisolated
  obtain ⟨account, hmem, rfl, -⟩ := hfirst.exists_account
  have hemail : account.email = emailOf request.username config :=
    (hfirst.email_eq_iff hmem hadmitted.config_mem).mpr ⟨hmsp.trans hadmitted.msp.symm, hlower⟩
  obtain ⟨appMetadata, response, hbelongs, -, heffect⟩ :=
    @Admitted.exists_effect letters _ _ _ hadmitted
  obtain ⟨after, hafter, hid, -, -, ⟨-, hmetadata⟩ | ⟨hne', -⟩⟩ :=
    heffect.exists_after (wellFormed_worldAfter earlier) hmem
  · obtain ⟨first', hfirst', hown⟩ := hisolated.belongs after hafter
    rw [hid] at hfirst'
    rw [hmetadata, hfirst'.unique (Or.inl hfirst)] at hown
    exact hne (congrArg CAUser.username (hown.unique hbelongs))
  · exact hne' hemail

/-- The credentials of every account belong to the user for whom it was created, at every moment of
a history, exactly when no request of it usurps an account. -/
theorem isolated_iff (letters : LetterCase) (history : List SignInEvent) :
    Throughout (Isolated letters) history ↔
      EveryEvent (fun event earlier ↦ ¬ Usurps letters event earlier) history := by
  have hnil : Isolated letters [] := by
    refine ⟨fun account hmem ↦ ?_, fun request earlier heq ↦ ?_⟩
    · cases hmem
    · cases heq
  refine throughout_iff_everyEvent hnil (fun event earlier hearlier ↦ ?_) history
  exact ⟨fun hisolated husurps ↦ husurps.not_isolated hisolated,
    fun hno ↦ (hearlier earlier List.suffix_rfl).cons hno⟩

/-! ### Service -/

variable (letters) in
/-- The request ends with a session of the account of its user name and domain. -/
def Served (request : Request) (config : OrgConfig) (world : World) : Prop :=
  ∃ session, (serve letters request world).1 = .ok (.session session) ∧
    ∃ account ∈ (serve letters request world).2.accounts, account.id = session.user ∧
      account.email = letters.lowerCase (emailOf request.username config)

/-- The accounts of an e-mail, by the requests that created them. -/
theorem exists_account_iff {history : List SignInEvent} {username : String} {config : OrgConfig}
    (hconfig : config ∈ orgs) (property : String → Prop) :
    (∃ account ∈ (worldAfter letters history).accounts,
        account.email = emailOf username config ∧ property account.password) ↔
      ∃ id first, CreatedBy letters history id first ∧ first.msp = config.msp ∧
        letters.lowerCase first.username = username ∧ property first.password := by
  constructor
  · rintro ⟨account, hmem, hemail, hproperty⟩
    obtain ⟨first, hfirst⟩ := exists_createdBy ⟨account, hmem, rfl⟩
    obtain ⟨hmsp, hlower⟩ := (hfirst.email_eq_iff hmem hconfig).mp hemail
    obtain ⟨account', hmem', hid, hpassword, -⟩ := hfirst.exists_account
    rw [(wellFormed_worldAfter history).eq_of_id hmem' hmem hid] at hpassword
    exact ⟨account.id, first, hfirst, hmsp, hlower, hpassword ▸ hproperty⟩
  · rintro ⟨id, first, hfirst, hmsp, hlower, hproperty⟩
    obtain ⟨account, hmem, rfl, hpassword, -⟩ := hfirst.exists_account
    exact ⟨account, hmem, (hfirst.email_eq_iff hmem hconfig).mpr ⟨hmsp, hlower⟩,
      hpassword ▸ hproperty⟩

/-- What the accounts decide about an admitted request: one has exactly its e-mail and its password,
or none has its e-mail in lower case. -/
theorem served_iff_accounts {history : List SignInEvent} {request : Request} {config : OrgConfig}
    (hadmitted : Admitted (worldAfter letters history) request config) :
    Served letters request config (worldAfter letters history) ↔
      (∃ account ∈ (worldAfter letters history).accounts,
          account.email = emailOf request.username config ∧
          account.password = request.password) ∨
        ¬ Found (worldAfter letters history).accounts
          (letters.lowerCase (emailOf request.username config)) := by
  obtain ⟨appMetadata, response, -, hserve, heffect⟩ :=
    @Admitted.exists_effect letters _ _ _ hadmitted
  rw [← heffect.session_iff (wellFormed_worldAfter history), Served, hserve]
  simp only [Except.ok.injEq]

/-- A request that the CA admits is served exactly when the account of its name was created with its
password and under a name whose lower-case form is its own, or no account was created yet for a name
of that lower-case form. -/
theorem served_iff (letters : LetterCase) {history : List SignInEvent} {request : Request}
    {config : OrgConfig} (hadmitted : Admitted (worldAfter letters history) request config) :
    Served letters request config (worldAfter letters history) ↔
      (∃ id first, CreatedBy letters history id first ∧ first.msp = request.msp ∧
          letters.lowerCase first.username = request.username ∧
          first.password = request.password) ∨
        ∀ id first, CreatedBy letters history id first → first.msp = request.msp →
          letters.lowerCase first.username ≠ letters.lowerCase request.username := by
  rw [served_iff_accounts hadmitted, exists_account_iff hadmitted.config_mem (· = request.password),
    hadmitted.msp, lowerCase_emailOf letters _ hadmitted.config_mem]
  have hfound := @exists_account_iff letters history
    (letters.lowerCase request.username) config hadmitted.config_mem fun _ ↦ True
  simp only [and_true, hadmitted.msp] at hfound
  rw [Found, hfound]
  simp only [not_exists, not_and]

/-! ### Two users of the first school -/

theorem toLower_toLower (c : Char) : c.toLower.toLower = c.toLower := by
  by_cases h : c.val ≥ 'A'.val ∧ c.val ≤ 'Z'.val
  · have hlower : c.toLower.val = c.val + ('a'.val - 'A'.val) := congrArg Char.val (dif_pos h)
    have hno : ¬ (c.toLower.val ≥ 'A'.val ∧ c.toLower.val ≤ 'Z'.val) := by
      rw [hlower]
      simp only [UInt32.le_iff_toNat_le, UInt32.toNat_add] at h ⊢
      have hA : 'A'.val.toNat = 65 := rfl
      have hZ : 'Z'.val.toNat = 90 := rfl
      have hshift : ('a'.val - 'A'.val).toNat = 32 := rfl
      omega
    exact dif_neg hno
  · have hself : c.toLower = c := dif_neg h
    rw [hself, hself]

/-- Lower case on ASCII. -/
def asciiCase : LetterCase := ⟨Char.toLower, toLower_toLower, fun _ _ ↦ rfl⟩

/-- The CA of the first school registers its registrar. -/
def registrar : SignInEvent := .register "ca-school1" "admin" (some ⟨"adminpw", .ok ""⟩)

/-- The CA of the first school registers a user, or gives the user another password. -/
def registration (username secret : String) : SignInEvent :=
  .register "ca-school1" username (some ⟨secret, .ok "school1"⟩)

def requestAs (username password : String) : Request := ⟨none, "School1MSP", username, password⟩

/-- Two users whose names differ by a capital have signed in, the one with the capital first. -/
def namesakes : List SignInEvent :=
  [.signIn (requestAs "alice" "a"), .signIn (requestAs "Alice" "A"), registration "alice" "a",
    registration "Alice" "A", registrar]

/-- The account that Alice created holds the credentials of alice. -/
theorem not_throughout_isolated_namesakes :
    CreatedBy asciiCase namesakes 0 (requestAs "Alice" "A") ∧
      (worldAfter asciiCase namesakes).accounts.map (·.appMetadata.certificate.subject) =
        ["alice"] ∧
      ¬ Throughout (Isolated asciiCase) namesakes := by
  have hcreated : CreatedBy asciiCase namesakes.tail 0 (requestAs "Alice" "A") :=
    Or.inr ⟨rfl, by unfold HasId; decide +kernel, by unfold HasId; decide +kernel⟩
  have hadmitted : Admitted (worldAfter asciiCase namesakes.tail) (requestAs "alice" "a") school1 :=
    ⟨by decide, rfl, rfl, Or.inl (by decide +kernel), by unfold World.Accepts; decide +kernel,
      ⟨"alice", "school1", "ca-school1"⟩, rfl⟩
  have husurps : Usurps asciiCase (.signIn (requestAs "alice" "a")) namesakes.tail :=
    ⟨_, school1, rfl, hadmitted, 0, _, hcreated, rfl, by decide +kernel, by decide⟩
  exact ⟨Or.inl hcreated, by decide +kernel,
    fun h ↦ husurps.not_isolated (h namesakes List.suffix_rfl)⟩

/-- A user has signed in, and got another password since. -/
def rotation : List SignInEvent :=
  [registration "alice" "new", .signIn (requestAs "alice" "old"), registration "alice" "old",
    registrar]

/-- The user of an account signs in again with the same password, and is served. -/
theorem served_again :
    Served asciiCase (requestAs "alice" "old") school1
      (worldAfter asciiCase rotation.tail) := by
  have hadmitted : Admitted (worldAfter asciiCase rotation.tail) (requestAs "alice" "old")
      school1 :=
    ⟨by decide, rfl, rfl, Or.inl (by decide +kernel), by unfold World.Accepts; decide +kernel,
      ⟨"alice", "school1", "ca-school1"⟩, rfl⟩
  have hcreated : CreatedBy asciiCase rotation.tail 0 (requestAs "alice" "old") :=
    Or.inr ⟨rfl, by unfold HasId; decide +kernel, by unfold HasId; decide +kernel⟩
  exact (served_iff asciiCase hadmitted).mpr
    (Or.inl ⟨0, requestAs "alice" "old", hcreated, rfl, by decide +kernel, rfl⟩)

/-- The CA admits the user with the new password, and Supabase refuses it. -/
theorem not_served_rotation :
    Admitted (worldAfter asciiCase rotation) (requestAs "alice" "new") school1 ∧
      (serve asciiCase (requestAs "alice" "new") (worldAfter asciiCase rotation)).1 =
        .ok (.createError "登录失败: \"Invalid login credentials\"") ∧
      ¬ Served asciiCase (requestAs "alice" "new") school1 (worldAfter asciiCase rotation) := by
  have hadmitted : Admitted (worldAfter asciiCase rotation) (requestAs "alice" "new") school1 :=
    ⟨by decide, rfl, rfl, Or.inl (by decide +kernel), by unfold World.Accepts; decide +kernel,
      ⟨"alice", "school1", "ca-school1"⟩, rfl⟩
  have hserve : (serve asciiCase (requestAs "alice" "new") (worldAfter asciiCase rotation)).1 =
      .ok (.createError "登录失败: \"Invalid login credentials\"") := by
    decide +kernel
  refine ⟨hadmitted, hserve, ?_⟩
  rintro ⟨session, hsession, -⟩
  rw [hserve] at hsession
  cases hsession

end StudentStatus.Web
