import StudentStatus.Interaction.History
import StudentStatus.Interaction.Program
import StudentStatus.Json.Stringify
import Mathlib.Data.List.Nodup

/-!
# Signing in

`sign-in.ts`, `ca-client.ts` and `get_user_id_by_email`. The handler enrols the user with the CA of
the MSP, looks for an account of `username@domain`, creates it or replaces its application metadata,
and then signs in at Supabase with the password of the request. It is a program over the calls of
the CAs and of Supabase, which answer from a `World`: what the CAs have registered, and the
accounts.

Supabase keeps an e-mail in lower case and refuses a second account of the same e-mail, and signing
in compares in lower case, while `get_user_id_by_email` compares the text. `serve_cases` says what
a request does to the accounts: nothing, new metadata for the account whose e-mail is exactly that
of the request, or a new account where its lower-case form was free.
-/

set_option autoImplicit false
set_option relaxedAutoImplicit false

namespace StudentStatus.Web

open Interaction Json

/-! ### Configuration -/

/-- A CA with the credentials of its registrar. -/
structure CAConfig where
  url : String
  name : String
  user : String
  passwd : String
  deriving DecidableEq

structure OrgConfig where
  domain : String
  msp : String
  ca : CAConfig
  deriving DecidableEq

def school1 : OrgConfig where
  domain := "school1.edu.cn"
  msp := "School1MSP"
  ca := ⟨"https://ca.school1.edu.cn:7064", "ca-school1", "admin", "adminpw"⟩

def school2 : OrgConfig where
  domain := "school2.edu.cn"
  msp := "School2MSP"
  ca := ⟨"https://ca.school2.edu.cn:7074", "ca-school2", "admin", "adminpw"⟩

def bureau : OrgConfig where
  domain := "bureau.edu.cn"
  msp := "EducationBureauMSP"
  ca := ⟨"https://ca.bureau.edu.cn:7054", "ca-bureau", "admin", "adminpw"⟩

/-- `Object.values(NetworkConfig.orgs)` -/
def orgs : List OrgConfig := [school1, school2, bureau]

/-! ### Calls -/

abbrev UserId := ℕ

/-- A certificate by the CA that issued it, the enrolment ID in its subject, and its key pair. -/
structure Certificate where
  issuer : String
  subject : String
  publicKey : ℕ
  deriving DecidableEq

/-- What enrolling returns: a certificate and the private key of its key pair. -/
structure Enrollment where
  certificate : Certificate
  key : ℕ
  deriving DecidableEq

/-- An identity as the identity service of a CA describes it. -/
structure CAIdentity where
  id : String
  affiliation : String
  caname : String
  deriving DecidableEq

/-- The application metadata of an account. -/
structure AppMetadata where
  msp : String
  certificate : Certificate
  key : ℕ
  identity : CAIdentity
  deriving DecidableEq

structure Session where
  user : UserId
  deriving DecidableEq

/-- The calls of the handler and of `getCAClient`. -/
inductive SignInCall : Type
  | serverSupabaseUser
  | cacheHas (url : String)
  | cacheSet (url : String)
  | enroll (caname enrollmentID enrollmentSecret : String)
  | getOne (caname enrollmentID : String)
  | getUserIdByEmail (userEmail : String)
  | createUser (email password : String) (appMetadata : AppMetadata)
  | updateUserById (id : UserId) (appMetadata : AppMetadata)
  | signInWithPassword (email password : String)

/-- What a call returns: the user by its id, `userId.data`, and else a value or an error message. -/
@[reducible] def SignInReply : SignInCall → Type
  | .serverSupabaseUser => Option UserId
  | .cacheHas _ => Bool
  | .cacheSet _ => Unit
  | .enroll _ _ _ => Except String Enrollment
  | .getOne _ _ => Except String CAIdentity
  | .getUserIdByEmail _ => Option UserId
  | .createUser _ _ _ => Except String Unit
  | .updateUserById _ _ => Except String Unit
  | .signInWithPassword _ _ => Except String Session

/-- What the handler throws. -/
inductive SignInError : Type
  | mspNotExists
  | ca (message : String)
  deriving DecidableEq

/-- What the handler returns. -/
inductive SignInResponse : Type
  | user (id : UserId)
  | session (session : Session)
  | createError (message : String)
  deriving DecidableEq

abbrev SignInProgram := Program SignInCall SignInReply SignInError

/-! ### The handler -/

def send (request : SignInCall) : SignInProgram (SignInReply request) := Program.ask request

/-- Ask a CA to enrol; its error is thrown. -/
def enroll (caname enrollmentID enrollmentSecret : String) : SignInProgram Enrollment := do
  let resp : Except String Enrollment ← send (.enroll caname enrollmentID enrollmentSecret)
  match resp with
  | .ok resp => pure resp
  | .error message => Program.raise (.ca message)

/-- The client of a CA, with its registrar enrolled once. -/
def getCAClient (config : OrgConfig) : SignInProgram Unit := do
  let cached : Bool ← send (.cacheHas config.ca.url)
  if cached then pure ()
  else do
    let _ ← enroll config.ca.name config.ca.user config.ca.passwd
    send (.cacheSet config.ca.url)

/-- The part of the handler that asks the CA, for the metadata of an account; an error carries the
messages of the identity service. -/
def authenticate (config : OrgConfig) (username password : String) :
    SignInProgram (Except String AppMetadata) := do
  getCAClient config
  let cert ← enroll config.ca.name username password
  let identity : Except String CAIdentity ← send (.getOne config.ca.name username)
  return identity.map fun identity ↦ ⟨config.msp, cert.certificate, cert.key, identity⟩

/-- The last part of the handler. -/
def signInWithPassword (email password : String) : SignInProgram SignInResponse := do
  let signInResult : Except String Session ← send (.signInWithPassword email password)
  match signInResult with
  | .ok session => return .session session
  | .error message => return .createError ("登录失败: " ++ String.ofList (quote (units message)))

/-- The part of the handler that asks Supabase. -/
def signInAccount (email password : String) (appMetadata : AppMetadata) :
    SignInProgram SignInResponse := do
  let userId : Option UserId ← send (.getUserIdByEmail email)
  match userId with
  | none => do
    let userResponse : Except String Unit ← send (.createUser email password appMetadata)
    match userResponse with
    | .error message => return .createError ("创建用户信息失败: " ++ message)
    | .ok _ => signInWithPassword email password
  | some id => do
    -- the result is not looked at
    let _ : Except String Unit ← send (.updateUserById id appMetadata)
    signInWithPassword email password

/-- A request: its query, and the user whose session it carries. -/
structure Request where
  loggedIn : Option UserId
  msp : String
  username : String
  password : String

/-- `NetworkConfig.orgs` by MSP. -/
def Request.config? (request : Request) : Option OrgConfig :=
  orgs.find? fun org ↦ org.msp = request.msp

def emailOf (username : String) (config : OrgConfig) : String := username ++ "@" ++ config.domain

def signIn (request : Request) : SignInProgram SignInResponse :=
  match request.config? with
  | none => Program.raise .mspNotExists
  | some config => do
    let user : Option UserId ← send .serverSupabaseUser
    match user with
    | some id => return .user id
    | none => do
      let appMetadata ← authenticate config request.username request.password
      match appMetadata with
      | .error messages => return .createError ("获取CA Identity失败: " ++ messages)
      | .ok appMetadata =>
        signInAccount (emailOf request.username config) request.password appMetadata

/-! ### The world -/

/-- Lower case, letter by letter: on ASCII as usual, and stable. -/
structure LetterCase where
  lower : Char → Char
  idempotent : ∀ c, lower (lower c) = lower c
  ascii : ∀ c : Char, c.toNat < 128 → lower c = c.toLower

def LetterCase.lowerCase (letters : LetterCase) (s : String) : String :=
  String.ofList (s.toList.map letters.lower)

/-- A user as a CA has registered it. -/
structure Registration where
  secret : String
  /-- The affiliation that the identity service reports, or the messages with which it fails. -/
  affiliation : Except String String

structure Account where
  id : UserId
  email : String
  password : String
  appMetadata : AppMetadata
  deriving DecidableEq

/-- What the CAs and Supabase hold. -/
structure World where
  /-- By the name of the CA and the name of the user, which is case-sensitive. -/
  registrations : String → String → Option Registration
  /-- The number of key pairs made so far. -/
  keys : ℕ
  /-- The URLs of the CAs whose clients are cached. -/
  caClients : List String
  accounts : List Account

namespace World

def enroll (caname enrollmentID enrollmentSecret : String) (world : World) :
    Except String Enrollment × World :=
  match world.registrations caname enrollmentID with
  | none => (.error "Authentication failure", world)
  | some registration =>
    if registration.secret = enrollmentSecret then
      (.ok ⟨⟨caname, enrollmentID, world.keys⟩, world.keys⟩, { world with keys := world.keys + 1 })
    else (.error "Authentication failure", world)

def getOne (caname enrollmentID : String) (world : World) : Except String CAIdentity :=
  match world.registrations caname enrollmentID with
  | none => .error "Failed to get User"
  | some registration =>
    registration.affiliation.map fun affiliation ↦ ⟨enrollmentID, affiliation, caname⟩

/-- `select id from auth.users where email = user_email` -/
def getUserIdByEmail (userEmail : String) (world : World) : Option UserId :=
  (world.accounts.find? fun account ↦ account.email = userEmail).map Account.id

variable (letters : LetterCase)

/-- The e-mail is stored in lower case. -/
def createUser (email password : String) (appMetadata : AppMetadata) (world : World) :
    Except String Unit × World :=
  if ∃ account ∈ world.accounts, account.email = letters.lowerCase email then
    (.error "A user with this email address has already been registered", world)
  else
    (.ok (), { world with
      accounts := world.accounts ++
        [⟨world.accounts.length, letters.lowerCase email, password, appMetadata⟩] })

/-- The accounts with new metadata for one of them. -/
def updateAccounts (accounts : List Account) (id : UserId) (appMetadata : AppMetadata) :
    List Account :=
  accounts.map fun account ↦
    if account.id = id then { account with appMetadata := appMetadata } else account

def updateUserById (id : UserId) (appMetadata : AppMetadata) (world : World) : World :=
  { world with accounts := updateAccounts world.accounts id appMetadata }

def signInWithPassword (email password : String) (world : World) : Except String Session :=
  match world.accounts.find? fun account ↦
      account.email = letters.lowerCase email ∧ account.password = password with
  | some account => .ok ⟨account.id⟩
  | none => .error "Invalid login credentials"

/-- The answer to a call of a request that carries the session of `loggedIn`. -/
def respond (loggedIn : Option UserId) : (call : SignInCall) → World → SignInReply call × World
  | .serverSupabaseUser, world => (loggedIn, world)
  | .cacheHas url, world => (decide (url ∈ world.caClients), world)
  | .cacheSet url, world => ((), { world with caClients := url :: world.caClients })
  | .enroll caname enrollmentID enrollmentSecret, world =>
    world.enroll caname enrollmentID enrollmentSecret
  | .getOne caname enrollmentID, world => (world.getOne caname enrollmentID, world)
  | .getUserIdByEmail userEmail, world => (world.getUserIdByEmail userEmail, world)
  | .createUser email password appMetadata, world =>
    world.createUser letters email password appMetadata
  | .updateUserById id appMetadata, world => (.ok (), world.updateUserById id appMetadata)
  | .signInWithPassword email password, world =>
    (world.signInWithPassword letters email password, world)

end World

/-- A sign-in request, or a change of what a CA has registered: a new user, another password, or a
revocation. -/
inductive SignInEvent : Type
  | signIn (request : Request)
  | register (caname username : String) (registration : Option Registration)

variable (letters : LetterCase)

/-- What a request returns, and the world that it leaves. -/
def serve (request : Request) (world : World) : Except SignInError SignInResponse × World :=
  (signIn request).runIn (World.respond letters request.loggedIn) world

def step : SignInEvent → World → World
  | .signIn request, world => (serve letters request world).2
  | .register caname username registration, world =>
    { world with registrations := fun ca user ↦
        if ca = caname ∧ user = username then registration else world.registrations ca user }

/-- The world before any user is registered. -/
def emptyWorld : World := ⟨fun _ _ ↦ none, 0, [], []⟩

/-- The world that a history leaves. -/
def worldAfter (history : List SignInEvent) : World := stateAfter (step letters) emptyWorld history

/-! ### What the CA decides -/

/-- A user of a CA, by the MSP of the CA. -/
structure CAUser where
  msp : String
  username : String
  deriving DecidableEq

def Request.caUser (request : Request) : CAUser := ⟨request.msp, request.username⟩

/-- The metadata is what the CA of the MSP gave to the user. -/
def AppMetadata.BelongsTo (appMetadata : AppMetadata) (user : CAUser) : Prop :=
  ∃ config ∈ orgs, config.msp = user.msp ∧ appMetadata.msp = user.msp ∧
    appMetadata.certificate.issuer = config.ca.name ∧
    appMetadata.certificate.subject = user.username ∧
    appMetadata.key = appMetadata.certificate.publicKey ∧
    appMetadata.identity.id = user.username ∧ appMetadata.identity.caname = config.ca.name

/-- Metadata belongs to one user. -/
theorem AppMetadata.BelongsTo.unique {appMetadata : AppMetadata} {user other : CAUser}
    (huser : appMetadata.BelongsTo user) (hother : appMetadata.BelongsTo other) : user = other := by
  obtain ⟨-, -, -, hmsp, -, hsubject, -⟩ := huser
  obtain ⟨-, -, -, hmsp', -, hsubject', -⟩ := hother
  obtain ⟨msp, username⟩ := user
  obtain ⟨msp', username'⟩ := other
  cases hmsp.symm.trans hmsp'
  cases hsubject.symm.trans hsubject'
  rfl

/-- A CA has registered the user with that secret. -/
def World.Accepts (world : World) (caname enrollmentID enrollmentSecret : String) : Prop :=
  (world.registrations caname enrollmentID).map Registration.secret = some enrollmentSecret

theorem World.enroll_of_accepts {world : World} {caname enrollmentID enrollmentSecret : String}
    (h : world.Accepts caname enrollmentID enrollmentSecret) :
    world.enroll caname enrollmentID enrollmentSecret =
      (.ok ⟨⟨caname, enrollmentID, world.keys⟩, world.keys⟩,
        { world with keys := world.keys + 1 }) := by
  obtain ⟨registration, hregistration, hsecret⟩ := Option.map_eq_some_iff.mp h
  simp [World.enroll, hregistration, hsecret]

theorem World.enroll_of_not_accepts {world : World}
    {caname enrollmentID enrollmentSecret : String}
    (h : ¬ world.Accepts caname enrollmentID enrollmentSecret) :
    world.enroll caname enrollmentID enrollmentSecret =
      (.error "Authentication failure", world) := by
  unfold World.Accepts at h
  unfold World.enroll
  cases hregistration : world.registrations caname enrollmentID with
  | none => rfl
  | some registration => simp_all

/-- An identity that a CA returns is that of the user asked for. -/
theorem World.getOne_eq_ok {world : World} {caname enrollmentID : String} {identity : CAIdentity}
    (h : world.getOne caname enrollmentID = .ok identity) :
    identity.id = enrollmentID ∧ identity.caname = caname := by
  unfold World.getOne at h
  split at h
  · cases h
  · next registration _ =>
    cases haffiliation : registration.affiliation with
    | error messages =>
      rw [haffiliation] at h
      cases h
    | ok affiliation =>
      rw [haffiliation] at h
      cases h
      exact ⟨rfl, rfl⟩

/-- The CA of an organisation accepts the credentials and returns the identity, to a registrar whose
client is cached or can be made. -/
structure Authenticates (world : World) (config : OrgConfig) (username password : String) :
    Prop where
  registrar : config.ca.url ∈ world.caClients ∨
    world.Accepts config.ca.name config.ca.user config.ca.passwd
  accepted : world.Accepts config.ca.name username password
  identified : ∃ identity, world.getOne config.ca.name username = .ok identity

variable {letters} {loggedIn : Option UserId}

theorem runIn_enroll (caname enrollmentID enrollmentSecret : String) (world : World) :
    (enroll caname enrollmentID enrollmentSecret).runIn (World.respond letters loggedIn) world =
      ((world.enroll caname enrollmentID enrollmentSecret).1.mapError .ca,
        (world.enroll caname enrollmentID enrollmentSecret).2) := by
  simp only [enroll, send, Program.runIn_bind, Program.runIn_ask, World.respond]
  cases (world.enroll caname enrollmentID enrollmentSecret).1 <;> rfl

/-- The client of the CA is obtained exactly when it is cached or the registrar can enrol. -/
theorem getCAClient_cases (config : OrgConfig) (world : World) :
    ∃ left : World, left.registrations = world.registrations ∧ left.accounts = world.accounts ∧
      ((config.ca.url ∈ world.caClients ∨
            world.Accepts config.ca.name config.ca.user config.ca.passwd) ∧
          (getCAClient config).runIn (World.respond letters loggedIn) world = (.ok (), left) ∨
        ¬ (config.ca.url ∈ world.caClients ∨
            world.Accepts config.ca.name config.ca.user config.ca.passwd) ∧
          ∃ err, (getCAClient config).runIn (World.respond letters loggedIn) world =
            (.error err, left)) := by
  unfold getCAClient
  by_cases hcached : config.ca.url ∈ world.caClients
  · refine ⟨world, rfl, rfl, Or.inl ⟨Or.inl hcached, ?_⟩⟩
    simp [send, World.respond, hcached]
  by_cases haccepts : world.Accepts config.ca.name config.ca.user config.ca.passwd
  · refine ⟨⟨world.registrations, world.keys + 1, config.ca.url :: world.caClients,
      world.accounts⟩, rfl, rfl, Or.inl ⟨Or.inr haccepts, ?_⟩⟩
    simp [send, World.respond, hcached, runIn_enroll, World.enroll_of_accepts haccepts,
      Except.mapError]
  · refine ⟨world, rfl, rfl, Or.inr ⟨by simp [hcached, haccepts], .ca "Authentication failure", ?_⟩⟩
    simp [send, World.respond, hcached, runIn_enroll, World.enroll_of_not_accepts haccepts,
      Except.mapError]

/-- Metadata is obtained exactly from a CA that authenticates the user, and then it belongs to the
user. The accounts are left alone. -/
theorem authenticate_cases {config : OrgConfig} (hconfig : config ∈ orgs)
    (username password : String) (world : World) :
    ∃ outcome, ∃ left : World, left.accounts = world.accounts ∧
      (authenticate config username password).runIn (World.respond letters loggedIn) world =
        (outcome, left) ∧
      (Authenticates world config username password ∧
          (∃ appMetadata, outcome = .ok (.ok appMetadata) ∧
            appMetadata.BelongsTo ⟨config.msp, username⟩) ∨
        ¬ Authenticates world config username password ∧
          ∀ appMetadata, outcome ≠ .ok (.ok appMetadata)) := by
  obtain ⟨left, hregistrations, haccounts, ⟨hregistrar, hrun⟩ | ⟨hregistrar, err, hrun⟩⟩ :=
    @getCAClient_cases letters loggedIn config world
  · have haccepts : left.Accepts config.ca.name username password ↔
        world.Accepts config.ca.name username password := by
      unfold World.Accepts
      rw [hregistrations]
    by_cases haccepted : world.Accepts config.ca.name username password
    · have hone : World.getOne config.ca.name username { left with keys := left.keys + 1 } =
          world.getOne config.ca.name username := by
        unfold World.getOne
        rw [hregistrations]
      refine ⟨.ok ((world.getOne config.ca.name username).map fun identity ↦
          ⟨config.msp, ⟨config.ca.name, username, left.keys⟩, left.keys, identity⟩),
        { left with keys := left.keys + 1 }, haccounts, ?_, ?_⟩
      · simp [authenticate, hrun, runIn_enroll, World.enroll_of_accepts (haccepts.mpr haccepted),
          Except.mapError, send, World.respond, hone]
      · cases hfound : world.getOne config.ca.name username with
        | error messages =>
          refine Or.inr ⟨fun h ↦ ?_, fun appMetadata heq ↦ ?_⟩
          · obtain ⟨identity, hidentity⟩ := h.identified
            rw [hfound] at hidentity
            cases hidentity
          · cases heq
        | ok identity =>
          obtain ⟨hid, hcaname⟩ := World.getOne_eq_ok hfound
          exact Or.inl ⟨⟨hregistrar, haccepted, identity, hfound⟩, _, rfl, config, hconfig, rfl,
            rfl, rfl, rfl, rfl, hid, hcaname⟩
    · refine ⟨.error (.ca "Authentication failure"), left, haccounts, ?_,
        Or.inr ⟨fun h ↦ haccepted h.accepted, fun appMetadata heq ↦ ?_⟩⟩
      · simp [authenticate, hrun, runIn_enroll, Except.mapError,
          World.enroll_of_not_accepts (haccepts.not.mpr haccepted)]
      · cases heq
  · refine ⟨.error err, left, haccounts, ?_, Or.inr ⟨fun h ↦ hregistrar h.registrar, ?_⟩⟩
    · simp [authenticate, hrun]
    · rintro appMetadata heq
      cases heq

/-! ### What Supabase decides -/

/-- Some account has that e-mail. -/
def Found (accounts : List Account) (email : String) : Prop :=
  ∃ account ∈ accounts, account.email = email

/-- The response of a sign-in by password: a session of an account that has both, else an error. -/
def AnswersPassword (accounts : List Account) (email password : String) :
    SignInResponse → Prop
  | .session session => ∃ account ∈ accounts, account.email = email ∧
      account.password = password ∧ session.user = account.id
  | .createError _ => ∀ account ∈ accounts, account.email = email → account.password ≠ password
  | .user _ => False

variable (letters) in
/-- What the handler does with the accounts for a user whom the CA authenticated, and its
response. -/
inductive AccountEffect (accounts : List Account) (email password : String)
    (appMetadata : AppMetadata) : List Account → SignInResponse → Prop
  | updated {account : Account} {response : SignInResponse} (hmem : account ∈ accounts)
      (hemail : account.email = email)
      (hanswer : AnswersPassword accounts (letters.lowerCase email) password response) :
      AccountEffect accounts email password appMetadata
        (World.updateAccounts accounts account.id appMetadata) response
  | taken (hfound : ¬ Found accounts email) (htaken : Found accounts (letters.lowerCase email))
      (message : String) :
      AccountEffect accounts email password appMetadata accounts (.createError message)
  | created (hfound : ¬ Found accounts email) (hfree : ¬ Found accounts (letters.lowerCase email)) :
      AccountEffect accounts email password appMetadata
        (accounts ++ [⟨accounts.length, letters.lowerCase email, password, appMetadata⟩])
        (.session ⟨accounts.length⟩)

theorem runIn_signInWithPassword (email password : String) (world : World) :
    ∃ response, (signInWithPassword email password).runIn (World.respond letters loggedIn) world =
        (.ok response, world) ∧
      AnswersPassword world.accounts (letters.lowerCase email) password response := by
  simp only [signInWithPassword, send, Program.runIn_bind, Program.runIn_ask, World.respond,
    World.signInWithPassword]
  cases hfind : world.accounts.find? fun account ↦
      account.email = letters.lowerCase email ∧ account.password = password with
  | none =>
    refine ⟨_, rfl, fun account hmem hemail hpassword ↦ ?_⟩
    have hno := List.find?_eq_none.mp hfind account hmem
    simp [hemail, hpassword] at hno
  | some account =>
    have hboth := List.find?_some hfind
    simp only [decide_eq_true_eq] at hboth
    exact ⟨_, rfl, account, List.mem_of_find?_eq_some hfind, hboth.1, hboth.2, rfl⟩

theorem World.getUserIdByEmail_eq_none_iff {world : World} {email : String} :
    world.getUserIdByEmail email = none ↔ ¬ Found world.accounts email := by
  simp [World.getUserIdByEmail, Found]

theorem World.createUser_of_found {email password : String} {appMetadata : AppMetadata}
    {world : World} (h : Found world.accounts (letters.lowerCase email)) :
    world.createUser letters email password appMetadata =
      (.error "A user with this email address has already been registered", world) :=
  if_pos h

theorem World.createUser_of_not_found {email password : String} {appMetadata : AppMetadata}
    {world : World} (h : ¬ Found world.accounts (letters.lowerCase email)) :
    world.createUser letters email password appMetadata = (.ok (), { world with
      accounts := world.accounts ++
        [⟨world.accounts.length, letters.lowerCase email, password, appMetadata⟩] }) :=
  if_neg h

/-- An account with new metadata has the other fields of an account before. -/
theorem World.exists_of_mem_updateAccounts {accounts : List Account} {id : UserId}
    {appMetadata : AppMetadata} {account : Account}
    (h : account ∈ updateAccounts accounts id appMetadata) :
    ∃ before ∈ accounts, account.id = before.id ∧ account.email = before.email ∧
      account.password = before.password ∧
      (before.id = id ∧ account.appMetadata = appMetadata ∨
        before.id ≠ id ∧ account = before) := by
  obtain ⟨before, hmem, rfl⟩ := List.mem_map.mp h
  refine ⟨before, hmem, ?_⟩
  split_ifs with hid
  · exact ⟨rfl, rfl, rfl, Or.inl ⟨hid, rfl⟩⟩
  · exact ⟨rfl, rfl, rfl, Or.inr ⟨hid, rfl⟩⟩

/-- Every account is still there with the fields other than its metadata. -/
theorem World.exists_mem_updateAccounts {accounts : List Account} {account : Account}
    (h : account ∈ accounts) (id : UserId) (appMetadata : AppMetadata) :
    ∃ after ∈ updateAccounts accounts id appMetadata, after.id = account.id ∧
      after.email = account.email ∧ after.password = account.password ∧
      (account.id = id ∧ after.appMetadata = appMetadata ∨ account.id ≠ id ∧ after = account) := by
  refine ⟨_, List.mem_map_of_mem h, ?_⟩
  split_ifs with hid
  · exact ⟨rfl, rfl, rfl, Or.inl ⟨hid, rfl⟩⟩
  · exact ⟨rfl, rfl, rfl, Or.inr ⟨hid, rfl⟩⟩

/-- A response to the password does not depend on the metadata of the accounts. -/
theorem AnswersPassword.of_updateAccounts {accounts : List Account} {id : UserId}
    {appMetadata : AppMetadata} {email password : String} {response : SignInResponse}
    (h : AnswersPassword (World.updateAccounts accounts id appMetadata) email password response) :
    AnswersPassword accounts email password response := by
  cases response with
  | user id => exact h
  | session session =>
    obtain ⟨account, hmem, hemail, hpassword, hid⟩ := h
    obtain ⟨before, hbefore, hid', hemail', hpassword', -⟩ :=
      World.exists_of_mem_updateAccounts hmem
    exact ⟨before, hbefore, hemail' ▸ hemail, hpassword' ▸ hpassword, hid.trans hid'⟩
  | createError message =>
    intro account hmem hemail hpassword
    obtain ⟨after, hafter, -, hemail', hpassword', -⟩ :=
      World.exists_mem_updateAccounts hmem id appMetadata
    exact h after hafter (hemail'.trans hemail) (hpassword'.trans hpassword)

/-- The response to the password of a new account is its session. -/
theorem AnswersPassword.of_append {accounts : List Account} {account : Account}
    {response : SignInResponse} (hfree : ¬ Found accounts account.email)
    (h : AnswersPassword (accounts ++ [account]) account.email account.password response) :
    response = .session ⟨account.id⟩ := by
  cases response with
  | user id => exact h.elim
  | session session =>
    obtain ⟨other, hmem, hemail, -, hid⟩ := h
    rcases List.mem_append.mp hmem with hmem | hmem
    · exact absurd ⟨other, hmem, hemail⟩ hfree
    · rw [List.mem_singleton.mp hmem] at hid
      exact congrArg SignInResponse.session (congrArg Session.mk hid)
  | createError message => exact absurd rfl (h account (by simp) rfl)

/-- The part of the handler that asks Supabase has one of the three effects. -/
theorem runIn_signInAccount (email password : String) (appMetadata : AppMetadata) (world : World) :
    ∃ response, ∃ left : World,
      (signInAccount email password appMetadata).runIn (World.respond letters loggedIn) world =
        (.ok response, left) ∧
      AccountEffect letters world.accounts email password appMetadata left.accounts response := by
  simp only [signInAccount, send, Program.runIn_bind, Program.runIn_ask, World.respond]
  cases hfind : world.getUserIdByEmail email with
  | none =>
    have hfound := World.getUserIdByEmail_eq_none_iff.mp hfind
    by_cases htaken : Found world.accounts (letters.lowerCase email)
    · simp only [Program.runIn_bind, Program.runIn_ask, World.respond,
        World.createUser_of_found htaken]
      exact ⟨_, _, rfl, .taken hfound htaken _⟩
    · simp only [Program.runIn_bind, Program.runIn_ask, World.respond,
        World.createUser_of_not_found htaken]
      obtain ⟨response, hrun, hanswer⟩ := runIn_signInWithPassword email password _
      refine ⟨response, _, hrun, ?_⟩
      rw [hanswer.of_append htaken]
      exact .created hfound htaken
  | some id =>
    obtain ⟨account, haccount, rfl⟩ := Option.map_eq_some_iff.mp hfind
    have hemail := List.find?_some haccount
    simp only [decide_eq_true_eq] at hemail
    simp only [Program.runIn_bind, Program.runIn_ask, World.respond]
    obtain ⟨response, hrun, hanswer⟩ := runIn_signInWithPassword email password _
    exact ⟨response, _, hrun,
      .updated (List.mem_of_find?_eq_some haccount) hemail hanswer.of_updateAccounts⟩

/-! ### What a request does -/

/-- A request reaches the accounts: nobody is logged in, and the CA of its MSP authenticates it. -/
structure Admitted (world : World) (request : Request) (config : OrgConfig) : Prop where
  config_mem : config ∈ orgs
  msp : config.msp = request.msp
  loggedIn : request.loggedIn = none
  authenticates : Authenticates world config request.username request.password

theorem Request.config?_eq_some_iff {request : Request} {config : OrgConfig} :
    request.config? = some config ↔ config ∈ orgs ∧ config.msp = request.msp := by
  have hdistinct : ∀ config ∈ orgs, orgs.find? (fun org ↦ org.msp = config.msp) = some config := by
    decide
  constructor
  · intro h
    exact ⟨List.mem_of_find?_eq_some h, by simpa using List.find?_some h⟩
  · rintro ⟨hmem, hmsp⟩
    rw [Request.config?, ← hmsp]
    exact hdistinct config hmem

theorem Admitted.config?_eq {world : World} {request : Request} {config : OrgConfig}
    (h : Admitted world request config) : request.config? = some config :=
  Request.config?_eq_some_iff.mpr ⟨h.config_mem, h.msp⟩

/-- A request that is admitted has an effect on the accounts, with metadata that belongs to its
user; any other leaves them alone and ends without a session. -/
theorem serve_cases (request : Request) (world : World) :
    (∃ config appMetadata response, Admitted world request config ∧
        appMetadata.BelongsTo request.caUser ∧
        (serve letters request world).1 = .ok response ∧
        AccountEffect letters world.accounts (emailOf request.username config) request.password
          appMetadata (serve letters request world).2.accounts response) ∨
      (¬ ∃ config, Admitted world request config) ∧
        (serve letters request world).2.accounts = world.accounts ∧
        ∀ session, (serve letters request world).1 ≠ .ok (.session session) := by
  unfold serve signIn
  cases hconfig : request.config? with
  | none =>
    refine Or.inr ⟨?_, rfl, fun session heq ↦ by cases heq⟩
    rintro ⟨config, hadmitted⟩
    have hsome := hadmitted.config?_eq
    rw [hconfig] at hsome
    cases hsome
  | some config =>
    obtain ⟨hmem, hmsp⟩ := Request.config?_eq_some_iff.mp hconfig
    simp only [send, Program.runIn_bind, Program.runIn_ask, World.respond]
    cases hloggedIn : request.loggedIn with
    | some id =>
      refine Or.inr ⟨?_, rfl, fun session heq ↦ by cases heq⟩
      rintro ⟨config, hadmitted⟩
      rw [hadmitted.loggedIn] at hloggedIn
      cases hloggedIn
    | none =>
      obtain ⟨outcome, left, haccounts, hrun, ⟨hauth, appMetadata, rfl, hbelongs⟩ | ⟨hauth, hno⟩⟩ :=
        @authenticate_cases letters none config hmem request.username
          request.password world
      · obtain ⟨response, left', hrun', heffect⟩ :=
          @runIn_signInAccount letters none (emailOf request.username config) request.password
            appMetadata left
        rw [haccounts] at heffect
        rw [hmsp] at hbelongs
        refine Or.inl ⟨config, appMetadata, response, ⟨hmem, hmsp, hloggedIn, hauth⟩, hbelongs, ?_⟩
        simp only [Program.runIn_bind, hrun, hrun']
        exact ⟨trivial, heffect⟩
      · have hreject : ¬ ∃ config, Admitted world request config := by
          rintro ⟨config', hadmitted⟩
          have heq := hconfig.symm.trans hadmitted.config?_eq
          cases heq
          exact hauth hadmitted.authenticates
        refine Or.inr ⟨hreject, ?_⟩
        simp only [Program.runIn_bind, hrun]
        cases outcome with
        | error err => exact ⟨haccounts, fun session heq ↦ by cases heq⟩
        | ok appMetadata =>
          cases appMetadata with
          | error messages => exact ⟨haccounts, fun session heq ↦ by cases heq⟩
          | ok appMetadata => exact absurd rfl (hno appMetadata)

/-- An admitted request has its effect with the configuration of its MSP. -/
theorem Admitted.exists_effect {world : World} {request : Request} {config : OrgConfig}
    (h : Admitted world request config) :
    ∃ appMetadata response, appMetadata.BelongsTo request.caUser ∧
      (serve letters request world).1 = .ok response ∧
      AccountEffect letters world.accounts (emailOf request.username config) request.password
        appMetadata (serve letters request world).2.accounts response := by
  rcases @serve_cases letters request world with
    ⟨config', appMetadata, response, hadmitted, hbelongs, hserve, heffect⟩ | ⟨hno, -⟩
  · obtain rfl := Option.some.inj (hadmitted.config?_eq.symm.trans h.config?_eq)
    exact ⟨appMetadata, response, hbelongs, hserve, heffect⟩
  · exact absurd ⟨config, h⟩ hno

end StudentStatus.Web
