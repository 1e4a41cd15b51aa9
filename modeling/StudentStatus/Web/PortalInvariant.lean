import StudentStatus.Web.Portal

/-!
# The invariant of the portal

What holds at every moment of the portal, whatever is interleaved. The accounts are well-formed, and
each of them is attested (`Attested`): the CA of its organisation accepted its password, and issued
its credentials, for users whose name at the organisation has its e-mail as lower-case form. The
network is reachable, no request has two transactions, and a transaction that carries the ticket of
a request is one that the request asks for, submitted as the user of its session (`Authorised`).

A step keeps the accounts apart from their metadata, and what is committed, and it gives a
transaction to no request but the one that takes it (`PortalLink`).
-/

set_option autoImplicit false
set_option relaxedAutoImplicit false

namespace StudentStatus.Web

open Interaction Optimistic Json Chaincode

/-! ### Accounts -/

/-- Every account is still there with its id, e-mail and password. -/
def Kept (before after : List Account) : Prop :=
  ∀ account ∈ before, ∃ kept ∈ after, kept.id = account.id ∧ kept.email = account.email ∧
    kept.password = account.password

theorem Kept.refl (accounts : List Account) : Kept accounts accounts :=
  fun account hmem ↦ ⟨account, hmem, rfl, rfl, rfl⟩

/-- The CA of the organisation accepted the credentials at some moment. -/
def Accepted (past : List (Moment ℕ Portal)) (config : OrgConfig) (username password : String) :
    Prop :=
  ∃ moment ∈ past, moment.state.world.Accepts config.ca.name username password

/-- The account is one of the organisation. The CA accepted its password for a user whose name gives
its e-mail in lower case, and its credentials were issued to such a user, who was accepted too. -/
structure Attested (letters : LetterCase) (past : List (Moment ℕ Portal)) (config : OrgConfig)
    (account : Account) : Prop where
  config_mem : config ∈ orgs
  password : ∃ username, account.email = letters.lowerCase (emailOf username config) ∧
    Accepted past config username account.password
  metadata : ∃ username secret, account.email = letters.lowerCase (emailOf username config) ∧
    Accepted past config username secret ∧ account.appMetadata.BelongsTo ⟨config.msp, username⟩

structure AccountsSound (letters : LetterCase) (past : List (Moment ℕ Portal))
    (accounts : List Account) : Prop where
  wellFormed : WellFormed letters accounts
  attested : ∀ account ∈ accounts, ∃ config, Attested letters past config account

section Accounts

variable {letters : LetterCase} {past : List (Moment ℕ Portal)}

theorem Accepted.cons {config : OrgConfig} {username password : String}
    (h : Accepted past config username password) (moment : Moment ℕ Portal) :
    Accepted (moment :: past) config username password := by
  obtain ⟨earlier, hmem, haccepts⟩ := h
  exact ⟨earlier, List.mem_cons_of_mem _ hmem, haccepts⟩

theorem Attested.cons {config : OrgConfig} {account : Account}
    (h : Attested letters past config account) (moment : Moment ℕ Portal) :
    Attested letters (moment :: past) config account := by
  obtain ⟨hconfig, ⟨username, hemail, haccepted⟩, ⟨owner, secret, hemail', haccepted', hbelongs⟩⟩ :=
    h
  exact ⟨hconfig, ⟨username, hemail, haccepted.cons moment⟩,
    ⟨owner, secret, hemail', haccepted'.cons moment, hbelongs⟩⟩

theorem AccountsSound.cons {accounts : List Account} (h : AccountsSound letters past accounts)
    (moment : Moment ℕ Portal) : AccountsSound letters (moment :: past) accounts where
  wellFormed := h.wellFormed
  attested account hmem := by
    obtain ⟨config, hattested⟩ := h.attested account hmem
    exact ⟨config, hattested.cons moment⟩

end Accounts

/-! ### The network -/

/-- How many transactions of the request are pending. -/
def pendingOf (ticket : ℕ) (network : Network String String Labelled) : ℕ :=
  network.pending.countP fun endorsed ↦ endorsed.tx.1 = some ticket

/-- How many transactions of the request are committed. -/
def committedOf (ticket : ℕ) (network : Network String String Labelled) : ℕ :=
  network.committed.countP fun endorsed ↦ endorsed.tx.1 = some ticket

/-- How many transactions the request has. -/
def transactionsOf (ticket : ℕ) (network : Network String String Labelled) : ℕ :=
  pendingOf ticket network + committedOf ticket network

/-- The command is what the request submits. -/
def PortalRequest.Submits (encode : Option JsValue → Option String) :
    PortalRequest → Command → Prop
  | .signIn _, _ => False
  | .studentPost _ body, command =>
    command = .createStudent (String.ofList (stringify (.object (submittedStudent body))))
  | .studentPatch _ body, command => ∃ id, encode body.id = some id ∧
    command = .updateStudent id (String.ofList (stringify (.object (studentUpdate body))))

/-- The dry run of the request succeeded for the client. -/
def PortalRequest.Rehearsed (deployment : Deployment) (client : ClientIdentity) :
    PortalRequest → Prop
  | .signIn _ => False
  | .studentPost _ body => ∃ now ledger,
    (Gateway.mk deployment.stub client deployment.encode).execute now ledger .createStudent
      [stringified (evaluatedStudent body)] = .ok ""
  | .studentPatch _ body => ∃ now ledger,
    (Gateway.mk deployment.stub client deployment.encode).execute now ledger .updateStudent
      [.value body.id, stringified (studentUpdate body)] = .ok ""

/-- The request asks for the transaction and has rehearsed it, and its client is what the peers read
from the credentials that the account of the session had at some moment. -/
def Authorised (deployment : Deployment) (past : List (Moment ℕ Portal)) (ticket : ℕ)
    (tx : Transaction) : Prop :=
  (deployment.requests ticket).Submits deployment.encode tx.command ∧
    (deployment.requests ticket).Rehearsed deployment tx.client ∧
    ∃ account, some account.id = (deployment.requests ticket).session ∧
      (∃ moment ∈ past, account ∈ moment.state.world.accounts) ∧
      tx.client = deployment.clientOf account.appMetadata.msp account.appMetadata.certificate

structure NetworkSound (deployment : Deployment) (past : List (Moment ℕ Portal))
    (network : Network String String Labelled) : Prop where
  reachable : Optimistic.Reachable (executeLabelled deployment.stub) network
  single : ∀ ticket, transactionsOf ticket network ≤ 1
  labelled : ∀ endorsed ∈ network.pending ++ network.committed, ∀ ticket,
    endorsed.tx.1 = some ticket → (∃ moment ∈ past, moment.actor = some ticket) ∧
      Authorised deployment past ticket endorsed.tx.2

section Networks

variable {deployment : Deployment} {past : List (Moment ℕ Portal)}
  {network : Network String String Labelled}

theorem Authorised.cons {ticket : ℕ} {tx : Transaction} (h : Authorised deployment past ticket tx)
    (moment : Moment ℕ Portal) : Authorised deployment (moment :: past) ticket tx := by
  obtain ⟨hsubmits, hrehearsed, account, hsession, ⟨earlier, hmem, haccount⟩, hclient⟩ := h
  exact ⟨hsubmits, hrehearsed, account, hsession,
    ⟨earlier, List.mem_cons_of_mem _ hmem, haccount⟩, hclient⟩

theorem NetworkSound.cons (h : NetworkSound deployment past network) (moment : Moment ℕ Portal) :
    NetworkSound deployment (moment :: past) network where
  reachable := h.reachable
  single := h.single
  labelled endorsed hmem ticket hlabel := by
    obtain ⟨⟨earlier, hearlier, hactor⟩, hauthorised⟩ := h.labelled endorsed hmem ticket hlabel
    exact ⟨⟨earlier, List.mem_cons_of_mem _ hearlier, hactor⟩, hauthorised.cons moment⟩

/-- A request that has taken no part has no transaction. -/
theorem NetworkSound.transactionsOf_eq_zero (h : NetworkSound deployment past network) {ticket : ℕ}
    (hpast : NotBy ticket past) : transactionsOf ticket network = 0 := by
  have hnone : ∀ endorsed ∈ network.pending ++ network.committed, endorsed.tx.1 ≠ some ticket := by
    intro endorsed hmem hlabel
    obtain ⟨⟨moment, hmoment, hactor⟩, -⟩ := h.labelled endorsed hmem ticket hlabel
    exact hpast moment hmoment hactor
  rw [transactionsOf, pendingOf, committedOf, ← List.countP_append, List.countP_eq_zero]
  simpa using hnone

theorem transactionsOf_eq_zero_iff {ticket : ℕ} : transactionsOf ticket network = 0 ↔
    ∀ endorsed ∈ network.pending ++ network.committed, endorsed.tx.1 ≠ some ticket := by
  rw [transactionsOf, pendingOf, committedOf, ← List.countP_append, List.countP_eq_zero]
  simp only [decide_eq_true_eq]

/-- A pending transaction that is ordered is committed or dropped: no request gets another one. -/
theorem transactionsOf_order {before after : List (Endorsed String String Labelled)}
    {endorsed : Endorsed String String Labelled}
    (hpending : network.pending = before ++ endorsed :: after) (ticket : ℕ) :
    transactionsOf ticket ⟨endorsed.writes :: network.chain, before ++ after,
        endorsed :: network.committed⟩ = transactionsOf ticket network ∧
      transactionsOf ticket { network with pending := before ++ after } ≤
        transactionsOf ticket network := by
  simp only [transactionsOf, pendingOf, committedOf, hpending, List.countP_append, List.countP_cons]
  omega

end Networks

/-! ### Every moment, and every step -/

/-- What holds at the last of these moments. -/
def Sound (deployment : Deployment) : List (Moment ℕ Portal) → Prop
  | [] => True
  | moment :: earlier =>
    AccountsSound deployment.letters (moment :: earlier) moment.state.world.accounts ∧
      NetworkSound deployment (moment :: earlier) moment.state.network

/-- What a step of an actor may do. -/
structure PortalLink (actor : Option ℕ) (before after : Portal) : Prop where
  kept : Kept before.world.accounts after.world.accounts
  committed : before.network.committed <:+ after.network.committed
  others : ∀ ticket, actor ≠ some ticket →
    transactionsOf ticket after.network ≤ transactionsOf ticket before.network

/-- The past is sound at each of its moments. -/
abbrev SoundPast (deployment : Deployment) : List (Moment ℕ Portal) → Prop :=
  Orderly (Sound deployment) PortalLink

theorem PortalLink.of_network_eq {actor : Option ℕ} {before after : Portal}
    (hkept : Kept before.world.accounts after.world.accounts)
    (hnetwork : after.network = before.network) : PortalLink actor before after where
  kept := hkept
  committed := hnetwork ▸ List.suffix_rfl
  others ticket _ := by rw [hnetwork]

section Steps

variable {deployment : Deployment} {moment : Moment ℕ Portal} {earlier : List (Moment ℕ Portal)}

theorem SoundPast.accountsSound (h : SoundPast deployment (moment :: earlier)) :
    AccountsSound deployment.letters (moment :: earlier) moment.state.world.accounts :=
  h.now_good.1

theorem SoundPast.networkSound (h : SoundPast deployment (moment :: earlier)) :
    NetworkSound deployment (moment :: earlier) moment.state.network :=
  h.now_good.2

/-- A step of the web side. -/
theorem SoundPast.onWeb (h : SoundPast deployment (moment :: earlier)) (actor : Option ℕ)
    {state : Portal} (hnetwork : state.network = moment.state.network)
    (hkept : Kept moment.state.world.accounts state.world.accounts)
    (hsound : AccountsSound deployment.letters (⟨actor, state⟩ :: moment :: earlier)
      state.world.accounts) :
    SoundPast deployment (⟨actor, state⟩ :: moment :: earlier) :=
  h.cons ⟨hsound, hnetwork ▸ h.networkSound.cons _⟩ (.of_network_eq hkept hnetwork)

/-- A step that leaves the accounts and the network alone. -/
theorem SoundPast.quiet (h : SoundPast deployment (moment :: earlier)) (actor : Option ℕ)
    {state : Portal} (hnetwork : state.network = moment.state.network)
    (haccounts : state.world.accounts = moment.state.world.accounts) :
    SoundPast deployment (⟨actor, state⟩ :: moment :: earlier) :=
  h.onWeb actor hnetwork (haccounts ▸ Kept.refl _) (haccounts ▸ h.accountsSound.cons _)

/-- A step of the network. -/
theorem SoundPast.onNetwork (h : SoundPast deployment (moment :: earlier)) (actor : Option ℕ)
    {state : Portal} (haccounts : state.world = moment.state.world)
    (hcommitted : moment.state.network.committed <:+ state.network.committed)
    (hothers : ∀ ticket, actor ≠ some ticket →
      transactionsOf ticket state.network ≤ transactionsOf ticket moment.state.network)
    (hsound : NetworkSound deployment (⟨actor, state⟩ :: moment :: earlier) state.network) :
    SoundPast deployment (⟨actor, state⟩ :: moment :: earlier) :=
  h.cons ⟨haccounts ▸ h.accountsSound.cons _, hsound⟩ ⟨haccounts ▸ Kept.refl _, hcommitted, hothers⟩

/-- The portal starts soundly. -/
theorem soundPast_start (state : Portal) (hstart : state = ⟨emptyWorld, Network.initial⟩) :
    SoundPast deployment [⟨none, state⟩] := by
  subst hstart
  refine Orderly.singleton _ trivial ⟨⟨⟨rfl, List.nodup_nil, ?_⟩, ?_⟩, ⟨.initial, ?_, ?_⟩⟩
  · intro account hmem
    cases hmem
  · intro account hmem
    cases hmem
  · exact fun ticket ↦ Nat.zero_le 1
  · intro endorsed hmem
    cases hmem

/-- What happens without the server keeps the past sound. -/
theorem SoundPast.drift (h : SoundPast deployment (moment :: earlier)) {state : Portal}
    (hdrift : deployment.Drift moment.state state) :
    SoundPast deployment (⟨none, state⟩ :: moment :: earlier) := by
  have hnetwork := h.networkSound.cons ⟨none, state⟩
  cases hdrift with
  | register caname username registration => exact h.quiet none rfl rfl
  | @endorse snapshot footprint tx hsnapshot hexec =>
    have hcount (ticket : ℕ) : transactionsOf ticket { moment.state.network with
        pending := endorsedOn (none, tx) snapshot footprint :: moment.state.network.pending } =
          transactionsOf ticket moment.state.network := by
      simp [transactionsOf, pendingOf, committedOf, endorsedOn]
    refine h.onNetwork none rfl List.suffix_rfl (fun ticket _ ↦ (hcount ticket).le)
      ⟨hnetwork.reachable.step (.endorse (none, tx) hsnapshot hexec), fun ticket ↦ ?_, ?_⟩
    · exact (hcount ticket).trans_le (hnetwork.single ticket)
    · intro endorsed hmem ticket hlabel
      rw [List.cons_append] at hmem
      rcases List.mem_cons.mp hmem with rfl | hmem
      · cases hlabel
      · exact hnetwork.labelled endorsed hmem ticket hlabel
  | commit endorsed hpending hcurrent =>
    have hcount := transactionsOf_order hpending
    refine h.onNetwork none rfl (List.suffix_cons _ _)
      (fun ticket _ ↦ (hcount ticket).1.le)
      ⟨hnetwork.reachable.step (.commit endorsed hpending hcurrent), fun ticket ↦ ?_, ?_⟩
    · exact (hcount ticket).1.trans_le (hnetwork.single ticket)
    · intro other hmem ticket hlabel
      refine hnetwork.labelled other ?_ ticket hlabel
      rw [hpending]
      simp only [List.mem_append, List.mem_cons] at hmem ⊢
      tauto
  | invalidate endorsed hpending hstale =>
    have hcount := transactionsOf_order hpending
    refine h.onNetwork none rfl List.suffix_rfl (fun ticket _ ↦ (hcount ticket).2)
      ⟨hnetwork.reachable.step (.invalidate endorsed hpending hstale), fun ticket ↦ ?_, ?_⟩
    · exact (hcount ticket).2.trans (hnetwork.single ticket)
    · intro other hmem ticket hlabel
      refine hnetwork.labelled other ?_ ticket hlabel
      rw [hpending]
      simp only [List.mem_append, List.mem_cons] at hmem ⊢
      tauto

end Steps

/-! ### What stays -/

section Staying

variable {deployment : Deployment} {past newer : List (Moment ℕ Portal)}

/-- An account stays, with its id, e-mail and password. -/
theorem SoundPast.account (h : SoundPast deployment (newer ++ past)) {id : UserId}
    {email password : String}
    (hnow : Now past fun state ↦ ∃ account ∈ state.world.accounts, account.id = id ∧
      account.email = email ∧ account.password = password) :
    Now (newer ++ past) fun state ↦ ∃ account ∈ state.world.accounts, account.id = id ∧
      account.email = email ∧ account.password = password := by
  refine h.linked.now (fun _ ↦ True) (fun _ _ ↦ trivial) ?_ hnow
  rintro actor before after - hlink ⟨account, hmem, rfl, rfl, rfl⟩
  obtain ⟨kept, hkept, hid, hemail, hpassword⟩ := hlink.kept account hmem
  exact ⟨kept, hkept, hid, hemail, hpassword⟩

/-- The others give no transaction to a request. -/
theorem SoundPast.noTransaction (h : SoundPast deployment (newer ++ past)) {ticket : ℕ}
    (hnewer : NotBy ticket newer)
    (hnow : Now past fun state ↦ transactionsOf ticket state.network = 0) :
    Now (newer ++ past) fun state ↦ transactionsOf ticket state.network = 0 := by
  refine h.linked.now (fun actor ↦ actor ≠ some ticket) hnewer ?_ hnow
  intro actor before after hactor hlink hzero
  exact Nat.le_zero.mp (hzero ▸ hlink.others ticket hactor)

/-- What is committed stays committed. -/
theorem SoundPast.committed (h : SoundPast deployment (newer ++ past)) {ticket : ℕ}
    (hnow : Now past fun state ↦ 0 < committedOf ticket state.network) :
    Now (newer ++ past) fun state ↦ 0 < committedOf ticket state.network := by
  refine h.linked.now (fun _ ↦ True) (fun _ _ ↦ trivial) ?_ hnow
  intro actor before after _ hlink hpos
  obtain ⟨later, hlater⟩ := hlink.committed
  rw [committedOf, ← hlater, List.countP_append]
  exact Nat.add_pos_right _ hpos

end Staying

end StudentStatus.Web
