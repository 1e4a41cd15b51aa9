import StudentStatus.Explorer.SyncInvariant

/-!
# Saving a block, among other tasks

The program of a task is safe: each of its calls is a step that keeps the invariant, whatever is
interleaved. What a task knows lasts as long as its process (`During`): what nobody can end
(`Lasts`), and what nobody else can end because the task has the key of the block (`Persists`).
-/

set_option autoImplicit false
set_option relaxedAutoImplicit false

namespace StudentStatus.Explorer

open Interaction

abbrev SyncPast (δ : Type) := List (Moment Tag (SyncState δ))

variable {δ : Type}

/-- The moment is sound, and every key there is was pushed by a task that has acted. -/
def SoundMoment (deployment : Deployment) : SyncPast δ → Prop
  | [] => True
  | moment :: earlier => Sound deployment moment.state ∧
    ∀ entry ∈ moment.state.blocksInProcess, ∃ acted ∈ moment :: earlier, acted.actor = some entry.2

abbrev SoundPast (deployment : Deployment) : SyncPast δ → Prop :=
  Orderly (SoundMoment deployment) (Link deployment)

section Facts

variable {deployment : Deployment} {tag : Tag} {c : String} {n : ℕ} {fact : SyncState δ → Prop}
  {past newer : SyncPast δ}

theorem SoundPast.sound {moment : Moment Tag (SyncState δ)} {earlier : SyncPast δ}
    (h : SoundPast deployment (moment :: earlier)) : Sound deployment moment.state := h.now_good.1

/-- A step from a sound past. -/
theorem SoundPast.step {moment : Moment Tag (SyncState δ)} {earlier : SyncPast δ}
    {actor : Option Tag} {state : SyncState δ} (h : SoundPast deployment (moment :: earlier))
    (hsound : Sound deployment state) (hlink : Link deployment actor moment.state state) :
    SoundPast deployment (⟨actor, state⟩ :: moment :: earlier) := by
  refine h.cons ⟨hsound, fun entry hmem ↦ ?_⟩ hlink
  rcases hlink.fresh entry hmem with hbefore | hactor
  · obtain ⟨acted, hacted, heq⟩ := h.now_good.2 entry hbefore
    exact ⟨acted, List.mem_cons_of_mem _ hacted, heq⟩
  · exact ⟨_, List.mem_cons_self, hactor⟩

/-! ### What a task knows -/

/-- The fact holds while the process of the task goes on. -/
def During (tag : Tag) (fact : SyncState δ → Prop) (past : SyncPast δ) : Prop :=
  Now past fun state ↦ tag.process ≤ state.process ∧ (state.process = tag.process → fact state)

/-- No other task ends the fact. -/
def Persists (deployment : Deployment) (tag : Tag) (fact : SyncState δ → Prop) : Prop :=
  ∀ actor before after, actor ≠ some tag → Link deployment actor before after →
    before.process = after.process → fact before → fact after

/-- Nothing ends the fact. -/
def Lasts (deployment : Deployment) (fact : SyncState δ → Prop) : Prop :=
  ∀ actor before after, Link deployment actor before after →
    before.process = after.process → fact before → fact after

theorem Lasts.persists (h : Lasts deployment fact) (tag : Tag) : Persists deployment tag fact :=
  fun actor before after _ ↦ h actor before after

theorem Persists.and {other : SyncState δ → Prop} (h : Persists deployment tag fact)
    (hother : Persists deployment tag other) :
    Persists deployment tag fun state ↦ fact state ∧ other state :=
  fun actor before after hactor hlink hprocess hfacts ↦
    ⟨h actor before after hactor hlink hprocess hfacts.1,
      hother actor before after hactor hlink hprocess hfacts.2⟩

theorem lasts_const (condition : Prop) : Lasts deployment fun _ : SyncState δ ↦ condition :=
  fun _ _ _ _ _ h ↦ h

theorem During.mono {wider : SyncState δ → Prop} (h : During tag fact past)
    (hle : ∀ state, fact state → wider state) : During tag wider past := by
  obtain ⟨moment, earlier, rfl, hprocess, hfact⟩ := h
  exact now_cons.mpr ⟨hprocess, fun heq ↦ hle _ (hfact heq)⟩

/-- While some actors act that cannot end the fact, it goes on. -/
theorem During.linked (h : During tag fact past) (hsound : SoundPast deployment (newer ++ past))
    (allowed : Option Tag → Prop) (hnewer : ∀ moment ∈ newer, allowed moment.actor)
    (hfact : ∀ actor before after, allowed actor → Link deployment actor before after →
      before.process = after.process → fact before → fact after) :
    During tag fact (newer ++ past) := by
  refine hsound.linked.now allowed hnewer ?_ h
  rintro actor before after hactor hlink ⟨hprocess, hbefore⟩
  refine ⟨hprocess.trans hlink.process, fun hafter ↦ ?_⟩
  have heq : before.process = after.process :=
    le_antisymm hlink.process (hafter ▸ hprocess)
  exact hfact actor before after hactor hlink heq (hbefore (heq.trans hafter))

theorem stable_during (h : Persists deployment tag fact) :
    Stable (SoundPast deployment) tag (During tag fact) :=
  fun _ _ hnow hnewer hsound ↦ hnow.linked hsound (· ≠ some tag) hnewer h

theorem During.lasts (hnow : During tag fact past) (h : Lasts deployment fact)
    (hsound : SoundPast deployment (newer ++ past)) : During tag fact (newer ++ past) :=
  hnow.linked hsound (fun _ ↦ True) (fun _ _ ↦ trivial)
    fun actor before after _ ↦ h actor before after

/-! ### Facts -/

/-- The block has its row, and its transactions have theirs. -/
def Saved (deployment : Deployment) (c : String) (n : ℕ) (state : SyncState δ) : Prop :=
  blocksOf deployment state c n ≠ []

/-- The task has the key of the block and, where no call fails, no other key. -/
def Owns (deployment : Deployment) (tag : Tag) (c : String) (n : ℕ) (state : SyncState δ) : Prop :=
  Holds state c n tag ∧ (deployment.reliable → ∀ entry ∈ state.blocksInProcess,
    entry.2 = tag → entry.1 = blockProKey c n)

/-- The task has no key, where no call fails. -/
def LetGo (deployment : Deployment) (tag : Tag) (state : SyncState δ) : Prop :=
  deployment.reliable → ∀ entry ∈ state.blocksInProcess, entry.2 ≠ tag

theorem lasts_onLedger {block : Block δ} : Lasts deployment (OnLedger · c n block) :=
  fun _ _ _ hlink _ h ↦ h.mono (hlink.ledger c)

theorem lasts_allSaved {txObjs : List (TxObj δ)} :
    Lasts deployment (AllSaved deployment · c n txObjs) :=
  fun _ _ _ hlink _ h ↦ h.mono (hlink.transactions c n)

theorem lasts_saved : Lasts deployment (Saved (δ := δ) deployment c n) :=
  fun _ _ _ hlink _ h hnil ↦ h (List.suffix_nil.mp (hnil ▸ hlink.blocks c n))

theorem lasts_known : Lasts (δ := δ) deployment fun state ↦ (state.channelsGenHash c).isSome :=
  fun _ _ _ hlink hprocess h ↦ hlink.hashes hprocess c h

/-- The block is saved, or some task has its key. -/
def Covered (deployment : Deployment) (c : String) (n : ℕ) (state : SyncState δ) : Prop :=
  Saved deployment c n state ∨ ∃ other, Holds state c n other

theorem lasts_covered : Lasts (δ := δ) deployment (Covered deployment c n) := by
  rintro actor before after hlink hprocess (hsaved | ⟨other, hother⟩)
  · exact Or.inl (lasts_saved actor before after hlink hprocess hsaved)
  · exact (hlink.released hprocess c n other hother).symm.imp_right fun hholds ↦ ⟨other, hholds⟩

/-- A task gets no key from the others. -/
theorem Link.mem_of_ne {actor : Option Tag} {before after : SyncState δ}
    (h : Link deployment actor before after) (hactor : actor ≠ some tag) {entry : String × Tag}
    (hmem : entry ∈ after.blocksInProcess) (htag : entry.2 = tag) :
    entry ∈ before.blocksInProcess := by
  subst htag
  exact (h.fresh _ hmem).resolve_right hactor

theorem persists_letGo : Persists (δ := δ) deployment tag (LetGo deployment tag) :=
  fun _ _ _ hactor hlink _ h hreliable entry hmem htag ↦
    h hreliable entry (hlink.mem_of_ne hactor hmem htag) htag

theorem persists_owns : Persists (δ := δ) deployment tag (Owns deployment tag c n) :=
  fun _ _ _ hactor hlink hprocess h ↦ ⟨(hlink.others hprocess c n tag h.1 hactor).1,
    fun hreliable entry hmem htag ↦
      h.2 hreliable entry (hlink.mem_of_ne hactor hmem htag) htag⟩

/-- What a task knows of the rows of a block whose key it has. -/
theorem Persists.rows (h : Persists deployment tag fact)
    (howns : ∀ state, fact state → Owns deployment tag c n state)
    (rows : List (BlockRow δ) → List (TransactionRow δ) → List (Notification δ) → Prop) :
    Persists deployment tag fun state ↦ fact state ∧
      rows (blocksOf deployment state c n) (transactionsOf deployment state c n)
        (sentOf state c n) := by
  rintro actor before after hactor hlink hprocess ⟨hfact, hrows⟩
  refine ⟨h actor before after hactor hlink hprocess hfact, ?_⟩
  obtain ⟨-, hsame⟩ := hlink.others hprocess c n tag (howns before hfact).1 hactor
  rw [hsame.blocks, hsame.transactions, hsame.sent]
  exact hrows

end Facts

/-! ### Calls -/

/-- A program of a task is safe. -/
abbrev SyncSafe {α : Type} (deployment : Deployment) (tag : Tag)
    (post : Except SyncError α → SyncPast δ → Prop) :
    SyncProgram δ α → SyncPast δ → Prop :=
  Safe ((deployment.explorer δ).answers tag) (SoundPast deployment) tag post

/-- An error that leaves the key of the block where it is. It comes from a call that failed or a
transaction whose row throws. -/
def Stuck (deployment : Deployment) (e : SyncError) : Prop :=
  ¬ deployment.reliable ∧ ∀ message, e ≠ .explorer message

/-- The program ends with a value of which `done` holds, or is stuck where `kept` holds. -/
def Ends {α : Type} (deployment : Deployment) (tag : Tag) (done : α → SyncState δ → Prop)
    (kept : SyncState δ → Prop) : Except SyncError α → SyncPast δ → Prop
  | .ok value, past => During tag (done value) past
  | .error e, past => Stuck deployment e ∧ During tag kept past

section Calls

variable {deployment : Deployment} {tag : Tag} {fact kept : SyncState δ → Prop} {past : SyncPast δ}
  {α : Type} {post : Except SyncError α → SyncPast δ → Prop}

/-- The fact holds whenever the task makes its next call. -/
def Ready (deployment : Deployment) (tag : Tag) (fact : SyncState δ → Prop) (past : SyncPast δ) :
    Prop :=
  ∀ newer moment earlier, newer ++ past = moment :: earlier → NotBy tag newer →
    SoundPast deployment (moment :: earlier) → moment.state.process = tag.process →
    fact moment.state

theorem During.ready (hpast : During tag fact past) (hfact : Persists deployment tag fact) :
    Ready deployment tag fact past := by
  intro newer moment earlier hnewest hnewer hsound hprocess
  rw [← hnewest] at hsound
  have hnow := stable_during hfact past newer hpast hnewer hsound
  rw [hnewest] at hnow
  exact (now_cons.mp hnow).2 hprocess

/-- A call every answer to which is a step that keeps the invariant. -/
theorem Ready.call (hready : Ready deployment tag fact past) {request : SyncCall δ}
    {rest : SyncReply request → SyncProgram δ α} (possible : SyncReply request → Prop)
    (established : SyncReply request → SyncState δ → Prop)
    (hstep : ∀ before reply after, Sound deployment before → tag.process = before.process →
      fact before → deployment.Answers tag request before reply after →
      possible reply ∧ Sound deployment after ∧ Link deployment (some tag) before after ∧
        established reply after)
    (hrest : ∀ reply past, possible reply → During tag (established reply) past →
      SyncSafe deployment tag post (rest reply) past) :
    SyncSafe deployment tag post (Explorer.call request >>= rest) past := by
  rintro newer moment earlier reply state hnewest hnewer hsound ⟨hprocess, hanswer⟩
  obtain ⟨hpossible, hafter, hlink, hestablished⟩ := hstep moment.state reply state hsound.sound
    hprocess (hready newer moment earlier hnewest hnewer hsound hprocess.symm) hanswer
  exact ⟨hsound.step hafter hlink, hrest reply _ hpossible (now_cons.mpr
    ⟨hprocess.trans_le hlink.process, fun _ ↦ hestablished⟩)⟩

/-- A call of a task that knows a fact which no other task ends. -/
theorem safe_call {request : SyncCall δ} {rest : SyncReply request → SyncProgram δ α}
    (possible : SyncReply request → Prop) (established : SyncReply request → SyncState δ → Prop)
    (hfact : Persists deployment tag fact) (hpast : During tag fact past)
    (hstep : ∀ before reply after, Sound deployment before → tag.process = before.process →
      fact before → deployment.Answers tag request before reply after →
      possible reply ∧ Sound deployment after ∧ Link deployment (some tag) before after ∧
        established reply after)
    (hrest : ∀ reply past, possible reply → During tag (established reply) past →
      SyncSafe deployment tag post (rest reply) past) :
    SyncSafe deployment tag post (call request >>= rest) past :=
  (hpast.ready hfact).call possible established hstep hrest

/-- What holds before a quiet step holds after it. -/
theorem Persists.quiet {before after : SyncState δ} (h : Persists deployment tag fact)
    (hquiet : Quiet before after) (hfact : fact before) : fact after :=
  h none before after nofun hquiet.link hquiet.process.symm hfact

/-- A call whose answers change nothing that the invariant looks at. -/
theorem safe_quiet {request : SyncCall δ} {rest : SyncReply request → SyncProgram δ α}
    (possible : SyncReply request → Prop) (info : SyncReply request → SyncState δ → Prop)
    (hfact : Persists deployment tag fact)
    (hinfo : ∀ reply, Persists deployment tag fun state ↦ fact state ∧ info reply state)
    (hpast : During tag fact past)
    (hstep : ∀ before reply after, Sound deployment before → fact before →
      deployment.Answers tag request before reply after →
      Quiet before after ∧ possible reply ∧ info reply before)
    (hrest : ∀ reply past, possible reply →
      During tag (fun state ↦ fact state ∧ info reply state) past →
      SyncSafe deployment tag post (rest reply) past) :
    SyncSafe deployment tag post (call request >>= rest) past := by
  refine safe_call possible _ hfact hpast (fun before reply after hsound _ hbefore hanswer ↦ ?_)
    hrest
  obtain ⟨hquiet, hpossible, hreply⟩ := hstep before reply after hsound hbefore hanswer
  exact ⟨hpossible, hquiet.sound hsound, hquiet.link, (hinfo reply).quiet hquiet ⟨hbefore, hreply⟩⟩

/-- A query keeps the invariant when its effect does. -/
theorem safe_runQuery {query : Query δ} (established : query.Result → SyncState δ → Prop)
    (hfact : Persists deployment tag fact) (hpast : During tag fact past)
    (hkept : ∀ state, fact state → kept state)
    (hstep : ∀ before, Sound deployment before → fact before →
      ∀ after, after = { before with database := (query.run before.database).2 } →
        Sound deployment after ∧ Link deployment (some tag) before after ∧ kept after ∧
          established (query.run before.database).1 after) :
    SyncSafe deployment tag (Ends deployment tag established kept) (runQuery query) past := by
  refine safe_call (fun reply ↦ match reply with
      | .ok _ => True
      | .error _ => ¬ deployment.reliable)
    (fun reply state ↦ match reply with
      | .ok value => established value state
      | .error _ => kept state) hfact hpast ?_ ?_
  · intro before reply after hsound _ hbefore hanswer
    cases hanswer with
    | answered =>
      obtain ⟨hafter, hlink, -, hestablished⟩ := hstep before hsound hbefore _ rfl
      exact ⟨trivial, hafter, hlink, hestablished⟩
    | failed hunreliable hfails =>
      obtain ⟨err, rfl⟩ := hfails
      exact ⟨hunreliable, hsound, (Quiet.refl before).link, hkept before hbefore⟩
    | unanswered hunreliable hfails =>
      obtain ⟨err, rfl⟩ := hfails
      obtain ⟨hafter, hlink, hkept, -⟩ := hstep before hsound hbefore _ rfl
      exact ⟨hunreliable, hafter, hlink, hkept⟩
  · rintro (err | value) past hpossible h
    · exact ⟨⟨hpossible, nofun⟩, h⟩
    · exact h

/-- A query whose effect is on other tables only. -/
theorem safe_runQuery_quiet {query : Query δ} (info : query.Result → SyncState δ → Prop)
    (hquiet : ∀ db : Database δ, (query.run db).2.blocks = db.blocks ∧
      (query.run db).2.transactions = db.transactions)
    (hfact : Persists deployment tag fact)
    (hinfo : ∀ value, Persists deployment tag fun state ↦ fact state ∧ info value state)
    (hpast : During tag fact past) (hkept : ∀ state, fact state → kept state)
    (hstep : ∀ before, Sound deployment before → fact before →
      info (query.run before.database).1 before) :
    SyncSafe deployment tag (Ends deployment tag (fun value state ↦ fact state ∧ info value state)
      kept) (runQuery query) past := by
  refine safe_runQuery _ hfact hpast hkept fun before hsound hbefore after hafter ↦ ?_
  have hstill : Quiet before after := by
    subst hafter
    exact ⟨rfl, rfl, rfl, rfl, rfl, (hquiet _).1, (hquiet _).2, rfl⟩
  have hboth := (hinfo _).quiet hstill ⟨hbefore, hstep before hsound hbefore⟩
  exact ⟨hstill.sound hsound, hstill.link, hkept after hboth.1, hboth⟩

/-- A timer is set for what is not modelled. -/
theorem safe_setTimeout {timer : Timer} {rest : Unit → SyncProgram δ α}
    (hfact : Persists deployment tag fact) (hpast : During tag fact past)
    (hrest : ∀ past, During tag fact past → SyncSafe deployment tag post (rest ()) past) :
    SyncSafe deployment tag post (call (.setTimeout timer) >>= rest) past := by
  refine safe_call (fun _ ↦ True) (fun _ ↦ fact) hfact hpast ?_ fun _ past _ ↦ hrest past
  intro before reply after hsound _ hbefore hanswer
  cases hanswer with
  | answered => exact ⟨trivial, hsound, (Quiet.refl before).link, hbefore⟩
  | failed _ hfails => exact hfails.elim
  | unanswered _ hfails => exact hfails.elim

/-- A query whose result is not used and whose effect is on other tables only. -/
theorem safe_runQuery_counter {query : Query δ}
    (hquiet : ∀ db : Database δ, (query.run db).2.blocks = db.blocks ∧
      (query.run db).2.transactions = db.transactions)
    (hfact : Persists deployment tag fact) (hpast : During tag fact past)
    (hkept : ∀ state, fact state → kept state) :
    SyncSafe deployment tag (Ends deployment tag (fun _ ↦ fact) kept) (runQuery query) past := by
  refine safe_runQuery _ hfact hpast hkept fun before hsound hbefore after hafter ↦ ?_
  have hstill : Quiet before after := by
    subst hafter
    exact ⟨rfl, rfl, rfl, rfl, rfl, (hquiet _).1, (hquiet _).2, rfl⟩
  have hfactAfter := hfact.quiet hstill hbefore
  exact ⟨hstill.sound hsound, hstill.link, hkept after hfactAfter, hfactAfter⟩

theorem safe_return {value : α} {done : α → SyncState δ → Prop}
    (h : During tag (done value) past) :
    SyncSafe deployment tag (Ends deployment tag done kept) (pure value) past := h

/-- What follows a program begins where it ended. -/
theorem SyncSafe.then {β : Type} {program : SyncProgram δ α} {rest : α → SyncProgram δ β}
    {mid : α → SyncState δ → Prop} {done : β → SyncState δ → Prop}
    (h : SyncSafe deployment tag (Ends deployment tag mid kept) program past)
    (hrest : ∀ value past, During tag (mid value) past →
      SyncSafe deployment tag (Ends deployment tag done kept) (rest value) past) :
    SyncSafe deployment tag (Ends deployment tag done kept) (program >>= rest) past :=
  Safe.bind _ h hrest fun _ _ herror ↦ herror

end Calls

/-! ### Saving a block -/

section Saving

variable {deployment : Deployment} {tag : Tag} {c : String} {n : ℕ} {block : Block δ}
  {past : SyncPast δ}

/-- The task has the key of a block of the ledger. -/
def Works (deployment : Deployment) (tag : Tag) (c : String) (n : ℕ) (block : Block δ)
    (state : SyncState δ) : Prop :=
  Owns deployment tag c n state ∧ OnLedger state c n block

theorem persists_works : Persists deployment tag (Works deployment tag c n block) :=
  persists_owns.and (lasts_onLedger.persists tag)

theorem persists_worksSaved {txObjs : List (TxObj δ)} : Persists deployment tag fun state ↦
    Works deployment tag c n block state ∧ AllSaved deployment state c n txObjs :=
  persists_works.and (lasts_allSaved.persists tag)

/-- The rows that `saveTransaction` counts are those of the block with the hash. -/
theorem sameTransactions_eq (state : SyncState δ) (txObj : TxObj δ) (details : δ) :
    state.database.sameTransactions deployment.networkId
        (transactionRow deployment.sha256 (deployment.genesisHash c) n txObj details) =
      (transactionsOf deployment state c n).filter
        fun row ↦ row.txhash = txHash deployment.sha256 txObj := by
  unfold Database.sameTransactions transactionsOf
  rw [List.filter_filter]
  refine List.filter_congr fun row _ ↦ ?_
  rw [← Bool.decide_and, decide_eq_decide]
  simp only [transactionRow]
  tauto

/-- `saveBlock` counts a row exactly when the block has one. -/
theorem sameBlocks_eq_nil_iff {state : SyncState δ} (hsound : Sound deployment state)
    (hledger : OnLedger state c n block) :
    state.database.sameBlocks deployment.networkId (blockRow (deployment.genesisHash c) block) =
        [] ↔
      blocksOf deployment state c n = [] := by
  have hnumber := (hsound.ledger c n block hledger).1
  constructor
  · intro hnil
    rcases (hsound.block c n).blocks with hblocks | ⟨other, hother, hblocks, -⟩
    · exact hblocks
    · obtain rfl := hledger.unique hother
      have hmem : savedBlock deployment c block ∈ blocksOf deployment state c n := by
        rw [hblocks]
        exact List.mem_singleton_self _
      have hcounted : savedBlock deployment c block ∈ state.database.sameBlocks
          deployment.networkId (blockRow (deployment.genesisHash c) block) :=
        List.mem_filter.mpr ⟨(List.mem_filter.mp hmem).1, by simp [savedBlock, blockRow]⟩
      rw [hnil] at hcounted
      cases hcounted
  · intro hnil
    refine List.filter_eq_nil_iff.mpr fun row hmem h ↦ ?_
    obtain ⟨hblocknum, -, hhash, hnetwork, -⟩ := of_decide_eq_true h
    have hrow : row ∈ blocksOf deployment state c n :=
      List.mem_filter.mpr ⟨hmem, decide_eq_true ⟨hnetwork, hhash, hblocknum.trans hnumber⟩⟩
    rw [hnil] at hrow
    cases hrow

/-- A step that touches the rows of a block leaves its key and the ledger. -/
theorem Works.touches {before after : SyncState δ} (h : Works deployment tag c n block before)
    (htouches : Touches deployment before after c n) : Works deployment tag c n block after :=
  ⟨⟨htouches.holds.mpr h.1.1, fun hreliable entry hmem ↦
    h.1.2 hreliable entry (htouches.held ▸ hmem)⟩, htouches.onLedger.mpr h.2⟩

/-- A transaction is saved after those before it. -/
theorem safe_saveTransaction {done rest : List (TxObj δ)} {txObj : TxObj δ} {details : δ}
    (hdata : block.data = done ++ txObj :: rest) (hdetails : txObj.details = some details)
    (version : Option String) (hpast : During tag (fun state ↦
      Works deployment tag c n block state ∧ AllSaved deployment state c n done) past) :
    SyncSafe deployment tag (Ends deployment tag (fun _ state ↦
        Works deployment tag c n block state ∧ AllSaved deployment state c n (done ++ [txObj]))
      (Owns deployment tag c n))
      (saveTransaction deployment.networkId
        (transactionRow deployment.sha256 (deployment.genesisHash c) n txObj details) version)
      past := by
  have hsaved {state : SyncState δ} {row : TransactionRow δ}
      (hall : AllSaved deployment state c n done) (hrow : row ∈ transactionsOf deployment state c n)
      (hhash : row.txhash = txHash deployment.sha256 txObj) :
      AllSaved deployment state c n (done ++ [txObj]) := by
    intro other hmem
    rcases List.mem_append.mp hmem with hmem | hmem
    · exact hall other hmem
    · rw [List.mem_singleton.mp hmem]
      exact ⟨row, hrow, hhash⟩
  unfold saveTransaction
  refine (safe_runQuery_quiet (fun count state ↦ count =
    ((transactionsOf deployment state c n).filter
      fun row ↦ row.txhash = txHash deployment.sha256 txObj).length) (fun _ ↦ ⟨rfl, rfl⟩)
    persists_worksSaved (fun count ↦ persists_worksSaved.rows (fun _ h ↦ h.1.1) fun _ rows _ ↦
      count = (rows.filter fun row ↦ row.txhash = txHash deployment.sha256 txObj).length) hpast
    (fun _ h ↦ h.1.1) fun before _ _ ↦ ?_).then fun count past hcount ↦ ?_
  · exact congrArg List.length (sameTransactions_eq before txObj details)
  split_ifs with hvalid
  · -- The row is inserted, and the counters are incremented.
    refine (safe_runQuery (fun _ state ↦ Works deployment tag c n block state ∧
      AllSaved deployment state c n (done ++ [txObj])) (persists_worksSaved.rows (fun _ h ↦ h.1.1)
      fun _ rows _ ↦ count = (rows.filter fun row ↦ row.txhash =
        txHash deployment.sha256 txObj).length) hcount (fun _ h ↦ h.1.1.1)
      fun before hsound hbefore after hafter ↦ ?_).then fun _ past hinserted ↦ ?_
    · obtain ⟨⟨hworks, hall⟩, hzero⟩ := hbefore
      have hnone := List.length_eq_zero_iff.mp (hzero.symm.trans (of_decide_eq_true hvalid))
      obtain ⟨htouches, hrows⟩ := touches_saveTransactionRow deployment hafter
      have hafterWorks := hworks.touches htouches
      have hrow : savedTransaction deployment c n txObj details ∈
          transactionsOf deployment after c n := by
        rw [hrows]
        exact List.mem_cons_self
      exact ⟨sound_saveTransactionRow hsound hworks.2 hdata hall hdetails hnone hafter,
        htouches.link hsound hworks.1.1, hafterWorks.1, hafterWorks,
        hsaved (hall.mono htouches.transactions) hrow rfl⟩
    · refine (safe_runQuery_counter (fun _ ↦ ⟨rfl, rfl⟩) persists_worksSaved hinserted
        fun _ h ↦ h.1.1).then fun _ past hcounted ↦ ?_
      exact (safe_runQuery_counter (fun _ ↦ ⟨rfl, rfl⟩) persists_worksSaved hcounted
        fun _ h ↦ h.1.1).then fun _ past hdone ↦ hdone
  · -- A row with the hash is there.
    refine safe_return (hcount.mono fun state h ↦ ⟨h.1.1, ?_⟩)
    obtain ⟨row, hrow⟩ := List.exists_mem_of_ne_nil ((transactionsOf deployment state c n).filter
      fun row ↦ row.txhash = txHash deployment.sha256 txObj) fun hnil ↦ hvalid (decide_eq_true (by
        rw [h.2, hnil, List.length_nil]))
    obtain ⟨hmem, hhash⟩ := List.mem_filter.mp hrow
    exact hsaved h.1.2 hmem (of_decide_eq_true hhash)

/-- The transactions of a block are saved from the first to the last. -/
theorem safe_saveTransactions (header : TxObj δ) (noDiscovery : Bool)
    (hdetails : deployment.reliable → ∀ txObj ∈ block.data, txObj.details.isSome)
    (done rest : List (TxObj δ)) (hdata : block.data = done ++ rest) (past : SyncPast δ)
    (hpast : During tag (fun state ↦
      Works deployment tag c n block state ∧ AllSaved deployment state c n done) past) :
    SyncSafe deployment tag (Ends deployment tag (fun _ state ↦
        Works deployment tag c n block state ∧ AllSaved deployment state c n block.data)
      (Owns deployment tag c n))
      (saveTransactions deployment.networkId deployment.sha256 c (deployment.genesisHash c) header n
        noDiscovery rest) past := by
  induction rest generalizing done past with
  | nil =>
    rw [hdata, List.append_nil]
    exact hpast
  | cons txObj rest ih =>
    unfold saveTransactions
    cases hrow : txObj.details with
    | none =>
      refine ⟨⟨fun hreliable ↦ ?_, nofun⟩, hpast.mono fun _ h ↦ h.1.1⟩
      have hsome := hdetails hreliable txObj (by simp [hdata])
      rw [hrow] at hsome
      cases hsome
    | some details =>
      have hsave (past : SyncPast δ) (hpast : During tag (fun state ↦
          Works deployment tag c n block state ∧ AllSaved deployment state c n done) past) :=
        (safe_saveTransaction hdata hrow (txObj.chaincode.map ChaincodeId.version) hpast).then
          fun _ past hsaved ↦
            ih (done ++ [txObj]) (by rw [hdata, List.append_assoc]; rfl) past hsaved
      dsimp only
      split_ifs
      · exact safe_setTimeout persists_worksSaved hpast hsave
      · exact hsave past hpast

/-- The block is saved after its transactions. -/
theorem safe_saveBlock (hpast : During tag (fun state ↦ Works deployment tag c n block state ∧
      AllSaved deployment state c n block.data) past) :
    SyncSafe deployment tag (Ends deployment tag (fun inserted state ↦
        (Works deployment tag c n block state ∧ Saved deployment c n state) ∧
          (inserted = true → sentOf state c n = [])) (Owns deployment tag c n))
      (saveBlock deployment.networkId (blockRow (deployment.genesisHash c) block)) past := by
  unfold saveBlock
  refine (safe_runQuery_quiet (fun count state ↦ count = 0 ↔ blocksOf deployment state c n = [])
    (fun _ ↦ ⟨rfl, rfl⟩) persists_worksSaved (fun count ↦ persists_worksSaved.rows
    (fun _ h ↦ h.1.1) fun rows _ _ ↦ count = 0 ↔ rows = []) hpast
    (fun _ h ↦ h.1.1) fun before hsound hbefore ↦ ?_).then fun count past hcount ↦ ?_
  · rw [← sameBlocks_eq_nil_iff hsound hbefore.1.2]
    exact List.length_eq_zero_iff
  have hpersists : Persists (δ := δ) deployment tag fun state ↦
      (Works deployment tag c n block state ∧ Saved deployment c n state) ∧ sentOf state c n = [] :=
    (persists_works.and (lasts_saved.persists tag)).rows (fun _ h ↦ h.1.1) fun _ _ sent ↦ sent = []
  split_ifs with hvalid
  · refine (safe_runQuery (fun _ state ↦ (Works deployment tag c n block state ∧
      Saved deployment c n state) ∧ sentOf state c n = []) (persists_worksSaved.rows
      (fun _ h ↦ h.1.1) fun rows _ _ ↦ count = 0 ↔ rows = []) hcount (fun _ h ↦ h.1.1.1)
      fun before hsound hbefore after hafter ↦ ?_).then fun _ past hinserted ↦ ?_
    · obtain ⟨⟨hworks, hall⟩, hzero⟩ := hbefore
      have hnone := hzero.mp (of_decide_eq_true hvalid)
      obtain ⟨htouches, hrows⟩ := touches_saveBlockRow deployment
        (hsound.ledger c n block hworks.2).1 hafter
      have hafterWorks := hworks.touches htouches
      have hsent : sentOf after c n = [] := by
        subst hafter
        exact (hsound.block c n).sent_eq_nil hnone
      refine ⟨sound_saveBlockRow hsound hworks.2 hall hnone hafter,
        htouches.link hsound hworks.1.1, hafterWorks.1, ⟨hafterWorks, fun hnil ↦ ?_⟩, hsent⟩
      rw [hrows] at hnil
      cases hnil
    · exact (safe_runQuery_counter (fun _ ↦ ⟨rfl, rfl⟩) hpersists hinserted
        fun _ h ↦ h.1.1.1).then fun _ past hdone ↦
          safe_return (hdone.mono fun _ h ↦ ⟨h.1, fun _ ↦ h.2⟩)
  · refine safe_return (hcount.mono fun state h ↦ ⟨⟨h.1.1, fun hnil ↦ ?_⟩, nofun⟩)
    exact hvalid (decide_eq_true (h.2.mpr hnil))

/-- The key of a saved block is taken off. -/
theorem safe_spliceBlock (hpast : During tag (fun state ↦
      Owns deployment tag c n state ∧ Saved deployment c n state) past) :
    SyncSafe deployment tag (Ends deployment tag (fun _ state ↦
        LetGo deployment tag state ∧ Saved deployment c n state) (Owns deployment tag c n))
      (do call (.spliceBlock (blockProKey c n)); return true) past := by
  refine safe_call (fun _ ↦ True) (fun _ state ↦ LetGo deployment tag state ∧
    Saved deployment c n state) (persists_owns.and (lasts_saved.persists tag)) hpast ?_
    fun _ past _ h ↦ h
  intro before reply after hsound _ hbefore hanswer
  cases hanswer with
  | answered =>
    obtain ⟨hafter, hlink, hheld⟩ := splice_key hsound hbefore.1.1 hbefore.2 rfl
    refine ⟨trivial, hafter, hlink, fun hreliable entry hmem htag ↦ ?_, hbefore.2⟩
    obtain ⟨hmem, hne⟩ := (hheld entry).mp hmem
    exact hne (hbefore.1.2 hreliable entry hmem htag)
  | failed _ hfails => exact hfails.elim
  | unanswered _ hfails => exact hfails.elim

/-- A block that has just been inserted is notified. -/
theorem safe_send {rest : Unit → SyncProgram δ Bool} {done : Bool → SyncState δ → Prop}
    (hpast : During tag (fun state ↦ (Works deployment tag c n block state ∧
      Saved deployment c n state) ∧ sentOf state c n = []) past)
    (hrest : ∀ past, During tag (fun state ↦
        Owns deployment tag c n state ∧ Saved deployment c n state) past →
      SyncSafe deployment tag (Ends deployment tag done (Owns deployment tag c n)) (rest ()) past) :
    SyncSafe deployment tag (Ends deployment tag done (Owns deployment tag c n))
      (call (.send (blockNotification deployment.networkId c block)) >>= rest) past := by
  refine safe_call (fun _ ↦ True)
    (fun _ state ↦ Owns deployment tag c n state ∧ Saved deployment c n state)
    ((persists_works.and (lasts_saved.persists tag)).rows (fun _ h ↦ h.1.1)
      fun _ _ sent ↦ sent = []) hpast ?_ fun _ past _ ↦ hrest past
  rintro before reply after hsound - ⟨⟨hworks, hsaved⟩, hnone⟩ hanswer
  cases hanswer with
  | answered =>
    obtain ⟨htouches, -⟩ := touches_send deployment
      (hsound.ledger c n block hworks.2).1 rfl
    exact ⟨trivial, sound_send hsound hworks.2 hsaved hnone rfl,
      htouches.link hsound hworks.1.1, (hworks.touches htouches).1, hsaved⟩
  | failed _ hfails => exact hfails.elim
  | unanswered _ hfails => exact hfails.elim

/-- A task that has the key of a block saves it, and takes off the key at the end. -/
theorem safe_processHeld {header : TxObj δ} {noDiscovery : Bool} (hnumber : block.number = n)
    (hdetails : deployment.reliable → ∀ txObj ∈ block.data, txObj.details.isSome)
    (hpast : During tag (Works deployment tag c n block) past) :
    SyncSafe deployment tag (Ends deployment tag (fun _ state ↦
        LetGo deployment tag state ∧ Saved deployment c n state) (Owns deployment tag c n))
      (processHeld deployment.networkId deployment.sha256 c (deployment.genesisHash c) header block
        noDiscovery) past := by
  subst hnumber
  have hall {past : SyncPast δ}
      (hpast : During tag (Works deployment tag c block.number block) past) :=
    safe_saveTransactions header noDiscovery hdetails [] block.data rfl past
      (hpast.mono fun _ h ↦ ⟨h, fun txObj hmem ↦ absurd hmem List.not_mem_nil⟩)
  have hblock {past : SyncPast δ} (inserted : Bool) (hsaved : During tag (fun state ↦
      (Works deployment tag c block.number block state ∧ Saved deployment c block.number state) ∧
        (inserted = true → sentOf state c block.number = [])) past) :
      SyncSafe deployment tag (Ends deployment tag (fun _ state ↦
        LetGo deployment tag state ∧ Saved deployment c block.number state)
        (Owns deployment tag c block.number)) (do
          if inserted then call (.send (blockNotification deployment.networkId c block))
          call (.spliceBlock (blockProKey c block.number))
          return true) past := by
    cases inserted with
    | true => exact safe_send (hsaved.mono fun _ h ↦ ⟨h.1, h.2 rfl⟩) fun _ h ↦ safe_spliceBlock h
    | false => exact safe_spliceBlock (hsaved.mono fun _ h ↦ ⟨h.1.1.1, h.1.2⟩)
  unfold processHeld
  split_ifs
  · exact safe_setTimeout persists_works hpast fun past h ↦ (hall h).then fun _ past h ↦
      (safe_saveBlock h).then fun inserted past h ↦ hblock inserted h
  · exact (hall hpast).then fun _ past h ↦
      (safe_saveBlock h).then fun inserted past h ↦ hblock inserted h

/-- The outcome of `processBlockEvent`: the block is saved, or the event is refused, or an error
leaves the key. When the hash of the channel is known the block is covered. -/
def Processed {α : Type} (deployment : Deployment) (tag : Tag) (c : String) (n : ℕ) (known : Prop)
    (outcome : Except SyncError α) (past : SyncPast δ) : Prop :=
  During tag (fun state ↦
      LetGo deployment tag state ∧ (known → Covered deployment c n state)) past ∧
    match outcome with
    | .ok _ => During tag (Saved deployment c n) past
    | .error e => (∃ message, e = .explorer message) ∨
      Stuck deployment e ∧ During tag (Owns deployment tag c n) past

/-- The check of the key and the push: the task has the key, or another has it. -/
theorem safe_pushBlock {α : Type} {post : Except SyncError α → SyncPast δ → Prop}
    {rest : Bool → SyncProgram δ α} (hpast : During tag (fun state ↦
      LetGo deployment tag state ∧ OnLedger state c n block) past)
    (hpushed : ∀ past, During tag (Works deployment tag c n block) past →
      SyncSafe deployment tag post (rest true) past)
    (hrefused : ∀ past, During tag (fun state ↦ LetGo deployment tag state ∧
      Covered deployment c n state) past → SyncSafe deployment tag post (rest false) past) :
    SyncSafe deployment tag post (call (.pushBlock (blockProKey c n)) >>= rest) past := by
  refine safe_call (fun _ ↦ True) (fun (pushed : Bool) state ↦
    if pushed then Works deployment tag c n block state
    else LetGo deployment tag state ∧ Covered deployment c n state)
    (persists_letGo.and (lasts_onLedger.persists tag)) hpast ?_ ?_
  · rintro before reply after hsound hprocess ⟨hletGo, hledger⟩ hanswer
    cases hanswer with
    | answered =>
      by_cases hincluded : before.includesBlock (blockProKey c n)
      · have hreply : respond tag (.pushBlock (blockProKey c n)) before = (false, before) :=
          if_pos hincluded
        rw [hreply]
        obtain ⟨entry, hmem, hkey⟩ := List.mem_map.mp (includesBlock_iff.mp hincluded)
        refine ⟨trivial, hsound, (Quiet.refl before).link, hletGo, Or.inr ⟨entry.2, ?_⟩⟩
        rw [Holds, ← hkey]
        exact hmem
      · have hreply : respond tag (.pushBlock (blockProKey c n)) before = (true, { before with
            blocksInProcess := before.blocksInProcess ++ [(blockProKey c n, tag)] }) :=
          if_neg hincluded
        rw [hreply]
        obtain ⟨hafter, hlink⟩ := push_key hsound hprocess.symm hincluded rfl
        refine ⟨trivial, hafter, hlink, ⟨List.mem_append_right _ (List.mem_singleton_self _),
          fun hreliable entry hmem htag ↦ ?_⟩, hledger⟩
        rcases List.mem_append.mp hmem with hmem | hmem
        · exact absurd htag (hletGo hreliable entry hmem)
        · rw [List.mem_singleton.mp hmem]
    | failed _ hfails => exact hfails.elim
    | unanswered _ hfails => exact hfails.elim
  · rintro (_ | _) past - h
    · exact hrefused past h
    · exact hpushed past h

/-- A block of the ledger is processed. -/
theorem safe_processBlockEvent {known : Prop} {noDiscovery : Bool} {header : TxObj δ}
    {rest : List (TxObj δ)} (hdata : block.data = header :: rest) (hchannel : header.channelId = c)
    (hnumber : block.number = n)
    (hdetails : deployment.reliable → ∀ txObj ∈ block.data, txObj.details.isSome)
    (hpast : During tag (fun state ↦ (LetGo deployment tag state ∧ OnLedger state c n block) ∧
      (known → (state.channelsGenHash c).isSome)) past) :
    SyncSafe deployment tag (Processed deployment tag c n known)
      (processBlockEvent deployment.networkId deployment.sha256 block noDiscovery) past := by
  subst hchannel hnumber
  have hpersists : Persists (δ := δ) deployment tag fun state ↦
      (LetGo deployment tag state ∧ OnLedger state header.channelId block.number block) ∧
        (known → (state.channelsGenHash header.channelId).isSome) :=
    (persists_letGo.and (lasts_onLedger.persists tag)).and fun actor before after _ hlink hprocess h
      hknown ↦ lasts_known actor before after hlink hprocess (h hknown)
  rw [processBlockEvent, hdata]
  refine safe_quiet (fun hash : Option String ↦
    (∀ found, hash = some found → found = deployment.genesisHash header.channelId) ∧
      (hash = none → ¬ known)) (fun _ _ ↦ True) hpersists
    (fun _ ↦ hpersists.and ((lasts_const True).persists tag)) hpast ?_ ?_
  · intro before reply after hsound hbefore hanswer
    cases hanswer with
    | answered =>
      refine ⟨Quiet.refl before, ⟨hsound.hashes header.channelId, fun hnone hknown ↦ ?_⟩, trivial⟩
      have hsome := hbefore.2 hknown
      rw [show before.channelsGenHash header.channelId = none from hnone] at hsome
      cases hsome
    | failed _ hfails => exact hfails.elim
    | unanswered _ hfails => exact hfails.elim
  · rintro hash past ⟨hhash, hnone⟩ hnow
    cases hash with
    | none =>
      refine safe_setTimeout persists_letGo (hnow.mono fun _ h ↦ h.1.1.1) fun past h ↦ ?_
      exact ⟨h.mono fun _ h ↦ ⟨h, fun hknown ↦ absurd hknown (hnone rfl)⟩, Or.inl ⟨_, rfl⟩⟩
    | some hash =>
      obtain rfl := hhash hash rfl
      refine safe_pushBlock (hnow.mono fun _ h ↦ h.1.1) (fun past h ↦ ?_) fun past h ↦ ?_
      · refine Safe.mono (safe_processHeld rfl hdetails h) fun outcome past hends ↦ ?_
        cases outcome with
        | ok value =>
          exact ⟨hends.mono fun _ h ↦ ⟨h.1, fun _ ↦ Or.inl h.2⟩, hends.mono fun _ h ↦ h.2⟩
        | error e =>
          obtain ⟨hstuck, howns⟩ := hends
          refine ⟨howns.mono fun _ h ↦ ⟨fun hreliable ↦ absurd hreliable hstuck.1, fun _ ↦
            Or.inr ⟨tag, h.1⟩⟩, Or.inr ⟨hstuck, howns⟩⟩
      · exact ⟨h.mono fun _ h ↦ ⟨h.1, fun _ ↦ h.2⟩, Or.inl ⟨_, rfl⟩⟩

end Saving

end StudentStatus.Explorer
