import StudentStatus.Explorer.SyncSafety

/-!
# The tasks of the explorer

The two tasks are safe: the listener and the look for missing blocks, with its loops. What each
leaves is stated for every outcome (`EventPost`, `SyncPost`), and holds while its process goes on.
-/

set_option autoImplicit false
set_option relaxedAutoImplicit false

namespace StudentStatus.Explorer

open Interaction

variable {δ : Type}

/-! ### Loops -/

section Rounds

variable {deployment : Deployment} {tag : Tag} {c : String} {n : ℕ} {known : Prop}
  {past : SyncPast δ}

/-- What is known of a block that comes from the ledger. -/
structure FromLedger (deployment : Deployment) (c : String) (n : ℕ) (block : Block δ) : Prop where
  number : block.number = n
  header : ∃ header rest, block.data = header :: rest ∧ header.channelId = c
  details : deployment.reliable → ∀ txObj ∈ block.data, txObj.details.isSome

theorem Sound.fromLedger {state : SyncState δ} {block : Block δ} (h : Sound deployment state)
    (hledger : OnLedger state c n block) : FromLedger deployment c n block :=
  ⟨(h.ledger c n block hledger).1, (h.ledger c n block hledger).2,
    fun hreliable ↦ h.details hreliable c n block hledger⟩

/-- What a task needs to cover blocks of a channel: the hash of the channel, and a long ledger. -/
def Covers (c : String) (height : ℕ) (known : Prop) (state : SyncState δ) : Prop :=
  known → (state.channelsGenHash c).isSome ∧ height ≤ (state.ledger c).length

theorem lasts_covers {height : ℕ} : Lasts (δ := δ) deployment (Covers c height known) :=
  fun actor before after hlink hprocess h hknown ↦
    ⟨lasts_known actor before after hlink hprocess (h hknown).1,
      (h hknown).2.trans (hlink.ledger c).length_le⟩

/-- A block of the ledger is processed by a task that needs it covered. -/
theorem safe_process {noDiscovery : Bool} {block : Block δ}
    (hblock : FromLedger deployment c n block)
    (hpast : During tag (fun state ↦ (LetGo deployment tag state ∧ OnLedger state c n block) ∧
      (known → (state.channelsGenHash c).isSome)) past) :
    SyncSafe deployment tag (Processed deployment tag c n known)
      (processBlockEvent deployment.networkId deployment.sha256 block noDiscovery) past := by
  obtain ⟨header, rest, hdata, hchannel⟩ := hblock.header
  exact safe_processBlockEvent hdata hchannel hblock.number hblock.details hpast

/-- A block is asked for at the peer. Where calls do not fail it is there. -/
theorem safe_queryBlock {α : Type} {post : Except SyncError α → SyncPast δ → Prop}
    {rest : Option (Block δ) → SyncProgram δ α} (hreliable : known → deployment.reliable)
    (hpast : During tag (fun state ↦
      LetGo deployment tag state ∧ Covers c (n + 1) known state) past)
    (hnone : ¬ known → ∀ past, During tag (LetGo deployment tag) past →
      SyncSafe deployment tag post (rest none) past)
    (hsome : ∀ block past, FromLedger deployment c n block → During tag (fun state ↦
        (LetGo deployment tag state ∧ OnLedger state c n block) ∧
          Covers c (n + 1) known state) past →
      SyncSafe deployment tag post (rest (some block)) past) :
    SyncSafe deployment tag post (call (.queryBlock c n) >>= rest) past := by
  have hpersists : Persists (δ := δ) deployment tag fun state ↦
      LetGo deployment tag state ∧ Covers c (n + 1) known state :=
    persists_letGo.and (lasts_covers.persists tag)
  refine safe_quiet (fun reply : Option (Block δ) ↦ (reply = none → ¬ known) ∧
      ∀ block, reply = some block → FromLedger deployment c n block)
    (fun (reply : Option (Block δ)) state ↦ ∀ block, reply = some block → OnLedger state c n block)
    hpersists (fun reply ↦ hpersists.and ?_) hpast ?_ ?_
  · exact fun actor before after _ hlink hprocess h block heq ↦
      lasts_onLedger actor before after hlink hprocess (h block heq)
  · intro before reply after hsound hbefore hanswer
    have hfails (hunreliable : ¬ deployment.reliable) (hreply : reply = (none : Option (Block δ))) :
        Quiet before before ∧ ((reply = (none : Option (Block δ)) → ¬ known) ∧
          ∀ block, reply = some block → FromLedger deployment c n block) ∧
          ∀ block, reply = some block → OnLedger before c n block := by
      subst hreply
      exact ⟨Quiet.refl before, ⟨fun _ hknown ↦ hunreliable (hreliable hknown), nofun⟩, nofun⟩
    cases hanswer with
    | answered =>
      refine ⟨Quiet.refl before, ⟨fun hnone hknown ↦ ?_, fun block heq ↦ ?_⟩, fun block heq ↦ heq⟩
      · exact absurd (hbefore.2 hknown).2
          (Nat.not_lt.mpr (List.getElem?_eq_none_iff.mp hnone))
      · exact hsound.fromLedger heq
    | failed hunreliable hreply => exact hfails hunreliable hreply
    | unanswered hunreliable hreply => exact hfails hunreliable hreply
  · rintro (_ | block) past ⟨hpossible, hfrom⟩ h
    · exact hnone (hpossible rfl) past (h.mono fun _ h ↦ h.1.1)
    · exact hsome block past (hfrom block rfl) (h.mono fun _ h ↦ ⟨⟨h.1.1, h.2 block rfl⟩, h.1.2⟩)

/-- What stays during a program is still known at its end. -/
theorem SyncSafe.keep {α : Type} {post : Except SyncError α → SyncPast δ → Prop}
    {program : SyncProgram δ α} {fact : SyncState δ → Prop}
    (h : SyncSafe deployment tag post program past) (hfact : Lasts deployment fact)
    (hpast : During tag fact past) :
    SyncSafe deployment tag (fun outcome past ↦ post outcome past ∧ During tag fact past) program
      past :=
  Safe.keep (fun _ _ hnow hsound ↦ hnow.lasts hfact hsound) h hpast

theorem During.and {fact other : SyncState δ → Prop} (h : During tag fact past)
    (hother : During tag other past) : During tag (fun state ↦ fact state ∧ other state) past := by
  obtain ⟨moment, earlier, rfl, hprocess, hfact⟩ := h
  exact now_cons.mpr ⟨hprocess, fun heq ↦ ⟨hfact heq, (now_cons.mp hother).2 heq⟩⟩

/-- A round of the first loop. -/
theorem safe_syncBlock {channelGenesisHash : Option String} {noDiscovery : Bool}
    (hreliable : known → deployment.reliable)
    (hpast : During tag (fun state ↦ LetGo deployment tag state ∧ Covers c (n + 1) known state)
      past) :
    SyncSafe deployment tag (fun _ ↦ During tag (LetGo deployment tag))
      (syncBlock deployment.networkId deployment.sha256 c channelGenesisHash noDiscovery n)
      past := by
  unfold syncBlock
  have hasked {fact : SyncState δ → Prop} (hfact : Persists deployment tag fact)
      (hletGo : ∀ state, fact state → LetGo deployment tag state) {past : SyncPast δ}
      (hpast : During tag fact past) : SyncSafe deployment tag
        (Ends deployment tag (fun _ ↦ fact) (LetGo deployment tag))
        (runQuery (.isBlockAvailableInDB channelGenesisHash n)) past :=
    safe_runQuery_counter (fun _ ↦ ⟨rfl, rfl⟩) hfact hpast hletGo
  refine safe_queryBlock hreliable hpast (fun _ past h ↦ ?_) fun block past hfrom h ↦ ?_
  · exact Safe.bind _ (hasked persists_letGo (fun _ h ↦ h) h) (fun _ past h ↦ h)
      fun _ past h ↦ h.2
  · have hpersists : Persists (δ := δ) deployment tag fun state ↦
        (LetGo deployment tag state ∧ OnLedger state c n block) ∧ Covers c (n + 1) known state :=
      (persists_letGo.and (lasts_onLedger.persists tag)).and (lasts_covers.persists tag)
    refine Safe.bind _ (hasked hpersists (fun _ h ↦ h.1.1) h) (fun available past h ↦ ?_)
      fun _ past h ↦ h.2
    dsimp only
    split_ifs
    · exact h.mono fun _ h ↦ h.1.1
    · exact Safe.bind _ (safe_process hfrom (h.mono fun _ h ↦ ⟨h.1, fun hknown ↦ (h.2 hknown).1⟩))
        (fun _ past h ↦ h.1.mono fun _ h ↦ h.1) fun _ past h ↦ h.1.mono fun _ h ↦ h.1

/-- A round of the second loop. -/
theorem safe_syncMissingBlock {noDiscovery : Bool} (hreliable : known → deployment.reliable)
    (hpast : During tag (fun state ↦ LetGo deployment tag state ∧ Covers c (n + 1) known state)
      past) :
    SyncSafe deployment tag (fun _ ↦ During tag fun state ↦
        LetGo deployment tag state ∧ (known → Covered deployment c n state))
      (syncMissingBlock deployment.networkId deployment.sha256 c noDiscovery n) past := by
  unfold syncMissingBlock
  refine safe_queryBlock hreliable hpast (fun hunknown past h ↦ ?_)
    fun block past hfrom h ↦ ?_
  · exact h.mono fun _ h ↦ ⟨h, fun hknown ↦ absurd hknown hunknown⟩
  · exact Safe.bind _ (safe_process hfrom (h.mono fun _ h ↦ ⟨h.1, fun hknown ↦ (h.2 hknown).1⟩))
      (fun _ past h ↦ h.1) fun _ past h ↦ h.1

/-- What every round keeps and what it adds, over a loop. -/
theorem safe_forEach (added : ℕ → SyncState δ → Prop) {fact : SyncState δ → Prop}
    {round : ℕ → SyncProgram δ Unit} (hadded : ∀ n, Lasts deployment (added n)) (numbers : List ℕ)
    (hround : ∀ n ∈ numbers, ∀ past, During tag fact past → SyncSafe deployment tag
      (fun _ ↦ During tag fun state ↦ fact state ∧ added n state) (round n) past)
    (past : SyncPast δ) (hpast : During tag fact past) :
    SyncSafe deployment tag (fun outcome past ↦ outcome = .ok () ∧
      During tag (fun state ↦ fact state ∧ ∀ n ∈ numbers, added n state) past)
      (forEach round numbers) past := by
  induction numbers generalizing past with
  | nil => exact ⟨rfl, hpast.mono fun _ h ↦ ⟨h, fun n hmem ↦ absurd hmem List.not_mem_nil⟩⟩
  | cons number rest ih =>
    refine Safe.bind (fun outcome past ↦ (∃ result, outcome = .ok result) ∧
      During tag (fun state ↦ fact state ∧ added number state) past) ?_ ?_ ?_
    · exact Safe.attempt ((hround number List.mem_cons_self past hpast).mono
        fun outcome past h ↦ ⟨⟨outcome, rfl⟩, h⟩)
    · rintro result past ⟨-, h⟩
      refine Safe.mono ((ih (fun n hmem ↦ hround n (List.mem_cons_of_mem _ hmem)) past
        (h.mono fun _ h ↦ h.1)).keep (hadded number) (h.mono fun _ h ↦ h.2)) ?_
      rintro outcome past ⟨⟨hok, hrest⟩, hnumber⟩
      refine ⟨hok, (hrest.and hnumber).mono fun state h ↦ ⟨h.1.1, fun n hmem ↦ ?_⟩⟩
      rcases List.mem_cons.mp hmem with rfl | hmem
      · exact h.2
      · exact h.1.2 n hmem
    · rintro e past ⟨⟨_, heq⟩, -⟩
      cases heq

theorem mem_heightsDown {latestBlockHeight : ℤ} {starting : ℕ} :
    n ∈ heightsDown latestBlockHeight starting ↔
      n < (latestBlockHeight + 1).toNat ∧ starting ≤ n := by
  simp [heightsDown]

theorem lowWord_le (height : ℕ) : lowWord height ≤ height := by
  unfold lowWord Int.bmod
  dsimp only
  split_ifs <;> omega

/-- What the query for missing blocks returns: heights up to the latest, and no other lacks. -/
def Missing (deployment : Deployment) (c : String) (latestBlockHeight : ℤ) (known : Prop)
    (missingBlocks : List ℕ) (state : SyncState δ) : Prop :=
  (∀ n ∈ missingBlocks, n < (latestBlockHeight + 1).toNat) ∧
    (known → ∀ n < (latestBlockHeight + 1).toNat, n ∉ missingBlocks → Saved deployment c n state)

theorem lasts_missing {latestBlockHeight : ℤ} {missingBlocks : List ℕ} :
    Lasts (δ := δ) deployment (Missing deployment c latestBlockHeight known missingBlocks) :=
  fun actor before after hlink hprocess h ↦ ⟨h.1, fun hknown n hlt hmem ↦
    lasts_saved actor before after hlink hprocess (h.2 hknown n hlt hmem)⟩

theorem missing_missing {state : SyncState δ} {channelGenesisHash : Option String}
    {latestBlockHeight : ℤ}
    (hhash : known → channelGenesisHash = some (deployment.genesisHash c)) :
    Missing deployment c latestBlockHeight known
      (state.database.missing deployment.networkId channelGenesisHash latestBlockHeight) state := by
  refine ⟨fun n hmem ↦ List.mem_range.mp (List.mem_filter.mp hmem).1,
    fun hknown n hlt hmem hnil ↦ ?_⟩
  refine hmem (List.mem_filter.mpr ⟨List.mem_range.mpr hlt, decide_eq_true ?_⟩)
  rintro ⟨row, hrow, hnumber, hsome, hnetwork⟩
  rw [hhash hknown, Option.some.injEq] at hsome
  have hmem : row ∈ blocksOf deployment state c n :=
    List.mem_filter.mpr ⟨hrow, decide_eq_true ⟨hnetwork, hsome, hnumber⟩⟩
  rw [hnil] at hmem
  cases hmem

/-- The key of the synchronisation is taken off, which is never there. -/
theorem safe_spliceSynch {synchKey : String} {fact : SyncState δ → Prop}
    (hfact : Persists deployment tag fact) (hpast : During tag fact past) :
    SyncSafe deployment tag (fun outcome past ↦ outcome = .ok () ∧ During tag fact past)
      (call (.spliceSynch synchKey)) past := by
  refine safe_call (fun _ ↦ True) (fun _ ↦ fact) hfact hpast ?_ fun _ past _ h ↦ ⟨rfl, h⟩
  intro before reply after hsound _ hbefore hanswer
  cases hanswer with
  | answered =>
    have hquiet : Quiet before { before with
        synchInProcess := spliceKey id synchKey before.synchInProcess } := by
      refine ⟨rfl, rfl, rfl, rfl, ?_, rfl, rfl, rfl⟩
      rw [hsound.synch]
      rfl
    exact ⟨trivial, hquiet.sound hsound, hquiet.link, hfact.quiet hquiet hbefore⟩
  | failed _ hfails => exact hfails.elim
  | unanswered _ hfails => exact hfails.elim

/-- After both loops the heights asked for are covered. -/
theorem safe_syncHeights {synchKey : String} {channelGenesisHash : Option String}
    {noDiscovery : Bool} {latestBlockHeight : ℤ} {starting height : ℕ}
    (hreliable : known → deployment.reliable)
    (hhash : known → channelGenesisHash = some (deployment.genesisHash c))
    (hheight : (latestBlockHeight + 1).toNat ≤ height)
    (hpast : During tag (fun state ↦ LetGo deployment tag state ∧ Covers c height known state)
      past) :
    SyncSafe deployment tag (fun _ ↦ During tag fun state ↦ LetGo deployment tag state ∧
        (known → ∀ n ∈ heightsDown latestBlockHeight starting, Covered deployment c n state))
      (syncHeights deployment.networkId deployment.sha256 synchKey c channelGenesisHash noDiscovery
        latestBlockHeight starting) past := by
  have hpersists : Persists (δ := δ) deployment tag fun state ↦
      LetGo deployment tag state ∧ Covers c height known state :=
    persists_letGo.and (lasts_covers.persists tag)
  have hnext {n : ℕ} (hn : n < height) {state : SyncState δ} (h : Covers c height known state) :
      Covers c (n + 1) known state :=
    fun hknown ↦ ⟨(h hknown).1, hn.trans_le (h hknown).2⟩
  unfold syncHeights
  refine Safe.bind _ (safe_forEach (fun _ _ ↦ True) (fun _ ↦ lasts_const True)
    (heightsDown latestBlockHeight starting) (fun n hmem past h ↦ ?_) past hpast)
    (fun _ past h ↦ ?_) fun e past h ↦ by cases h.1
  · have hn := (mem_heightsDown.mp hmem).1.trans_le hheight
    refine Safe.mono ((safe_syncBlock hreliable (h.mono fun _ h ↦ ⟨h.1, hnext hn h.2⟩)).keep
      lasts_covers (h.mono fun _ h ↦ h.2)) fun _ past h ↦ ?_
    exact (h.1.and h.2).mono fun _ h ↦ ⟨h, trivial⟩
  have hmissing (missingBlocks : List ℕ) : Persists (δ := δ) deployment tag fun state ↦
      (LetGo deployment tag state ∧ Covers c height known state) ∧
        Missing deployment c latestBlockHeight known missingBlocks state :=
    hpersists.and (lasts_missing.persists tag)
  have hquery : SyncSafe deployment tag (Ends deployment tag (fun missingBlocks state ↦
        (LetGo deployment tag state ∧ Covers c height known state) ∧
          Missing deployment c latestBlockHeight known missingBlocks state)
      (LetGo deployment tag)) (runQuery (.findMissingBlockNumber deployment.networkId
        channelGenesisHash latestBlockHeight)) past :=
    safe_runQuery_quiet _ (fun _ ↦ ⟨rfl, rfl⟩) hpersists hmissing (h.2.mono fun _ h ↦ h.1)
      (fun _ h ↦ h.1) fun before _ _ ↦ missing_missing hhash
  refine Safe.bind _ hquery (fun missingBlocks past h ↦ ?_) fun e past h ↦ ?_
  swap
  · exact h.2.mono fun _ hletGo ↦ ⟨hletGo, fun hknown ↦ absurd (hreliable hknown) h.1.1⟩
  refine Safe.bind _ (safe_forEach (fun n state ↦ known → Covered deployment c n state)
    (fun n actor before after hlink hprocess hcovered hknown ↦
      lasts_covered actor before after hlink hprocess (hcovered hknown))
    (missingBlocks.filter (starting ≤ ·)) (fun n hmem past h ↦ ?_) past h) (fun _ past h ↦ ?_)
    fun e past h ↦ by cases h.1
  · have hmem := (List.mem_filter.mp hmem).1
    refine Safe.mono (((safe_syncMissingBlock hreliable (h.mono fun _ h ↦
      ⟨h.1.1, hnext ((h.2.1 n hmem).trans_le hheight) h.1.2⟩)).keep lasts_covers
      (h.mono fun _ h ↦ h.1.2)).keep lasts_missing (h.mono fun _ h ↦ h.2)) fun _ past h ↦ ?_
    exact ((h.1.1.and h.1.2).and h.2).mono fun _ h ↦ ⟨⟨⟨h.1.1.1, h.1.2⟩, h.2⟩, h.1.1.2⟩
  · have hcovered : During tag (fun state ↦ LetGo deployment tag state ∧
        (known → ∀ n ∈ heightsDown latestBlockHeight starting, Covered deployment c n state))
        past := by
      refine h.2.mono fun state h ↦ ⟨h.1.1.1, fun hknown n hmem ↦ ?_⟩
      obtain ⟨hlt, hstarting⟩ := mem_heightsDown.mp hmem
      by_cases hn : n ∈ missingBlocks
      · exact h.2 n (List.mem_filter.mpr ⟨hn, decide_eq_true hstarting⟩) hknown
      · exact Or.inl (h.1.2.2 hknown n hlt hn)
    refine Safe.mono (safe_spliceSynch (persists_letGo.and ?_) hcovered) fun _ past h ↦ h.2
    exact fun actor before after _ hlink hprocess h hknown n hmem ↦
      lasts_covered actor before after hlink hprocess (h hknown n hmem)

end Rounds

/-! ### Tasks -/

/-- The heights that `syncBlocks` asks for when the ledger has the height. -/
def Deployment.syncRange (deployment : Deployment) (height : ℕ) : List ℕ :=
  match Explorer.noOfBlocks deployment.bootMode deployment.noOfBlocks (lowWord height - 1) with
  | none => []
  | some count =>
    heightsDown (lowWord height - 1) (startingBlockHeight (lowWord height - 1) count)

/-- The height of the ledger of the channel. -/
def heightAt (c : String) : SyncPast δ → ℕ
  | [] => 0
  | moment :: _ => (moment.state.ledger c).length

/-- The hash of the channel is known to the process of the task. -/
def KnownAt (tag : Tag) (c : String) (past : SyncPast δ) : Prop :=
  Now past fun state ↦ state.process = tag.process ∧ (state.channelsGenHash c).isSome

/-- The ledger is not shorter than at the start, and the hash is known if it was then. -/
def Began (tag : Tag) (c : String) (since : SyncPast δ) (state : SyncState δ) : Prop :=
  heightAt c since ≤ (state.ledger c).length ∧
    (KnownAt tag c since → (state.channelsGenHash c).isSome)

/-- What a look for missing blocks leaves: when no call fails and the hash of the channel was known
at its start, the heights that it asked for are covered. -/
def SyncPost (deployment : Deployment) (tag : Tag) (c : String) (since : SyncPast δ)
    (outcome : Except SyncError Unit) (past : SyncPast δ) : Prop :=
  outcome = .ok () ∧ During tag (fun state ↦ LetGo deployment tag state ∧
    (deployment.reliable ∧ KnownAt tag c since → ∃ height, heightAt c since ≤ height ∧
      height ≤ (state.ledger c).length ∧
      ∀ n ∈ deployment.syncRange height, Covered deployment c n state)) past

/-- What the listener leaves. A block other than the first that was on the ledger at the start is
saved, or another task has its key, or an error leaves the key where it is. -/
def EventPost (deployment : Deployment) (tag : Tag) (c : String) (n : ℕ) (since : SyncPast δ)
    (outcome : Except SyncError Unit) (past : SyncPast δ) : Prop :=
  During tag (fun state ↦ LetGo deployment tag state ∧
    (KnownAt tag c since → n < heightAt c since → n ≠ 0 → Covered deployment c n state)) past ∧
  match outcome with
  | .ok _ => n < heightAt c since → n ≠ 0 → During tag (Saved deployment c n) past
  | .error e => (∃ message, e = .explorer message) ∨
    Stuck deployment e ∧ During tag (Owns deployment tag c n) past

section Tasks

variable {deployment : Deployment} {tag : Tag} {c : String} {n : ℕ} {past : SyncPast δ}

/-- A task that has not acted has no key. -/
theorem SoundPast.letGo {moment : Moment Tag (SyncState δ)} {earlier : SyncPast δ}
    (h : SoundPast deployment (moment :: earlier)) (hnotBy : NotBy tag (moment :: earlier)) :
    LetGo deployment tag moment.state := by
  intro _ entry hentry htag
  obtain ⟨acted, hmem, heq⟩ := h.now_good.2 entry hentry
  exact hnotBy acted hmem (heq.trans (congrArg some htag))

/-- What a task has when it makes its first call. -/
theorem ready_begin (hnotBy : NotBy tag past) : Ready deployment tag (fun state ↦
    LetGo deployment tag state ∧ Began tag c past state) past := by
  intro newer moment earlier hnewest hnewer hsound hprocess
  refine ⟨hsound.letGo ?_, ?_⟩
  · rw [← hnewest]
    exact notBy_append.mpr ⟨hnewer, hnotBy⟩
  · rw [← hnewest] at hsound
    cases hpast : past with
    | nil =>
      refine ⟨Nat.zero_le _, ?_⟩
      rintro ⟨_, _, heq, -⟩
      cases heq
    | cons first rest =>
      rw [hpast] at hsound hnewest
      constructor
      · have hnow : Now (newer ++ first :: rest)
            fun state ↦ (first.state.ledger c).length ≤ (state.ledger c).length :=
          hsound.linked.now (fun _ ↦ True) (fun _ _ ↦ trivial)
            (fun _ _ _ _ hlink hle ↦ hle.trans (hlink.ledger c).length_le) (now_cons.mpr le_rfl)
        rw [hnewest] at hnow
        exact now_cons.mp hnow
      · intro hknown
        obtain ⟨hsame, hsome⟩ := now_cons.mp hknown
        have hnow : During tag (fun state ↦ (state.channelsGenHash c).isSome)
            (newer ++ first :: rest) :=
          During.lasts (now_cons.mpr ⟨hsame.ge, fun _ ↦ hsome⟩) lasts_known hsound
        rw [hnewest] at hnow
        exact (now_cons.mp hnow).2 hprocess

theorem lasts_began {since : SyncPast δ} : Lasts deployment (Began tag c since) :=
  fun actor before after hlink hprocess h ↦ ⟨h.1.trans (hlink.ledger c).length_le,
    fun hknown ↦ lasts_known actor before after hlink hprocess (h.2 hknown)⟩

theorem persists_began {since : SyncPast δ} : Persists deployment tag fun state ↦
    LetGo deployment tag state ∧ Began tag c since state :=
  persists_letGo.and (lasts_began.persists tag)

/-- The height of the ledger is asked for at the peer. -/
theorem safe_queryChainInfo {α : Type} {post : Except SyncError α → SyncPast δ → Prop}
    {since : SyncPast δ} {rest : Option ℕ → SyncProgram δ α} (hpast : During tag (fun state ↦
      LetGo deployment tag state ∧ Began tag c since state) past)
    (hnone : ¬ deployment.reliable → ∀ past, During tag (LetGo deployment tag) past →
      SyncSafe deployment tag post (rest none) past)
    (hsome : ∀ height past, heightAt c since ≤ height → During tag (fun state ↦
        (LetGo deployment tag state ∧ Began tag c since state) ∧
          height ≤ (state.ledger c).length) past →
      SyncSafe deployment tag post (rest (some height)) past) :
    SyncSafe deployment tag post (call (.queryChainInfo c) >>= rest) past := by
  refine safe_quiet (fun reply : Option ℕ ↦ (reply = none → ¬ deployment.reliable) ∧
      ∀ height, reply = some height → heightAt c since ≤ height)
    (fun (reply : Option ℕ) state ↦ ∀ height, reply = some height →
      height ≤ (state.ledger c).length) persists_began (fun reply ↦ persists_began.and ?_) hpast
    ?_ ?_
  · exact fun _ before after _ hlink _ h height heq ↦
      (h height heq).trans (hlink.ledger c).length_le
  · intro before reply after hsound hbefore hanswer
    have hfails (hunreliable : ¬ deployment.reliable) (hreply : reply = (none : Option ℕ)) :
        Quiet before before ∧ ((reply = (none : Option ℕ) → ¬ deployment.reliable) ∧
          ∀ height, reply = some height → heightAt c since ≤ height) ∧
          ∀ height, reply = some height → height ≤ (before.ledger c).length := by
      subst hreply
      exact ⟨Quiet.refl before, ⟨fun _ ↦ hunreliable, nofun⟩, nofun⟩
    cases hanswer with
    | answered =>
      refine ⟨Quiet.refl before, ⟨nofun, fun height heq ↦ ?_⟩, fun height heq ↦ ?_⟩
      · rw [← Option.some.inj heq]
        exact hbefore.2.1
      · rw [← Option.some.inj heq]
    | failed hunreliable hreply => exact hfails hunreliable hreply
    | unanswered hunreliable hreply => exact hfails hunreliable hreply
  · rintro (_ | height) past ⟨hnoneReliable, hfloor⟩ h
    · exact hnone (hnoneReliable rfl) past (h.mono fun _ h ↦ h.1.1)
    · exact hsome height past (hfloor height rfl) (h.mono fun _ h ↦ ⟨h.1, h.2 height rfl⟩)

/-- `syncBlocks` is safe. -/
theorem safe_syncBlocks {noDiscovery : Bool} (hnotBy : NotBy tag past) :
    SyncSafe deployment tag (SyncPost deployment tag c past)
      (syncBlocks deployment.networkId deployment.sha256 deployment.bootMode deployment.noOfBlocks c
        noDiscovery) past := by
  unfold syncBlocks
  refine (ready_begin (c := c) hnotBy).call (fun inProcess : Bool ↦ inProcess = false)
    (fun _ state ↦ LetGo deployment tag state ∧ Began tag c past state) ?_ ?_
  · intro before reply after hsound _ hbefore hanswer
    cases hanswer with
    | answered =>
      refine ⟨?_, hsound, (Quiet.refl before).link, hbefore⟩
      change decide (_ ∈ before.synchInProcess) = false
      rw [hsound.synch]
      rfl
    | failed _ hfails => exact hfails.elim
    | unanswered _ hfails => exact hfails.elim
  rintro inProcess now rfl h
  refine safe_queryChainInfo h (fun hunreliable now h ↦ ?_) fun height now hfloor h ↦ ?_
  · exact ⟨rfl, h.mono fun _ h ↦ ⟨h, fun hknown ↦ absurd hknown.1 hunreliable⟩⟩
  have hpersists : Persists (δ := δ) deployment tag fun state ↦
      (LetGo deployment tag state ∧ Began tag c past state) ∧ height ≤ (state.ledger c).length :=
    persists_began.and fun _ before after _ hlink _ h ↦ h.trans (hlink.ledger c).length_le
  refine safe_quiet (fun hash : Option String ↦
    KnownAt tag c past → hash = some (deployment.genesisHash c)) (fun _ _ ↦ True) hpersists
    (fun _ ↦ hpersists.and ((lasts_const True).persists tag)) h ?_ ?_
  · intro before reply after hsound hbefore hanswer
    cases hanswer with
    | answered =>
      refine ⟨Quiet.refl before, fun hknown ↦ ?_, trivial⟩
      obtain ⟨hash, hhash⟩ := Option.isSome_iff_exists.mp (hbefore.1.2.2 hknown)
      change before.channelsGenHash c = _
      rw [hhash, hsound.hashes c hash hhash]
    | failed _ hfails => exact hfails.elim
    | unanswered _ hfails => exact hfails.elim
  rintro channelGenesisHash now hhash h
  dsimp only
  generalize hlatest : lowWord height - 1 = latest
  cases hcount : noOfBlocks deployment.bootMode deployment.noOfBlocks latest with
  | none =>
    refine ⟨rfl, h.mono fun _ h ↦ ⟨h.1.1.1, fun _ ↦ ⟨height, hfloor, h.1.2, fun n hmem ↦ ?_⟩⟩⟩
    rw [Deployment.syncRange, hlatest, hcount] at hmem
    cases hmem
  | some count =>
    have hlength : Lasts (δ := δ) deployment fun state ↦ height ≤ (state.ledger c).length :=
      fun _ before after hlink _ h ↦ h.trans (hlink.ledger c).length_le
    have hlatestLe : (latest + 1).toNat ≤ height := by
      have hword := lowWord_le height
      omega
    refine Safe.bind (fun outcome now ↦ (∃ result, outcome = .ok result) ∧
      During tag (fun state ↦ (LetGo deployment tag state ∧
        (deployment.reliable ∧ KnownAt tag c past → ∀ n ∈ heightsDown latest
          (startingBlockHeight latest count), Covered deployment c n state)) ∧
        height ≤ (state.ledger c).length) now) ?_ ?_ ?_
    · refine Safe.attempt (Safe.mono ((safe_syncHeights And.left (fun hknown ↦ hhash hknown.2)
        hlatestLe (h.mono fun _ h ↦
          ⟨h.1.1.1, fun hknown ↦ ⟨h.1.1.2.2 hknown.2, h.1.2⟩⟩)).keep hlength
        (h.mono fun _ h ↦ h.1.2)) fun outcome now h ↦ ?_)
      exact ⟨⟨outcome, rfl⟩, h.1.and h.2⟩
    · rintro result now ⟨-, h⟩
      refine ⟨rfl, h.mono fun state h ↦
        ⟨h.1.1, fun hknown ↦ ⟨height, hfloor, h.2, fun n hmem ↦ ?_⟩⟩⟩
      rw [Deployment.syncRange, hlatest, hcount] at hmem
      exact h.1.2 hknown n hmem
    · rintro e now ⟨⟨_, heq⟩, -⟩
      cases heq

/-- The listener is safe. -/
theorem safe_blockListener (hnotBy : NotBy tag past) :
    SyncSafe deployment tag (EventPost deployment tag c n past)
      (blockListener deployment.networkId deployment.sha256 c n) past := by
  unfold blockListener
  refine (ready_begin (c := c) hnotBy).call (fun event : Option (Block δ) ↦
      (event = none → ¬ n < heightAt c past) ∧
        ∀ block, event = some block → FromLedger deployment c n block)
    (fun (event : Option (Block δ)) state ↦ (LetGo deployment tag state ∧
      ∀ block, event = some block → OnLedger state c n block) ∧ Began tag c past state) ?_ ?_
  · intro before reply after hsound _ hbefore hanswer
    cases hanswer with
    | answered =>
      refine ⟨⟨fun hnone hlt ↦ ?_, fun block heq ↦ hsound.fromLedger heq⟩, hsound,
        (Quiet.refl before).link, ⟨hbefore.1, fun block heq ↦ heq⟩, hbefore.2⟩
      exact absurd (hlt.trans_le hbefore.2.1)
        (Nat.not_lt.mpr (List.getElem?_eq_none_iff.mp hnone))
    | failed _ hfails => exact hfails.elim
    | unanswered _ hfails => exact hfails.elim
  rintro (_ | block) now ⟨hnone, hfrom⟩ h
  · exact ⟨h.mono fun _ h ↦ ⟨h.1.1, fun _ hlt ↦ absurd hlt (hnone rfl)⟩,
      fun hlt ↦ absurd hlt (hnone rfl)⟩
  have hblock := hfrom block rfl
  dsimp only
  rw [hblock.number]
  split_ifs with hzero
  · have hprocess : SyncSafe deployment tag (Processed deployment tag c n (KnownAt tag c past))
        (processBlockEvent deployment.networkId deployment.sha256 block false) now :=
      safe_process hblock (h.mono fun _ h ↦ ⟨⟨h.1.1, h.1.2 block rfl⟩, h.2.2⟩)
    refine Safe.bind _ hprocess (fun _ now h ↦ ?_) fun e now h ↦ ?_
    · exact ⟨h.1.mono fun _ h ↦ ⟨h.1, fun hknown _ _ ↦ h.2 hknown⟩, fun _ _ ↦ h.2⟩
    · exact ⟨h.1.mono fun _ h ↦ ⟨h.1, fun hknown _ _ ↦ h.2 hknown⟩, h.2⟩
  · exact ⟨h.mono fun _ h ↦ ⟨h.1.1, fun _ _ hne ↦ absurd hne hzero⟩, fun _ hne ↦ absurd hne hzero⟩

end Tasks

end StudentStatus.Explorer
