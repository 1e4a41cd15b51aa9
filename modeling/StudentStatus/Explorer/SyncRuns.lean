import StudentStatus.Explorer.SyncTasks

/-!
# Runs of the explorer

What holds in every run of the explorer, however the listener, the looks for missing blocks, failing
queries, new blocks and restarts are interleaved. The tables hold the blocks of the ledgers, each
once and whole (`explorer_tables`), and what is notified is there (`explorer_sent`). Only the task
that has the key of a block writes its rows (`explorer_exclusive`). An error leaves the key, and
with it the block as it is until the next restart (`explorer_stuck`). Where no call fails, tasks
that are done leave nothing out (`explorer_quiescent`), and a look for missing blocks that runs
alone saves every block whose key nobody has (`explorer_repairs`); so a restart recovers from every
state in which no transaction row throws (`explorer_recovers`).
-/

set_option autoImplicit false
set_option relaxedAutoImplicit false

namespace StudentStatus.Explorer

open Interaction

variable {δ : Type}

/-! ### Every task is safe -/

/-- What a task leaves. -/
def TaskPost (deployment : Deployment) (tag : Tag) (since : SyncPast δ)
    (outcome : Except SyncError Unit) (past : SyncPast δ) : Prop :=
  match deployment.tasks tag with
  | .event channelName number => EventPost deployment tag channelName number since outcome past
  | .sync channelName _ => SyncPost deployment tag channelName since outcome past

section Stability

variable {deployment : Deployment} {tag : Tag} {c : String} {n : ℕ} {since : SyncPast δ}

theorem stable_syncPost (outcome : Except SyncError Unit) :
    Stable (SoundPast deployment) tag (SyncPost deployment tag c since outcome) := by
  rintro past newer ⟨hok, hnow⟩ hnewer hsound
  refine ⟨hok, stable_during (persists_letGo.and ?_) past newer hnow hnewer hsound⟩
  intro actor before after _ hlink hprocess h hknown
  obtain ⟨height, hfloor, hle, hcovered⟩ := h hknown
  exact ⟨height, hfloor, hle.trans (hlink.ledger c).length_le,
    fun n hmem ↦ lasts_covered actor before after hlink hprocess (hcovered n hmem)⟩

theorem stable_eventPost (outcome : Except SyncError Unit) :
    Stable (SoundPast deployment) tag (EventPost deployment tag c n since outcome) := by
  rintro past newer ⟨hnow, houtcome⟩ hnewer hsound
  refine ⟨stable_during (persists_letGo.and ?_) past newer hnow hnewer hsound, ?_⟩
  · exact fun actor before after _ hlink hprocess h hknown hlt hne ↦
      lasts_covered actor before after hlink hprocess (h hknown hlt hne)
  · cases outcome with
    | ok value => exact fun hlt hne ↦ (houtcome hlt hne).lasts lasts_saved hsound
    | error e =>
      refine houtcome.imp_right fun h ↦ ⟨h.1, ?_⟩
      exact stable_during persists_owns past newer h.2 hnewer hsound

end Stability

/-- The past of the explorer is sound and every task is safe, whatever is interleaved. -/
theorem guarantees (deployment : Deployment) :
    Guarantees (deployment.explorer δ) (SoundPast deployment) (TaskPost deployment) where
  start state hstart := by
    obtain rfl : state = .initial := hstart
    refine Orderly.singleton _ trivial ⟨sound_initial deployment, fun entry hmem ↦ ?_⟩
    cases hmem
  drift moment earlier state hsound hdrift := by
    obtain ⟨hafter, hlink⟩ := drift_step hsound.sound hdrift
    exact hsound.step hafter hlink
  restart moment earlier state hsound hrestart := by
    obtain ⟨hafter, hlink⟩ := restart_step hsound.sound hrestart
    exact hsound.step hafter hlink
  body tag moment earlier hsound hnotBy := by
    change Safe _ _ _ _ (deployment.run (deployment.tasks tag)) _
    unfold TaskPost
    cases deployment.tasks tag with
    | event channelName number => exact safe_blockListener hnotBy
    | sync channelName noDiscovery => exact safe_syncBlocks hnotBy
  stable tag since outcome := by
    unfold TaskPost
    cases deployment.tasks tag with
    | event channelName number => exact stable_eventPost outcome
    | sync channelName noDiscovery => exact stable_syncPost outcome

/-- No row of a transaction on the ledgers throws. -/
def Readable (state : SyncState δ) : Prop :=
  ∀ c n block, OnLedger state c n block → ∀ txObj ∈ block.data, txObj.details.isSome

/-- No call changes the process or a ledger. -/
theorem respond_keeps (tag : Tag) (request : SyncCall δ) (state : SyncState δ) :
    (respond tag request state).2.process = state.process ∧
      (respond tag request state).2.ledger = state.ledger := by
  cases request with
  | pushBlock blockProKey =>
    simp only [respond]
    split_ifs <;> exact ⟨rfl, rfl⟩
  | _ => exact ⟨rfl, rfl⟩

/-! ### A channel with two blocks -/

/-- An explorer of one channel. Task 0 looks for missing blocks, the others listen for block 1. The
digest is that of the text of the configuration. -/
def schoolExplorer (reliable : Prop) : Deployment where
  networkId := "wdu"
  bootMode := "ALL"
  noOfBlocks := none
  sha256 _ := "44136fa355b3678a1146ad16f7e8649e94fb4fc21fe77e8310c060f61caaff8a"
  genesisHash := id
  genesisHash_injective := Function.injective_id
  tasks tag := if tag.task = 0 then .sync "school" true else .event "school" 1
  reliable := reliable

def configTx : TxObj Unit := ⟨"school", "", "CONFIG", none, "{}", some ()⟩

def studentTx : TxObj Unit :=
  ⟨"school", "7f", "ENDORSER_TRANSACTION", some ⟨"students", "1.0"⟩, "{}", some ()⟩

def genesisBlock : Block Unit := ⟨0, "d0", "", [configTx], ()⟩

def studentBlock : Block Unit := ⟨1, "d1", "d0", [studentTx], ()⟩

/-- Two blocks on the ledger, and the channel discovered. -/
def schoolState : SyncState Unit :=
  { SyncState.initial with
    ledger := Function.update (fun _ ↦ []) "school" [genesisBlock, studentBlock]
    channelsGenHash := Function.update (fun _ ↦ none) "school" (some "school") }

theorem reaches_school (reliable : Prop) :
    ∃ earlier, (∀ tag, NotBy tag (⟨none, schoolState⟩ :: earlier)) ∧
      Reaches ((schoolExplorer reliable).explorer Unit) (⟨none, schoolState⟩ :: earlier) [] := by
  have hstart : Reaches ((schoolExplorer reliable).explorer Unit) [⟨none, .initial⟩] [] :=
    .start rfl
  have hgenesis := hstart.drift (.append "school" genesisBlock rfl ⟨configTx, [], rfl, rfl⟩
    fun _ txObj hmem ↦ by rw [List.mem_singleton.mp hmem]; rfl)
  have hstudent := hgenesis.drift (.append "school" studentBlock (by rfl) ⟨studentTx, [], rfl, rfl⟩
    fun _ txObj hmem ↦ by rw [List.mem_singleton.mp hmem]; rfl)
  have hdiscovered := hstudent.drift (.discover "school")
  simp only [Deployment.discovered, Function.update_self, Function.update_idem] at hdiscovered
  refine ⟨_, fun tag ↦ ?_, hdiscovered⟩
  simp [NotBy]

theorem readable_school : Readable schoolState := by
  intro c n block hledger txObj hmem
  have hblock : block ∈ schoolState.ledger c := List.mem_of_getElem? hledger
  by_cases hc : c = "school"
  · subst hc
    have hblocks : schoolState.ledger "school" = [genesisBlock, studentBlock] := rfl
    rw [hblocks, List.mem_cons, List.mem_singleton] at hblock
    rcases hblock with rfl | rfl
    · rw [List.mem_singleton.mp hmem]
      rfl
    · rw [List.mem_singleton.mp hmem]
      rfl
  · simp only [schoolState, Function.update_of_ne hc] at hblock
    cases hblock

/-- The run of one task, in an environment that gives answers of the deployment. -/
theorem reaches_task (reliable : Prop) {tag : Tag} (hprocess : tag.process = 0)
    {env : (request : SyncCall Unit) → SyncState Unit → SyncReply request × SyncState Unit}
    (henv : ∀ request state, (schoolExplorer reliable).Answers tag request state
      (env request state).1 (env request state).2 ∧ (env request state).2.process = state.process) :
    ∃ moment before earlier,
      moment.state = (((schoolExplorer reliable).run ((schoolExplorer reliable).tasks tag)).runIn
        env schoolState).2 ∧
      (∀ other, other ≠ tag → NotBy other (moment :: before)) ∧
      Reaches ((schoolExplorer reliable).explorer Unit) (moment :: before)
        [⟨tag, ⟨none, schoolState⟩ :: earlier, .done (((schoolExplorer reliable).run
          ((schoolExplorer reliable).tasks tag)).runIn env schoolState).1⟩] := by
  obtain ⟨earlier, hnotBy, hschool⟩ := reaches_school reliable
  have hspawned := hschool.spawn tag (hnotBy tag) fun other hmem ↦ by cases hmem
  have hallowed (request : SyncCall Unit) (state : SyncState Unit) (hstate : state.process = 0) :
      ((schoolExplorer reliable).explorer Unit).answers tag request state (env request state).1
        (env request state).2 ∧ (env request state).2.process = 0 :=
    ⟨⟨hprocess.trans hstate.symm, (henv request state).1⟩, (henv request state).2.trans hstate⟩
  have hreaches := hspawned.runInWhile env (·.process = 0) hallowed _ rfl
  obtain ⟨moment, before, hpast, hnow⟩ := now_momentsAlone env tag ((schoolExplorer reliable).run
    ((schoolExplorer reliable).tasks tag)) ⟨none, schoolState⟩ earlier
  have hothers (other : Tag) (hne : other ≠ tag) :=
    notBy_append.mpr ⟨notBy_momentsAlone env tag ((schoolExplorer reliable).run
      ((schoolExplorer reliable).tasks tag)) schoolState hne, hnotBy other⟩
  change Reaches _ (momentsAlone env tag ((schoolExplorer reliable).run
    ((schoolExplorer reliable).tasks tag)) schoolState ++ _) _ at hreaches
  rw [hpast] at hreaches hothers
  exact ⟨moment, before, earlier, hnow, hothers, hreaches⟩

/-- The look for missing blocks, when no call fails. -/
theorem reaches_synced : ∃ moment before earlier, moment.state.process = 0 ∧
    moment.state.database.blocks.length = 2 ∧ moment.state.sent.length = 2 ∧
    Reaches ((schoolExplorer True).explorer Unit) (moment :: before)
      [⟨⟨0, 0⟩, ⟨none, schoolState⟩ :: earlier, .done (.ok ())⟩] := by
  obtain ⟨moment, before, earlier, hstate, -, hreaches⟩ := reaches_task True rfl
    fun request state ↦ ⟨.answered request, (respond_keeps ⟨0, 0⟩ request state).1⟩
  refine ⟨moment, before, earlier, ?_, ?_, ?_, hreaches⟩
  · rw [hstate]
    rfl
  · rw [hstate]
    rfl
  · rw [hstate]
    rfl

/-- No query is answered. -/
def withoutDatabase (tag : Tag) :
    (request : SyncCall Unit) → SyncState Unit → SyncReply request × SyncState Unit
  | .query _, state => (.error "Connection terminated", state)
  | request, state => respond tag request state

/-- The listener on block 1, when the database is away. -/
theorem reaches_stuck : ∃ moment before earlier, moment.state.process = 0 ∧
    moment.state.ledger = schoolState.ledger ∧
    moment.state.channelsGenHash = schoolState.channelsGenHash ∧
    moment.state.blocksInProcess = [(blockProKey "school" 1, ⟨0, 1⟩)] ∧
    (∀ other, other ≠ ⟨0, 1⟩ → NotBy other (moment :: before)) ∧
    Reaches ((schoolExplorer False).explorer Unit) (moment :: before)
      [⟨⟨0, 1⟩, ⟨none, schoolState⟩ :: earlier,
        .done (.error (.database "Connection terminated"))⟩] := by
  have henv (request : SyncCall Unit) (state : SyncState Unit) :
      (schoolExplorer False).Answers ⟨0, 1⟩ request state (withoutDatabase ⟨0, 1⟩ request state).1
        (withoutDatabase ⟨0, 1⟩ request state).2 ∧
        (withoutDatabase ⟨0, 1⟩ request state).2.process = state.process := by
    cases request with
    | query query => exact ⟨.failed id ⟨_, rfl⟩, rfl⟩
    | _ => exact ⟨.answered _, (respond_keeps ⟨0, 1⟩ _ state).1⟩
  obtain ⟨moment, before, earlier, hstate, hothers, hreaches⟩ := reaches_task False rfl henv
  refine ⟨moment, before, earlier, ?_, ?_, ?_, ?_, hothers, hreaches⟩
  · rw [hstate]
    rfl
  · rw [hstate]
    rfl
  · rw [hstate]
    rfl
  · rw [hstate]
    rfl

/-! ### What holds in every run -/

/-- The block of the ledger has its row and all its transactions have theirs. -/
def Complete (deployment : Deployment) (c : String) (n : ℕ) (state : SyncState δ) : Prop :=
  ∃ block, OnLedger state c n block ∧
    blocksOf deployment state c n = [savedBlock deployment c block] ∧
    AllSaved deployment state c n block.data

section Runs

variable {deployment : Deployment} {moment : Moment Tag (SyncState δ)} {earlier : SyncPast δ}
  {running : List (Running Tag (SyncCall δ) SyncReply SyncError Unit (SyncState δ))}

theorem Sound.complete {state : SyncState δ} (h : Sound deployment state) {c : String} {n : ℕ}
    (hsaved : Saved deployment c n state) : Complete deployment c n state :=
  (h.block c n).blocks.resolve_left hsaved

theorem soundPast_of_reaches {past : SyncPast δ}
    (h : Reaches (deployment.explorer δ) past running) : SoundPast deployment past :=
  ((guarantees deployment).reaches h).1

/-- At every moment of every run, a block row of the network is the row of a block on a ledger, the
only row of that block, and all its transactions have a row; and a transaction row of the network is
that of a transaction of a block on a ledger, the only row with that hash in that block. -/
theorem explorer_tables (h : Reaches (deployment.explorer δ) (moment :: earlier) running) :
    (∀ row ∈ moment.state.database.blocks, row.networkName = deployment.networkId →
      ∃ c block, OnLedger moment.state c row.blocknum block ∧ row = savedBlock deployment c block ∧
        blocksOf deployment moment.state c row.blocknum = [row] ∧
        AllSaved deployment moment.state c row.blocknum block.data) ∧
    ∀ row ∈ moment.state.database.transactions, row.networkName = deployment.networkId →
      ∃ c block txObj details, OnLedger moment.state c row.blockid block ∧
        block.data.find? (fun other ↦ txHash deployment.sha256 other = row.txhash) = some txObj ∧
        txObj.details = some details ∧
        row = savedTransaction deployment c row.blockid txObj details ∧
        (transactionsOf deployment moment.state c row.blockid).filter
          (fun other ↦ other.txhash = row.txhash) = [row] := by
  have hsound := (soundPast_of_reaches h).sound
  constructor
  · intro row hmem hnetwork
    obtain ⟨c, hhash⟩ := hsound.blocksKnown row hmem hnetwork
    have hrow : row ∈ blocksOf deployment moment.state c row.blocknum :=
      List.mem_filter.mpr ⟨hmem, decide_eq_true ⟨hnetwork, hhash, rfl⟩⟩
    obtain ⟨block, hledger, hblocks, hall⟩ := hsound.complete (List.ne_nil_of_mem hrow)
    have heq : row = savedBlock deployment c block := List.mem_singleton.mp (hblocks ▸ hrow)
    exact ⟨c, block, hledger, heq, heq ▸ hblocks, hall⟩
  · intro row hmem hnetwork
    obtain ⟨c, hhash⟩ := hsound.transactionsKnown row hmem hnetwork
    have hrow : row ∈ (transactionsOf deployment moment.state c row.blockid).filter
        (fun other ↦ other.txhash = row.txhash) :=
      List.mem_filter.mpr ⟨List.mem_filter.mpr
        ⟨hmem, decide_eq_true ⟨hnetwork, hhash, rfl⟩⟩, decide_eq_true rfl⟩
    obtain ⟨block, txObj, details, hledger, hfind, hdetails, hrows⟩ :=
      ((hsound.block c row.blockid).transactions row.txhash).resolve_left (List.ne_nil_of_mem hrow)
    have heq : row = savedTransaction deployment c row.blockid txObj details :=
      List.mem_singleton.mp (hrows ▸ hrow)
    exact ⟨c, block, txObj, details, hledger, hfind, hdetails, heq, hrows.trans (by rw [← heq])⟩

/-- The tables after a look for missing blocks. -/
theorem explorer_tables_school : ∃ moment earlier running,
    Reaches ((schoolExplorer True).explorer Unit) (moment :: earlier) running ∧
      moment.state.database.blocks ≠ [] ∧
      ∀ row ∈ moment.state.database.blocks, row.networkName = "wdu" →
        ∃ c block, OnLedger moment.state c row.blocknum block ∧
          row = savedBlock (schoolExplorer True) c block ∧
          blocksOf (schoolExplorer True) moment.state c row.blocknum = [row] ∧
          AllSaved (schoolExplorer True) moment.state c row.blocknum block.data := by
  obtain ⟨moment, before, earlier, -, hblocks, -, hreaches⟩ := reaches_synced
  refine ⟨moment, before, _, hreaches, fun hnil ↦ ?_, (explorer_tables hreaches).1⟩
  rw [hnil] at hblocks
  cases hblocks

/-- Rows of a block are only added, by the one task that has the key of the block. -/
theorem explorer_exclusive {past newer : SyncPast δ} {later : Moment Tag (SyncState δ)}
    (h : Reaches (deployment.explorer δ) past running)
    (hpast : past = newer ++ later :: moment :: earlier) (c : String) (n : ℕ) :
    blocksOf deployment moment.state c n <:+ blocksOf deployment later.state c n ∧
      transactionsOf deployment moment.state c n <:+ transactionsOf deployment later.state c n ∧
      (SameBlock deployment moment.state later.state c n ∨
        ∃ tag, later.actor = some tag ∧ tag.process = moment.state.process ∧
          ∀ other, Holds moment.state c n other ↔ other = tag) := by
  have hsound := soundPast_of_reaches h
  subst hpast
  have hlink := hsound.linked.of_append.1
  have hmoment : Sound deployment moment.state :=
    (hsound.good (moment :: earlier)
      ((List.suffix_cons later _).trans (List.suffix_append newer _))).1
  refine ⟨hlink.blocks c n, hlink.transactions c n, (hlink.writer c n).imp_right ?_⟩
  rintro ⟨tag, hactor, hholds⟩
  refine ⟨tag, hactor, hmoment.owners _ hholds, fun other ↦ ⟨fun hother ↦ ?_, ?_⟩⟩
  · exact hmoment.holds_unique hother hholds
  · rintro rfl
    exact hholds

/-- The steps of a look for missing blocks. -/
theorem explorer_exclusive_school : ∃ past running,
    Reaches ((schoolExplorer True).explorer Unit) past running ∧ past ≠ [] ∧
      ∀ newer later moment earlier, past = newer ++ later :: moment :: earlier → ∀ c n,
        blocksOf (schoolExplorer True) moment.state c n <:+
            blocksOf (schoolExplorer True) later.state c n ∧
          transactionsOf (schoolExplorer True) moment.state c n <:+
            transactionsOf (schoolExplorer True) later.state c n ∧
          (SameBlock (schoolExplorer True) moment.state later.state c n ∨
            ∃ tag, later.actor = some tag ∧ tag.process = moment.state.process ∧
              ∀ other, Holds moment.state c n other ↔ other = tag) := by
  obtain ⟨moment, before, earlier, -, -, -, hreaches⟩ := reaches_synced
  exact ⟨_, _, hreaches, List.cons_ne_nil _ _, fun _ _ _ _ hpast c n ↦
    explorer_exclusive hreaches hpast c n⟩

theorem SameBlock.refl (deployment : Deployment) (state : SyncState δ) (c : String) (n : ℕ) :
    SameBlock deployment state state c n := ⟨rfl, rfl, rfl⟩

theorem SameBlock.trans {first second third : SyncState δ} {c : String} {n : ℕ}
    (h : SameBlock deployment first second c n) (hnext : SameBlock deployment second third c n) :
    SameBlock deployment first third c n :=
  ⟨hnext.blocks.trans h.blocks, hnext.transactions.trans h.transactions, hnext.sent.trans h.sent⟩

/-- A task that has a key and does not act keeps it, and the block stays as it is. -/
theorem held_unchanged {newer : SyncPast δ} {tag : Tag} {c : String} {n : ℕ}
    (hsound : SoundPast deployment (newer ++ moment :: earlier)) (hnewer : NotBy tag newer)
    (hprocess : moment.state.process = tag.process) (hholds : Holds moment.state c n tag) :
    During tag (fun state ↦ Holds state c n tag ∧ SameBlock deployment moment.state state c n)
      (newer ++ moment :: earlier) := by
  refine stable_during ?_ (moment :: earlier) newer (now_cons.mpr
    ⟨hprocess.ge, fun _ ↦ ⟨hholds, .refl ..⟩⟩) hnewer hsound
  rintro actor before after hactor hlink hsame ⟨hbefore, hrows⟩
  obtain ⟨hafter, hnext⟩ := hlink.others hsame c n tag hbefore hactor
  exact ⟨hafter, hrows.trans hnext⟩

/-- A task that has a key and did not act had it before. -/
theorem held_before {newer : SyncPast δ} {tag : Tag} {c : String} {n : ℕ}
    (hlinked : Linked (Link deployment) (newer ++ moment :: earlier)) (hnewer : NotBy tag newer)
    (hnow : Now (newer ++ moment :: earlier) (Holds · c n tag)) : Holds moment.state c n tag := by
  by_contra hnone
  have hstill : Now (newer ++ moment :: earlier) (¬ Holds · c n tag) :=
    hlinked.now (· ≠ some tag) hnewer (fun actor before after hactor hlink h hholds ↦
      h (hlink.mem_of_ne hactor hholds rfl)) (now_cons.mpr hnone)
  obtain ⟨_, _, hpast, hholds⟩ := hnow
  obtain ⟨_, _, hpast', hnot⟩ := hstill
  obtain ⟨rfl, -⟩ := List.cons.inj (hpast.symm.trans hpast')
  exact hnot hholds

/-- A listener that ended with an error other than a refusal has left its block stuck: as long as
its process goes on, it has the key of the block, and since its last call the rows and notifications
of the block are what they were. -/
theorem explorer_stuck {past newer since : SyncPast δ} {tag : Tag} {c : String} {n : ℕ}
    {e : SyncError} (h : Reaches (deployment.explorer δ) past running)
    (hmem : ⟨tag, since, .done (.error e)⟩ ∈ running) (htask : deployment.tasks tag = .event c n)
    (herror : ∀ message, e ≠ .explorer message) (hpast : past = newer ++ moment :: earlier)
    (hnewer : NotBy tag newer) (hmoment : moment.state.process = tag.process)
    (hnow : Now past fun state ↦ state.process = tag.process) :
    Now past fun state ↦ state.includesBlock (blockProKey c n) ∧ Holds state c n tag ∧
      SameBlock deployment moment.state state c n := by
  have hsound := soundPast_of_reaches h
  have hpost : EventPost deployment tag c n since (.error e) past := by
    have hpost := (guarantees deployment).outcome h hmem
    rwa [TaskPost, htask] at hpost
  obtain ⟨-, howns⟩ := hpost.2.resolve_left fun ⟨message, heq⟩ ↦ herror message heq
  obtain ⟨last, before, hlast, hprocess⟩ := hnow
  have hholds : Now past (Holds · c n tag) := by
    rw [hlast] at howns ⊢
    exact now_cons.mpr ((now_cons.mp howns).2 hprocess).1
  subst hpast
  have hbefore := held_before hsound.linked hnewer hholds
  have hkept := held_unchanged hsound hnewer hmoment hbefore
  rw [hlast] at hkept ⊢
  obtain ⟨hheld, hsame⟩ := (now_cons.mp hkept).2 hprocess
  exact now_cons.mpr ⟨includesBlock_iff.mpr (List.mem_map_of_mem hheld), hheld, hsame⟩

/-- The listener on a block, when the database is away. -/
theorem explorer_stuck_school : ∃ past running,
    Reaches ((schoolExplorer False).explorer Unit) past running ∧ ∃ moment ∈ past,
      Now past fun state ↦ state.includesBlock (blockProKey "school" 1) ∧
        Holds state "school" 1 ⟨0, 1⟩ ∧
        SameBlock (schoolExplorer False) moment.state state "school" 1 := by
  obtain ⟨moment, before, earlier, hprocess, -, -, -, -, hreaches⟩ := reaches_stuck
  have hlater := hreaches.drift (.discover "school")
  refine ⟨_, _, hlater, moment, List.mem_cons_of_mem _ List.mem_cons_self, ?_⟩
  exact explorer_stuck hlater (List.mem_singleton_self _) rfl nofun (List.singleton_append).symm
    (notBy_singleton.mpr nofun) hprocess (now_cons.mpr hprocess)

/-- Every key was pushed by a task in progress. -/
theorem owners_running {past : SyncPast δ} (h : Reaches (deployment.explorer δ) past running) :
    Now past fun state ↦ ∀ entry ∈ state.blocksInProcess, ∃ one ∈ running, one.tag = entry.2 := by
  induction h with
  | start hstart =>
    obtain rfl := hstart
    refine now_cons.mpr fun entry hmem ↦ ?_
    cases hmem
  | spawn h tag hpast hrunning ih =>
    refine now_cons.mpr fun entry hmem ↦ ?_
    obtain ⟨one, hone, heq⟩ := now_cons.mp ih entry hmem
    exact ⟨one, List.mem_cons_of_mem _ hone, heq⟩
  | @call moment earlier since before after tag request next reply state h hanswer ih =>
    have hlink := (soundPast_of_reaches (h.call hanswer)).linked.1
    refine now_cons.mpr fun entry hmem ↦ ?_
    rcases hlink.fresh entry hmem with hbefore | hactor
    · obtain ⟨one, hone, heq⟩ := now_cons.mp ih entry hbefore
      rcases List.mem_append.mp hone with hone | hone
      · exact ⟨one, List.mem_append_left _ hone, heq⟩
      · rcases List.mem_cons.mp hone with rfl | hone
        · exact ⟨_, List.mem_append_right _ List.mem_cons_self, heq⟩
        · exact ⟨one, List.mem_append_right _ (List.mem_cons_of_mem _ hone), heq⟩
    · exact ⟨_, List.mem_append_right _ List.mem_cons_self, Option.some.inj hactor⟩
  | drift h hdrift ih =>
    have hlink : Link deployment none _ _ := (drift_step (soundPast_of_reaches h).sound hdrift).2
    refine now_cons.mpr fun entry hmem ↦ ?_
    exact now_cons.mp ih entry ((hlink.fresh entry hmem).resolve_right nofun)
  | restart h hrestart ih =>
    obtain rfl := hrestart
    refine now_cons.mpr fun entry hmem ↦ ?_
    cases hmem

/-- Where no call fails, a task that is done has no key. -/
theorem letGo_of_done {past since : SyncPast δ} {tag : Tag} {outcome : Except SyncError Unit}
    (h : Reaches (deployment.explorer δ) past running)
    (hmem : ⟨tag, since, .done outcome⟩ ∈ running) : During tag (LetGo deployment tag) past := by
  have hpost := (guarantees deployment).outcome h hmem
  unfold TaskPost at hpost
  cases htask : deployment.tasks tag with
  | event channelName number =>
    rw [htask] at hpost
    exact hpost.1.mono fun _ h ↦ h.1
  | sync channelName noDiscovery =>
    rw [htask] at hpost
    exact hpost.2.mono fun _ h ↦ h.1

/-- Where no call fails and every task of the process is done, nothing is left out: no block is in
process, a block other than the first that the listener received when the hash of its channel was
known is complete, and so are the blocks that a look for missing blocks asked for, at a height of
the ledger between its start and its end. -/
theorem explorer_quiescent (hreliable : deployment.reliable)
    (h : Reaches (deployment.explorer δ) (moment :: earlier) running)
    (hdone : ∀ one ∈ running, one.tag.process = moment.state.process →
      ∃ outcome, one.rest = .done outcome) :
    moment.state.blocksInProcess = [] ∧ ∀ one ∈ running, one.tag.process = moment.state.process →
      match deployment.tasks one.tag with
      | .event c n => KnownAt one.tag c one.since → n < heightAt c one.since → n ≠ 0 →
        Complete deployment c n moment.state
      | .sync c _ => KnownAt one.tag c one.since → ∃ height, heightAt c one.since ≤ height ∧
        height ≤ (moment.state.ledger c).length ∧
        ∀ n ∈ deployment.syncRange height, Complete deployment c n moment.state := by
  have hsound := (soundPast_of_reaches h).sound
  have hempty : moment.state.blocksInProcess = [] := by
    refine List.eq_nil_iff_forall_not_mem.mpr fun entry hentry ↦ ?_
    obtain ⟨⟨tag, since, rest⟩, hone, htag⟩ := now_cons.mp (owners_running h) entry hentry
    obtain rfl : tag = entry.2 := htag
    have howner := hsound.owners entry hentry
    obtain ⟨outcome, rfl⟩ := hdone _ hone howner
    exact (now_cons.mp (letGo_of_done h hone)).2 howner.symm hreliable entry hentry rfl
  have hcomplete {c : String} {n : ℕ} (hcovered : Covered deployment c n moment.state) :
      Complete deployment c n moment.state := by
    refine hsound.complete (hcovered.resolve_right ?_)
    rintro ⟨other, hother⟩
    rw [Holds, hempty] at hother
    cases hother
  refine ⟨hempty, ?_⟩
  rintro ⟨tag, since, rest⟩ hone hprocess
  obtain ⟨outcome, rfl⟩ := hdone _ hone hprocess
  have hpost := (guarantees deployment).outcome h hone
  unfold TaskPost at hpost
  dsimp only at hprocess ⊢
  cases htask : deployment.tasks tag with
  | event c n =>
    rw [htask] at hpost
    intro hknown hlt hne
    exact hcomplete (((now_cons.mp hpost.1).2 hprocess.symm).2 hknown hlt hne)
  | sync c noDiscovery =>
    rw [htask] at hpost
    intro hknown
    obtain ⟨height, hfloor, hle, hcovered⟩ :=
      ((now_cons.mp hpost.2).2 hprocess.symm).2 ⟨hreliable, hknown⟩
    exact ⟨height, hfloor, hle, fun n hmem ↦ hcomplete (hcovered n hmem)⟩

/-- A look for missing blocks that is done. -/
theorem explorer_quiescent_school : ∃ moment earlier running,
    Reaches ((schoolExplorer True).explorer Unit) (moment :: earlier) running ∧
      moment.state.blocksInProcess = [] ∧
      ∃ height ≥ 2, ∀ n ∈ (schoolExplorer True).syncRange height,
        Complete (schoolExplorer True) "school" n moment.state := by
  obtain ⟨moment, before, earlier, hprocess, -, -, hreaches⟩ := reaches_synced
  obtain ⟨hempty, hdone⟩ := explorer_quiescent trivial hreaches fun one hmem _ ↦ by
    rw [List.mem_singleton.mp hmem]
    exact ⟨_, rfl⟩
  have hsync : KnownAt ⟨0, 0⟩ "school" (⟨none, schoolState⟩ :: earlier) → ∃ height, 2 ≤ height ∧
      height ≤ (moment.state.ledger "school").length ∧
      ∀ n ∈ (schoolExplorer True).syncRange height,
        Complete (schoolExplorer True) "school" n moment.state :=
    hdone _ (List.mem_singleton_self _) hprocess.symm
  obtain ⟨height, hfloor, -, hcomplete⟩ := hsync (now_cons.mpr ⟨rfl, rfl⟩)
  exact ⟨moment, before, _, hreaches, hempty, height, hfloor, hcomplete⟩

/-! ### A look for missing blocks that runs alone -/

/-- The deployment, when no call fails. -/
def Deployment.withoutFailures (deployment : Deployment) : Deployment :=
  { deployment with reliable := True }

theorem Sound.withoutFailures {state : SyncState δ} (h : Sound deployment state)
    (hreadable : Readable state) : Sound deployment.withoutFailures state :=
  ⟨h.ledger, fun _ ↦ hreadable, h.hashes, h.keys, h.owners, h.synch,
    fun c n ↦ ⟨(h.block c n).blocks, (h.block c n).transactions, (h.block c n).sent⟩, h.blocksKnown,
    h.transactionsKnown, h.sentKnown⟩

theorem Link.withoutFailures {actor : Option Tag} {before after : SyncState δ}
    (h : Link deployment actor before after) :
    Link deployment.withoutFailures actor before after := by
  have hsame {c : String} {n : ℕ} (hsame : SameBlock deployment before after c n) :
      SameBlock deployment.withoutFailures before after c n :=
    ⟨hsame.blocks, hsame.transactions, hsame.sent⟩
  exact ⟨h.ledger, h.process, h.blocks, h.transactions, fun c n ↦ (h.writer c n).imp_left hsame,
    fun hprocess c n tag hholds hactor ↦ (h.others hprocess c n tag hholds hactor).imp_right hsame,
    h.fresh, h.released, h.hashes⟩

/-- A past without failures is sound for the deployment in which no call fails. -/
theorem SoundPast.withoutFailures {past : SyncPast δ} (h : SoundPast deployment past)
    (hreadable : Now past Readable) : SoundPast deployment.withoutFailures past where
  good := by
    rintro suffix ⟨newer, rfl⟩
    cases suffix with
    | nil => trivial
    | cons moment earlier =>
      obtain ⟨hsound, hacted⟩ := h.good (moment :: earlier) (List.suffix_append newer _)
      refine ⟨hsound.withoutFailures fun c n block hledger txObj hmem ↦ ?_, hacted⟩
      have hnow : Now (newer ++ moment :: earlier) (OnLedger · c n block) :=
        h.linked.now (fun _ ↦ True) (fun _ _ ↦ trivial)
          (fun _ _ _ _ hlink hledger ↦ hledger.mono (hlink.ledger c)) (now_cons.mpr hledger)
      obtain ⟨_, _, hpast, hlast⟩ := hreadable
      obtain ⟨_, _, hpast', honLedger⟩ := hnow
      obtain ⟨rfl, -⟩ := List.cons.inj (hpast.symm.trans hpast')
      exact hlast c n block honLedger txObj hmem
  linked := h.linked.mono fun _ _ _ hlink ↦ hlink.withoutFailures

/-- The moments of a task that no other task interrupts and of which no call fails. -/
def Deployment.alone (deployment : Deployment) (tag : Tag) (state : SyncState δ) : SyncPast δ :=
  momentsAlone (respond tag) tag (deployment.run (deployment.tasks tag)) state

/-- While a task runs alone, only it takes keys. -/
theorem entries_alone {tag : Tag} {program : SyncProgram δ Unit}
    (h : Linked (Link deployment)
      (momentsAlone (respond tag) tag program moment.state ++ moment :: earlier)) :
    Now (momentsAlone (respond tag) tag program moment.state ++ moment :: earlier) fun state ↦
      ∀ entry ∈ state.blocksInProcess, entry ∈ moment.state.blocksInProcess ∨ entry.2 = tag := by
  refine h.now (· = some tag) (fun _ ↦ actor_of_mem_momentsAlone) ?_
    (now_cons.mpr fun _ hmem ↦ Or.inl hmem)
  rintro actor _ _ rfl hlink hbefore entry hmem
  rcases hlink.fresh entry hmem with hmem | hactor
  · exact hbefore entry hmem
  · exact Or.inr (Option.some.inj hactor).symm

/-- A look for missing blocks that runs alone and without failures. -/
theorem sync_alone (h : Reaches (deployment.explorer δ) (moment :: earlier) running)
    (hreadable : Readable moment.state) {tag : Tag} {c : String} {noDiscovery : Bool}
    (htask : deployment.tasks tag = .sync c noDiscovery) (hnotBy : NotBy tag (moment :: earlier))
    (hrunning : ∀ other ∈ running, other.tag ≠ tag) (hprocess : tag.process = moment.state.process)
    (hknown : (moment.state.channelsGenHash c).isSome) :
    Reaches (deployment.explorer δ) (deployment.alone tag moment.state ++ moment :: earlier)
        (⟨tag, moment :: earlier, .done (.ok ())⟩ :: running) ∧
      Now (deployment.alone tag moment.state ++ moment :: earlier) fun state ↦
        state.ledger = moment.state.ledger ∧
        ∀ n ∈ deployment.syncRange (moment.state.ledger c).length,
          Complete deployment c n state ∨ ∃ other, Holds moment.state c n other := by
  let keeps (state : SyncState δ) : Prop :=
    tag.process = state.process ∧ state.ledger = moment.state.ledger
  have hkeeps (request : SyncCall δ) (state : SyncState δ) (hstate : keeps state) :
      keeps (respond tag request state).2 :=
    ⟨hstate.1.trans (respond_keeps tag request state).1.symm,
      (respond_keeps tag request state).2.trans hstate.2⟩
  -- The run of the program alone is a run of the explorer, and of one in which no call fails.
  have hallowed (others : Deployment) (request : SyncCall δ) (state : SyncState δ)
      (hstate : keeps state) : (others.explorer δ).answers tag request state
        (respond tag request state).1 (respond tag request state).2 ∧
        keeps (respond tag request state).2 :=
    ⟨⟨hstate.1, .answered request⟩, hkeeps request state hstate⟩
  have hspawned := h.spawn tag hnotBy hrunning
  change Reaches _ _ (⟨tag, _, deployment.run (deployment.tasks tag)⟩ :: running) at hspawned
  have hreaches :=
    hspawned.runInWhile (respond tag) keeps (hallowed deployment) _ ⟨hprocess, rfl⟩
  have hsafe : SyncSafe deployment.withoutFailures tag
      (SyncPost deployment.withoutFailures tag c (moment :: earlier))
      (deployment.run (deployment.tasks tag)) (moment :: earlier) := by
    rw [htask]
    exact safe_syncBlocks hnotBy
  obtain ⟨hsound, hok, hpost⟩ := hsafe.runIn (respond tag) keeps (hallowed _)
    ((soundPast_of_reaches h).withoutFailures (now_cons.mpr hreadable)) ⟨hprocess, rfl⟩
  rw [hok] at hreaches
  refine ⟨hreaches, ?_⟩
  have hentries := entries_alone hsound.linked
  obtain ⟨last, before, hpast, hlast⟩ := now_momentsAlone (respond tag) tag
    (deployment.run (deployment.tasks tag)) moment earlier
  change deployment.alone tag moment.state ++ _ = _ at hpast
  have hkept : keeps last.state := by
    rw [hlast]
    exact Program.runIn_keeps _ hkeeps _ ⟨hprocess, rfl⟩
  change SoundPast _ (deployment.alone tag moment.state ++ _) at hsound
  change During _ _ (deployment.alone tag moment.state ++ _) at hpost
  change Now (deployment.alone tag moment.state ++ _) _ at hentries
  rw [hpast] at hsound hpost hentries ⊢
  obtain ⟨hletGo, hcovers⟩ := (now_cons.mp hpost).2 hkept.1.symm
  obtain ⟨height, hfloor, hle, hcovered⟩ :=
    hcovers ⟨trivial, now_cons.mpr ⟨hprocess.symm, hknown⟩⟩
  obtain rfl : height = (moment.state.ledger c).length :=
    le_antisymm (hle.trans_eq (congrArg (fun ledger ↦ (ledger c).length) hkept.2)) hfloor
  refine now_cons.mpr ⟨hkept.2, fun n hmem ↦ ?_⟩
  rcases hcovered n hmem with hsaved | ⟨other, hother⟩
  · exact Or.inl (hsound.sound.complete hsaved)
  · refine Or.inr ⟨other, (now_cons.mp hentries _ hother).resolve_right ?_⟩
    exact hletGo trivial _ hother

/-- All blocks are asked for in the boot mode ALL, while the height fits the low word. -/
theorem mem_syncRange_all (hmode : deployment.bootMode = "ALL") {height n : ℕ}
    (hheight : height < 2 ^ 31) : n ∈ deployment.syncRange height ↔ n < height := by
  have hword : lowWord height = height := by
    unfold lowWord Int.bmod
    dsimp only
    split_ifs <;> omega
  rw [Deployment.syncRange, hmode, hword]
  change n ∈ heightsDown _ _ ↔ _
  rw [mem_heightsDown, startingBlockHeight]
  omega

/-- From any state that the explorer reaches, in the boot mode ALL, the look for missing blocks that
runs alone and without failures completes every block of the ledger whose key no task has. -/
theorem explorer_repairs (h : Reaches (deployment.explorer δ) (moment :: earlier) running)
    (hreadable : Readable moment.state) {tag : Tag} {c : String} {noDiscovery : Bool}
    (htask : deployment.tasks tag = .sync c noDiscovery) (hnotBy : NotBy tag (moment :: earlier))
    (hrunning : ∀ other ∈ running, other.tag ≠ tag) (hprocess : tag.process = moment.state.process)
    (hknown : (moment.state.channelsGenHash c).isSome) (hmode : deployment.bootMode = "ALL")
    (hheight : (moment.state.ledger c).length < 2 ^ 31) :
    Reaches (deployment.explorer δ) (deployment.alone tag moment.state ++ moment :: earlier)
        (⟨tag, moment :: earlier, .done (.ok ())⟩ :: running) ∧
      Now (deployment.alone tag moment.state ++ moment :: earlier) fun state ↦
        state.ledger = moment.state.ledger ∧ ∀ n < (moment.state.ledger c).length,
          Complete deployment c n state ∨ ∃ other, Holds moment.state c n other := by
  obtain ⟨hreaches, last, before, hpast, hledger, hcovered⟩ :=
    sync_alone h hreadable htask hnotBy hrunning hprocess hknown
  exact ⟨hreaches, last, before, hpast, hledger,
    fun n hn ↦ hcovered n ((mem_syncRange_all hmode hheight).mpr hn)⟩

/-- A look for missing blocks after the listener on block 1 has failed saves the other block. -/
theorem explorer_repairs_school : ∃ moment earlier running,
    Reaches ((schoolExplorer False).explorer Unit)
        ((schoolExplorer False).alone ⟨0, 0⟩ moment.state ++ moment :: earlier) running ∧
      Holds moment.state "school" 1 ⟨0, 1⟩ ∧
      Now ((schoolExplorer False).alone ⟨0, 0⟩ moment.state ++ moment :: earlier)
        (Complete (schoolExplorer False) "school" 0) := by
  obtain ⟨moment, before, earlier, hprocess, hledger, hhash, hkeys, hothers, hreaches⟩ :=
    reaches_stuck
  have hreadable : Readable moment.state := by
    unfold Readable OnLedger
    rw [hledger]
    exact readable_school
  have htask : (schoolExplorer False).tasks ⟨0, 0⟩ = .sync "school" true := rfl
  have hknown : (moment.state.channelsGenHash "school").isSome := by
    rw [hhash]
    rfl
  have hlength : (moment.state.ledger "school").length = 2 := by
    rw [hledger]
    rfl
  have htag : (⟨0, 1⟩ : Tag) ≠ ⟨0, 0⟩ := by decide
  obtain ⟨hsynced, last, rest, hpast, -, hcovered⟩ := explorer_repairs hreaches hreadable htask
    (hothers _ htag.symm) (fun other hmem ↦ by rwa [List.mem_singleton.mp hmem])
    hprocess.symm hknown rfl (by rw [hlength]; decide)
  refine ⟨moment, before, _, hsynced, ?_, last, rest, hpast, (hcovered 0 ?_).resolve_right ?_⟩
  · rw [Holds, hkeys]
    exact List.mem_singleton_self _
  · rw [hlength]
    decide
  · rintro ⟨other, hother⟩
    rw [Holds, hkeys, List.mem_singleton] at hother
    have hne : blockProKey "school" 0 ≠ blockProKey "school" 1 := by decide
    exact hne (congrArg Prod.fst hother)

/-- The state after a restart in which the hash of the channel has become known. -/
def Deployment.rediscovered (deployment : Deployment) (c : String) (state : SyncState δ) :
    SyncState δ :=
  deployment.discovered c (restarted state)

/-- A restart, the discovery of the channel, and a task that runs alone and without failures. -/
def Deployment.recovery (deployment : Deployment) (tag : Tag) (c : String) (state : SyncState δ) :
    SyncPast δ :=
  deployment.alone tag (deployment.rediscovered c state) ++
    [⟨none, deployment.rediscovered c state⟩, ⟨none, restarted state⟩]

/-- From any state that the explorer reaches and in which no transaction row throws, a restart, the
discovery of the channel and the look for missing blocks that then runs alone and without failures
complete every block that the look asks for: no failed call before is lasting. -/
theorem explorer_recovers (h : Reaches (deployment.explorer δ) (moment :: earlier) running)
    (hreadable : Readable moment.state) {tag : Tag} {c : String} {noDiscovery : Bool}
    (htask : deployment.tasks tag = .sync c noDiscovery) (hnotBy : NotBy tag (moment :: earlier))
    (hprocess : tag.process = moment.state.process + 1) :
    (∃ since, Reaches (deployment.explorer δ)
        (deployment.recovery tag c moment.state ++ moment :: earlier)
        [⟨tag, since, .done (.ok ())⟩]) ∧
      Now (deployment.recovery tag c moment.state ++ moment :: earlier) fun state ↦
        state.ledger = moment.state.ledger ∧
        ∀ n ∈ deployment.syncRange (moment.state.ledger c).length,
          Complete deployment c n state := by
  have hrestarted : Reaches (deployment.explorer δ)
      (⟨none, Deployment.restarted moment.state⟩ :: moment :: earlier) [] := h.restart rfl
  have hdiscovered := hrestarted.drift (.discover c)
  have hknown : ((deployment.rediscovered c moment.state).channelsGenHash c).isSome := by
    simp only [Deployment.rediscovered, Deployment.discovered, Function.update_self,
      Option.isSome_some]
  have hpast : deployment.recovery tag c moment.state ++ moment :: earlier =
      deployment.alone tag (deployment.rediscovered c moment.state) ++
        ⟨none, deployment.rediscovered c moment.state⟩ ::
          ⟨none, Deployment.restarted moment.state⟩ :: moment :: earlier := by
    rw [Deployment.recovery, List.append_assoc]
    rfl
  obtain ⟨hreaches, last, before, hlast, hledger, hcovered⟩ :=
    sync_alone hdiscovered hreadable htask ((hnotBy.cons_none _).cons_none _)
      (fun other hmem ↦ by cases hmem) hprocess hknown
  rw [hpast]
  refine ⟨⟨_, hreaches⟩, last, before, hlast, hledger, fun n hmem ↦ ?_⟩
  refine (hcovered n hmem).resolve_right ?_
  rintro ⟨other, hother⟩
  cases hother

/-- The explorer whose listener was stuck recovers. -/
theorem explorer_recovers_school : ∃ moment earlier running,
    Reaches ((schoolExplorer False).explorer Unit)
        ((schoolExplorer False).recovery ⟨1, 0⟩ "school" moment.state ++ moment :: earlier)
        running ∧
      Holds moment.state "school" 1 ⟨0, 1⟩ ∧
      Now ((schoolExplorer False).recovery ⟨1, 0⟩ "school" moment.state ++ moment :: earlier)
        fun state ↦ ∀ n ∈ (schoolExplorer False).syncRange 2,
          Complete (schoolExplorer False) "school" n state := by
  obtain ⟨moment, before, earlier, hprocess, hledger, -, hkeys, hothers, hreaches⟩ := reaches_stuck
  have hreadable : Readable moment.state := by
    unfold Readable OnLedger
    rw [hledger]
    exact readable_school
  have htask : (schoolExplorer False).tasks ⟨1, 0⟩ = .sync "school" true := rfl
  obtain ⟨⟨since, hrecovered⟩, last, rest, hpast, -, hcomplete⟩ :=
    explorer_recovers hreaches hreadable htask (hothers _ (by decide)) (by rw [hprocess])
  rw [hledger] at hcomplete
  refine ⟨moment, before, _, hrecovered, ?_, last, rest, hpast, hcomplete⟩
  rw [Holds, hkeys]
  exact List.mem_singleton_self _

end Runs

end StudentStatus.Explorer
