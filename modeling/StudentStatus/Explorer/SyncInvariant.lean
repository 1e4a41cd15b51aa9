import Mathlib.Data.List.Nodup
import StudentStatus.Explorer.SyncSystem
import StudentStatus.Json.Struct
import StudentStatus.Keys.Terminated

/-!
# The invariant of the synchronisation

What holds at every moment of an explorer. Of each block of a channel the database has at most one
row in the network of the explorer, which is the one of the block on the ledger, and only when all
its transactions have a row; of each hash of a block it has at most one transaction, the first one
with that hash; and a block is notified at most once, when it has its row (`Sound`).

A step changes the rows of a block only when the task that makes it has the key of the block in
`blocksInProcess`, or nobody has; it adds rows and takes none away; and a key goes only when the
block is saved, or with the process (`Link`).
-/

set_option autoImplicit false
set_option relaxedAutoImplicit false

namespace StudentStatus.Explorer

open Interaction

variable {δ : Type}

/-! ### Keys -/

theorem toDigits_injective {m n : ℕ} (h : Nat.toDigits 10 m = Nat.toDigits 10 n) : m = n := by
  rw [← Json.digitsValue_toDigits m, h, Json.digitsValue_toDigits]

theorem not_mem_toDigits {c : Char} (hc : ¬ c.isDigit) (n : ℕ) : c ∉ Nat.toDigits 10 n :=
  fun hmem ↦ hc (Json.isDigit_of_mem_toDigits n c hmem)

/-- The number after the last underscore and the channel before it determine each other. -/
theorem blockProKey_injective {c c' : String} {n n' : ℕ}
    (h : blockProKey c n = blockProKey c' n') : c = c' ∧ n = n' := by
  have hreverse (c : String) (n : ℕ) : (blockProKey c n).toList.reverse =
      (Nat.toDigits 10 n).reverse ++ '_' :: c.toList.reverse := by
    simp [blockProKey]
  have hdigits (n : ℕ) : '_' ∉ (Nat.toDigits 10 n).reverse := by
    rw [List.mem_reverse]
    exact not_mem_toDigits (by decide) n
  have heq := congrArg (fun s : String ↦ s.toList.reverse) h
  simp only [hreverse] at heq
  obtain ⟨hnumber, hchannel⟩ := Keys.append_stop_inj (hdigits n) (hdigits n') heq
  exact ⟨String.toList_injective (List.reverse_injective hchannel),
    toDigits_injective (List.reverse_injective hnumber)⟩

/-- The title of the notification of a block. -/
def blockTitle (channelName : String) (number : ℕ) : String :=
  "Block " ++ toString number ++ " added to Channel: " ++ channelName

theorem blockTitle_injective {c c' : String} {n n' : ℕ} (h : blockTitle c n = blockTitle c' n') :
    c = c' ∧ n = n' := by
  have htitle (c : String) (n : ℕ) : (blockTitle c n).toList = "Block ".toList ++
      (Nat.toDigits 10 n ++ ' ' :: ("added to Channel: ".toList ++ c.toList)) := by
    simp [blockTitle]
  have hdigits (n : ℕ) : ' ' ∉ Nat.toDigits 10 n := not_mem_toDigits (by decide) n
  have heq := congrArg String.toList h
  rw [htitle, htitle, List.append_cancel_left_eq] at heq
  obtain ⟨hnumber, hrest⟩ := Keys.append_stop_inj (hdigits n) (hdigits n') heq
  exact ⟨String.toList_injective (List.append_cancel_left hrest), toDigits_injective hnumber⟩

/-! ### The rows of a block -/

section Rows

variable (deployment : Deployment) (state : SyncState δ) (c : String) (n : ℕ)

/-- The rows of the block of the channel, in the network of the explorer. -/
def blocksOf : List (BlockRow δ) :=
  state.database.blocks.filter fun row ↦ row.networkName = deployment.networkId ∧
    row.channelGenesisHash = deployment.genesisHash c ∧ row.blocknum = n

/-- The rows of its transactions. -/
def transactionsOf : List (TransactionRow δ) :=
  state.database.transactions.filter fun row ↦ row.networkName = deployment.networkId ∧
    row.channelGenesisHash = deployment.genesisHash c ∧ row.blockid = n

/-- The notifications of the block. -/
def sentOf : List (Notification δ) := state.sent.filter fun notify ↦ notify.title = blockTitle c n

/-- The row that a block of the channel is saved with. -/
def savedBlock (block : Block δ) : BlockRow δ :=
  { blockRow (deployment.genesisHash c) block with networkName := deployment.networkId }

/-- The row that a transaction of the block is saved with. -/
def savedTransaction (txObj : TxObj δ) (details : δ) : TransactionRow δ :=
  { transactionRow deployment.sha256 (deployment.genesisHash c) n txObj details with
    networkName := deployment.networkId }

/-- The block has the number on the ledger of the channel. -/
def OnLedger (block : Block δ) : Prop := (state.ledger c)[n]? = some block

/-- Each of the transactions has a row with its hash. -/
def AllSaved (txObjs : List (TxObj δ)) : Prop :=
  ∀ txObj ∈ txObjs, ∃ row ∈ transactionsOf deployment state c n,
    row.txhash = txHash deployment.sha256 txObj

/-- The task has the key of the block. -/
def Holds (tag : Tag) : Prop := (blockProKey c n, tag) ∈ state.blocksInProcess

end Rows

/-- The block has the same rows and notifications. -/
structure SameBlock (deployment : Deployment) (before after : SyncState δ) (c : String) (n : ℕ) :
    Prop where
  blocks : blocksOf deployment after c n = blocksOf deployment before c n
  transactions : transactionsOf deployment after c n = transactionsOf deployment before c n
  sent : sentOf after c n = sentOf before c n

/-! ### The invariant -/

/-- What holds of a block of a channel. -/
structure SoundBlock (deployment : Deployment) (state : SyncState δ) (c : String) (n : ℕ) :
    Prop where
  blocks : blocksOf deployment state c n = [] ∨ ∃ block, OnLedger state c n block ∧
    blocksOf deployment state c n = [savedBlock deployment c block] ∧
    AllSaved deployment state c n block.data
  transactions : ∀ hash,
    (transactionsOf deployment state c n).filter (fun row ↦ row.txhash = hash) = [] ∨
      ∃ block txObj details, OnLedger state c n block ∧
        block.data.find? (fun txObj ↦ txHash deployment.sha256 txObj = hash) = some txObj ∧
        txObj.details = some details ∧
        (transactionsOf deployment state c n).filter (fun row ↦ row.txhash = hash) =
          [savedTransaction deployment c n txObj details]
  sent : sentOf state c n = [] ∨ ∃ block, OnLedger state c n block ∧
    sentOf state c n = [blockNotification deployment.networkId c block] ∧
    blocksOf deployment state c n ≠ []

structure Sound (deployment : Deployment) (state : SyncState δ) : Prop where
  ledger : ∀ c n block, OnLedger state c n block →
    block.number = n ∧ ∃ header rest, block.data = header :: rest ∧ header.channelId = c
  details : deployment.reliable → ∀ c n block, OnLedger state c n block →
    ∀ txObj ∈ block.data, txObj.details.isSome
  hashes : ∀ c hash, state.channelsGenHash c = some hash → hash = deployment.genesisHash c
  keys : (state.blocksInProcess.map Prod.fst).Nodup
  owners : ∀ entry ∈ state.blocksInProcess, entry.2.process = state.process
  synch : state.synchInProcess = []
  block : ∀ c n, SoundBlock deployment state c n
  blocksKnown : ∀ row ∈ state.database.blocks, row.networkName = deployment.networkId →
    ∃ c, row.channelGenesisHash = deployment.genesisHash c
  transactionsKnown : ∀ row ∈ state.database.transactions,
    row.networkName = deployment.networkId → ∃ c, row.channelGenesisHash = deployment.genesisHash c
  sentKnown : ∀ notify ∈ state.sent, ∃ c n, notify.title = blockTitle c n

/-- What a step of a task, or one that no task makes, does. -/
structure Link (deployment : Deployment) (actor : Option Tag) (before after : SyncState δ) :
    Prop where
  ledger : ∀ c, before.ledger c <+: after.ledger c
  process : before.process ≤ after.process
  blocks : ∀ c n, blocksOf deployment before c n <:+ blocksOf deployment after c n
  transactions : ∀ c n, transactionsOf deployment before c n <:+ transactionsOf deployment after c n
  writer : ∀ c n, SameBlock deployment before after c n ∨
    ∃ tag, actor = some tag ∧ Holds before c n tag
  others : before.process = after.process → ∀ c n tag, Holds before c n tag →
    actor ≠ some tag → Holds after c n tag ∧ SameBlock deployment before after c n
  fresh : ∀ entry ∈ after.blocksInProcess, entry ∈ before.blocksInProcess ∨ actor = some entry.2
  released : before.process = after.process → ∀ c n tag, Holds before c n tag →
    Holds after c n tag ∨ blocksOf deployment after c n ≠ []
  hashes : before.process = after.process → ∀ c, (before.channelsGenHash c).isSome →
    (after.channelsGenHash c).isSome

section Steps

variable {deployment : Deployment} {actor : Option Tag} {before after : SyncState δ} {c : String}
  {n : ℕ}

theorem sameBlock_of_eq (hdatabase : after.database = before.database)
    (hsent : after.sent = before.sent) : SameBlock deployment before after c n := by
  constructor
  · unfold blocksOf
    rw [hdatabase]
  · unfold transactionsOf
    rw [hdatabase]
  · unfold sentOf
    rw [hsent]

theorem AllSaved.mono {txObjs : List (TxObj δ)} (h : AllSaved deployment before c n txObjs)
    (hle : transactionsOf deployment before c n <:+ transactionsOf deployment after c n) :
    AllSaved deployment after c n txObjs := by
  intro txObj hmem
  obtain ⟨row, hrow, hhash⟩ := h txObj hmem
  exact ⟨row, hle.subset hrow, hhash⟩

theorem OnLedger.mono {block : Block δ} (h : OnLedger before c n block)
    (hledger : before.ledger c <+: after.ledger c) : OnLedger after c n block := by
  obtain ⟨newer, heq⟩ := hledger
  unfold OnLedger at h ⊢
  rw [← heq, List.getElem?_append_left (List.getElem?_eq_some_iff.mp h).1]
  exact h

theorem OnLedger.unique {block other : Block δ} (h : OnLedger before c n block)
    (hother : OnLedger before c n other) : block = other := Option.some.inj (h.symm.trans hother)

/-- What holds of a block holds while its rows and notifications stay the same. -/
theorem SoundBlock.of_same (h : SoundBlock deployment before c n)
    (hsame : SameBlock deployment before after c n)
    (hledger : before.ledger c <+: after.ledger c) : SoundBlock deployment after c n := by
  have hsaved (txObjs : List (TxObj δ)) (hall : AllSaved deployment before c n txObjs) :
      AllSaved deployment after c n txObjs := hall.mono (by rw [hsame.transactions])
  refine ⟨?_, fun hash ↦ ?_, ?_⟩
  · rw [hsame.blocks]
    refine h.blocks.imp_right ?_
    rintro ⟨block, hblock, hrows, hall⟩
    exact ⟨block, hblock.mono hledger, hrows, hsaved _ hall⟩
  · rw [hsame.transactions]
    refine (h.transactions hash).imp_right ?_
    rintro ⟨block, txObj, details, hblock, hrest⟩
    exact ⟨block, txObj, details, hblock.mono hledger, hrest⟩
  · rw [hsame.sent, hsame.blocks]
    refine h.sent.imp_right ?_
    rintro ⟨block, hblock, hrest⟩
    exact ⟨block, hblock.mono hledger, hrest⟩

/-- Two tasks do not have the key of one block. -/
theorem Sound.holds_unique (h : Sound deployment before) {tag other : Tag}
    (hholds : Holds before c n tag) (hother : Holds before c n other) : tag = other :=
  congrArg Prod.snd (List.inj_on_of_nodup_map h.keys hholds hother rfl)

/-! #### Rows -/

/-- A step that changes at most the rows and the notifications of one block. -/
structure Touches (deployment : Deployment) (before after : SyncState δ) (c : String) (n : ℕ) :
    Prop where
  ledger : after.ledger = before.ledger
  process : after.process = before.process
  hashes : after.channelsGenHash = before.channelsGenHash
  held : after.blocksInProcess = before.blocksInProcess
  synch : after.synchInProcess = before.synchInProcess
  blocks : blocksOf deployment before c n <:+ blocksOf deployment after c n
  transactions : transactionsOf deployment before c n <:+ transactionsOf deployment after c n
  same : ∀ c' n', ¬ (c' = c ∧ n' = n) → SameBlock deployment before after c' n'
  blocksKnown : ∀ row ∈ after.database.blocks, row ∈ before.database.blocks ∨
    row.channelGenesisHash = deployment.genesisHash c
  transactionsKnown : ∀ row ∈ after.database.transactions, row ∈ before.database.transactions ∨
    row.channelGenesisHash = deployment.genesisHash c
  sentKnown : ∀ notify ∈ after.sent, notify ∈ before.sent ∨ notify.title = blockTitle c n

namespace Touches

variable {tag : Tag}

theorem holds (h : Touches deployment before after c n) {c' : String} {n' : ℕ} :
    Holds after c' n' tag ↔ Holds before c' n' tag := by
  unfold Holds
  rw [h.held]

theorem onLedger (h : Touches deployment before after c n) {c' : String} {n' : ℕ}
    {block : Block δ} : OnLedger after c' n' block ↔ OnLedger before c' n' block := by
  unfold OnLedger
  rw [h.ledger]

theorem link (h : Touches deployment before after c n) (hsound : Sound deployment before)
    (hholds : Holds before c n tag) : Link deployment (some tag) before after where
  ledger _ := by rw [h.ledger]
  process := h.process.ge
  blocks c' n' := by
    by_cases hsame : c' = c ∧ n' = n
    · obtain ⟨rfl, rfl⟩ := hsame
      exact h.blocks
    · rw [(h.same c' n' hsame).blocks]
  transactions c' n' := by
    by_cases hsame : c' = c ∧ n' = n
    · obtain ⟨rfl, rfl⟩ := hsame
      exact h.transactions
    · rw [(h.same c' n' hsame).transactions]
  writer c' n' := by
    by_cases hsame : c' = c ∧ n' = n
    · obtain ⟨rfl, rfl⟩ := hsame
      exact Or.inr ⟨tag, rfl, hholds⟩
    · exact Or.inl (h.same c' n' hsame)
  others _ c' n' other hother hne := by
    refine ⟨h.holds.mpr hother, h.same c' n' ?_⟩
    rintro ⟨rfl, rfl⟩
    exact hne (congrArg some (hsound.holds_unique hholds hother))
  fresh entry hmem := Or.inl (h.held ▸ hmem)
  released _ c' n' other hother := Or.inl (h.holds.mpr hother)
  hashes _ c' hsome := by
    rw [h.hashes]
    exact hsome

theorem sound (h : Touches deployment before after c n) (hsound : Sound deployment before)
    (hblock : SoundBlock deployment after c n) : Sound deployment after where
  ledger c' n' block hblock := hsound.ledger c' n' block (h.onLedger.mp hblock)
  details hreliable c' n' block hblock :=
    hsound.details hreliable c' n' block (h.onLedger.mp hblock)
  hashes c' hash := by
    rw [h.hashes]
    exact hsound.hashes c' hash
  keys := h.held ▸ hsound.keys
  owners entry hmem := by
    rw [h.process]
    exact hsound.owners entry (h.held ▸ hmem)
  synch := h.synch.trans hsound.synch
  block c' n' := by
    by_cases hsame : c' = c ∧ n' = n
    · obtain ⟨rfl, rfl⟩ := hsame
      exact hblock
    · exact (hsound.block c' n').of_same (h.same c' n' hsame) (by rw [h.ledger])
  blocksKnown row hmem hnetwork := (h.blocksKnown row hmem).elim
    (fun hmem ↦ hsound.blocksKnown row hmem hnetwork) fun heq ↦ ⟨c, heq⟩
  transactionsKnown row hmem hnetwork := (h.transactionsKnown row hmem).elim
    (fun hmem ↦ hsound.transactionsKnown row hmem hnetwork) fun heq ↦ ⟨c, heq⟩
  sentKnown notify hmem := (h.sentKnown notify hmem).elim (hsound.sentKnown notify)
    fun heq ↦ ⟨c, n, heq⟩

end Touches

variable (deployment) in
/-- The block row of a block is inserted. -/
theorem touches_saveBlockRow {block : Block δ} (hnumber : block.number = n)
    (hafter : after = { before with database := { before.database with
      blocks := savedBlock deployment c block :: before.database.blocks } }) :
    Touches deployment before after c n ∧ blocksOf deployment after c n =
      savedBlock deployment c block :: blocksOf deployment before c n := by
  subst hafter hnumber
  have hrow : blocksOf deployment { before with database := { before.database with
      blocks := savedBlock deployment c block :: before.database.blocks } } c block.number =
      savedBlock deployment c block :: blocksOf deployment before c block.number := by
    simp [blocksOf, savedBlock, blockRow]
  refine ⟨⟨rfl, rfl, rfl, rfl, rfl, ?_, List.suffix_rfl, fun c' n' hne ↦ ⟨?_, rfl, rfl⟩, ?_, ?_,
    ?_⟩, hrow⟩
  · rw [hrow]
    exact List.suffix_cons _ _
  · refine List.filter_cons_of_neg ?_
    rw [decide_eq_true_eq]
    rintro ⟨-, hhash, hnumber⟩
    exact hne ⟨deployment.genesisHash_injective hhash.symm, hnumber.symm⟩
  · intro row hmem
    rcases List.mem_cons.mp hmem with rfl | hmem
    · exact Or.inr rfl
    · exact Or.inl hmem
  · exact fun row hmem ↦ Or.inl hmem
  · exact fun notify hmem ↦ Or.inl hmem

variable (deployment) in
/-- The row of a transaction of the block is inserted. -/
theorem touches_saveTransactionRow {txObj : TxObj δ} {details : δ}
    (hafter : after = { before with database := { before.database with
      transactions := savedTransaction deployment c n txObj details ::
        before.database.transactions } }) :
    Touches deployment before after c n ∧ transactionsOf deployment after c n =
      savedTransaction deployment c n txObj details :: transactionsOf deployment before c n := by
  subst hafter
  have hrow : transactionsOf deployment { before with database := { before.database with
      transactions := savedTransaction deployment c n txObj details ::
        before.database.transactions } } c n =
      savedTransaction deployment c n txObj details :: transactionsOf deployment before c n := by
    simp [transactionsOf, savedTransaction, transactionRow]
  refine ⟨⟨rfl, rfl, rfl, rfl, rfl, List.suffix_rfl, ?_, fun c' n' hne ↦ ⟨rfl, ?_, rfl⟩, ?_, ?_,
    ?_⟩, hrow⟩
  · rw [hrow]
    exact List.suffix_cons _ _
  · refine List.filter_cons_of_neg ?_
    rw [decide_eq_true_eq]
    rintro ⟨-, hhash, hnumber⟩
    exact hne ⟨deployment.genesisHash_injective hhash.symm, hnumber.symm⟩
  · exact fun row hmem ↦ Or.inl hmem
  · intro row hmem
    rcases List.mem_cons.mp hmem with rfl | hmem
    · exact Or.inr rfl
    · exact Or.inl hmem
  · exact fun notify hmem ↦ Or.inl hmem

variable (deployment) in
/-- The notification of the block is sent. -/
theorem touches_send {block : Block δ} (hnumber : block.number = n)
    (hafter : after = { before with
      sent := blockNotification deployment.networkId c block :: before.sent }) :
    Touches deployment before after c n ∧ sentOf after c n =
      blockNotification deployment.networkId c block :: sentOf before c n := by
  subst hafter hnumber
  refine ⟨⟨rfl, rfl, rfl, rfl, rfl, List.suffix_rfl, List.suffix_rfl,
    fun c' n' hne ↦ ⟨rfl, rfl, ?_⟩, ?_, ?_, ?_⟩, ?_⟩
  · refine List.filter_cons_of_neg ?_
    rw [decide_eq_true_eq]
    intro htitle
    obtain ⟨rfl, rfl⟩ := blockTitle_injective (c := c) (n := block.number) htitle
    exact hne ⟨rfl, rfl⟩
  · exact fun row hmem ↦ Or.inl hmem
  · exact fun row hmem ↦ Or.inl hmem
  · intro notify hmem
    rcases List.mem_cons.mp hmem with rfl | hmem
    · exact Or.inr rfl
    · exact Or.inl hmem
  · exact List.filter_cons_of_pos (decide_eq_true rfl)

/-- A block without a row has not been notified. -/
theorem SoundBlock.sent_eq_nil (h : SoundBlock deployment before c n)
    (hblocks : blocksOf deployment before c n = []) : sentOf before c n = [] := by
  rcases h.sent with hsent | ⟨block, -, -, hne⟩
  · exact hsent
  · exact absurd hblocks hne

/-- A block is inserted that has no row, and whose transactions all have one. -/
theorem sound_saveBlockRow {block : Block δ} (hsound : Sound deployment before)
    (hledger : OnLedger before c n block) (hall : AllSaved deployment before c n block.data)
    (hblocks : blocksOf deployment before c n = [])
    (hafter : after = { before with database := { before.database with
      blocks := savedBlock deployment c block :: before.database.blocks } }) :
    Sound deployment after := by
  obtain ⟨htouches, hrows⟩ := touches_saveBlockRow deployment
    (hsound.ledger c n block hledger).1 hafter
  subst hafter
  refine htouches.sound hsound ⟨Or.inr ⟨block, hledger, ?_, hall⟩, ?_, Or.inl ?_⟩
  · rw [hrows, hblocks]
  · exact (hsound.block c n).transactions
  · exact (hsound.block c n).sent_eq_nil hblocks

/-- A transaction is inserted whose hash no row has, after those before it. -/
theorem sound_saveTransactionRow {block : Block δ} {done rest : List (TxObj δ)} {txObj : TxObj δ}
    {details : δ} (hsound : Sound deployment before) (hledger : OnLedger before c n block)
    (hdata : block.data = done ++ txObj :: rest) (hall : AllSaved deployment before c n done)
    (hdetails : txObj.details = some details)
    (hnone : (transactionsOf deployment before c n).filter
      (fun row ↦ row.txhash = txHash deployment.sha256 txObj) = [])
    (hafter : after = { before with database := { before.database with
      transactions := savedTransaction deployment c n txObj details ::
        before.database.transactions } }) :
    Sound deployment after := by
  obtain ⟨htouches, hrows⟩ := touches_saveTransactionRow deployment hafter
  refine htouches.sound hsound ?_
  have hblock := hsound.block c n
  subst hafter
  refine ⟨?_, fun hash ↦ ?_, hblock.sent⟩
  · refine hblock.blocks.imp_right ?_
    rintro ⟨other, hother, hblocks, hsaved⟩
    exact ⟨other, hother, hblocks, hsaved.mono htouches.transactions⟩
  · by_cases hhash : txHash deployment.sha256 txObj = hash
    · subst hhash
      have hearlier : done.find? (fun other ↦ txHash deployment.sha256 other =
          txHash deployment.sha256 txObj) = none := by
        rw [List.find?_eq_none]
        intro earlier hmem heq
        obtain ⟨row, hrow, hhash⟩ := hall earlier hmem
        have hmem : row ∈ (transactionsOf deployment before c n).filter
            (fun row ↦ row.txhash = txHash deployment.sha256 txObj) :=
          List.mem_filter.mpr ⟨hrow, decide_eq_true (hhash.trans (of_decide_eq_true heq))⟩
        rw [hnone] at hmem
        cases hmem
      refine Or.inr ⟨block, txObj, details, hledger, ?_, hdetails, ?_⟩
      · rw [hdata, List.find?_append, hearlier, Option.none_or]
        exact List.find?_cons_of_pos (decide_eq_true rfl)
      · rw [hrows]
        refine (List.filter_cons_of_pos ?_).trans ?_
        · exact decide_eq_true rfl
        · rw [hnone]
    · have hother : ¬ (savedTransaction deployment c n txObj details).txhash = hash := hhash
      rw [hrows, List.filter_cons_of_neg (by rwa [decide_eq_true_eq])]
      exact hblock.transactions hash

/-- A block is notified that has its row and has not been notified. -/
theorem sound_send {block : Block δ} (hsound : Sound deployment before)
    (hledger : OnLedger before c n block) (hblocks : blocksOf deployment before c n ≠ [])
    (hsent : sentOf before c n = [])
    (hafter : after = { before with
      sent := blockNotification deployment.networkId c block :: before.sent }) :
    Sound deployment after := by
  obtain ⟨htouches, hrows⟩ := touches_send deployment
    (hsound.ledger c n block hledger).1 hafter
  refine htouches.sound hsound ?_
  have hblock := hsound.block c n
  subst hafter
  refine ⟨hblock.blocks, hblock.transactions, Or.inr ⟨block, hledger, ?_, hblocks⟩⟩
  rw [hrows, hsent]

/-! #### Keys -/

theorem includesBlock_iff {blockProKey : String} :
    before.includesBlock blockProKey ↔ blockProKey ∈ before.blocksInProcess.map Prod.fst := by
  simp [SyncState.includesBlock]

/-- The task pushes a key that is not there. -/
theorem push_key {tag : Tag} (hsound : Sound deployment before)
    (hprocess : before.process = tag.process)
    (habsent : ¬ before.includesBlock (blockProKey c n))
    (hafter : after = { before with
      blocksInProcess := before.blocksInProcess ++ [(blockProKey c n, tag)] }) :
    Sound deployment after ∧ Link deployment (some tag) before after := by
  rw [includesBlock_iff] at habsent
  subst hafter
  refine ⟨⟨hsound.ledger, hsound.details, hsound.hashes, ?_, ?_, hsound.synch,
    fun c' n' ↦ (hsound.block c' n').of_same (sameBlock_of_eq rfl rfl) List.prefix_rfl,
    hsound.blocksKnown, hsound.transactionsKnown, hsound.sentKnown⟩, ?_⟩
  · rw [List.map_append, List.nodup_append]
    refine ⟨hsound.keys, List.nodup_singleton _, fun key hkey key' hkey' heq ↦ habsent ?_⟩
    rw [List.map_singleton, List.mem_singleton] at hkey'
    subst heq hkey'
    exact hkey
  · intro entry hmem
    rcases List.mem_append.mp hmem with hmem | hmem
    · exact hsound.owners entry hmem
    · rw [List.mem_singleton.mp hmem]
      exact hprocess.symm
  · constructor
    · exact fun _ ↦ List.prefix_rfl
    · exact le_rfl
    · exact fun _ _ ↦ List.suffix_rfl
    · exact fun _ _ ↦ List.suffix_rfl
    · exact fun _ _ ↦ Or.inl (sameBlock_of_eq rfl rfl)
    · exact fun _ c' n' other hother _ ↦ ⟨List.mem_append_left _ hother, sameBlock_of_eq rfl rfl⟩
    · exact fun entry hmem ↦ (List.mem_append.mp hmem).imp_right fun hmem ↦ by
        rw [List.mem_singleton.mp hmem]
    · exact fun _ c' n' other hother ↦ Or.inl (List.mem_append_left _ hother)
    · exact fun _ c' hsome ↦ hsome

/-- When the key is there, once, `spliceKey` takes off its entry. -/
theorem spliceKey_eq_filter {α : Type} {keyOf : α → String} {entries : List α} {key : String}
    (hnodup : (entries.map keyOf).Nodup) (hmem : key ∈ entries.map keyOf) :
    spliceKey keyOf key entries = entries.filter fun entry ↦ keyOf entry ≠ key := by
  obtain ⟨entry, hentry, rfl⟩ := List.mem_map.mp hmem
  have hany : (entries.any fun other ↦ keyOf other = keyOf entry) = true :=
    List.any_eq_true.mpr ⟨entry, hentry, decide_eq_true rfl⟩
  rw [spliceKey, if_pos hany]
  clear hany hmem
  induction entries with
  | nil => cases hentry
  | cons head tail ih =>
    rw [List.map_cons, List.nodup_cons] at hnodup
    rcases List.mem_cons.mp hentry with rfl | htail
    · have hself : tail.filter (fun other ↦ keyOf other ≠ keyOf entry) = tail := by
        refine List.filter_eq_self.mpr fun other hother ↦ decide_eq_true fun heq ↦ ?_
        exact hnodup.1 (heq ▸ List.mem_map_of_mem hother)
      rw [List.filter_cons_of_neg (by simp), hself]
      exact List.eraseP_cons_of_pos (decide_eq_true rfl)
    · have hne : keyOf head ≠ keyOf entry := fun heq ↦ hnodup.1 (heq ▸ List.mem_map_of_mem htail)
      rw [List.eraseP_cons_of_neg (by simpa using hne),
        List.filter_cons_of_pos (by simpa using hne), ih hnodup.2 htail]

/-- The task takes off its key of a block that has its row. -/
theorem splice_key {tag : Tag} (hsound : Sound deployment before) (hholds : Holds before c n tag)
    (hblocks : blocksOf deployment before c n ≠ [])
    (hafter : after = { before with
      blocksInProcess := spliceKey Prod.fst (blockProKey c n) before.blocksInProcess }) :
    Sound deployment after ∧ Link deployment (some tag) before after ∧
      ∀ entry, entry ∈ after.blocksInProcess ↔
        entry ∈ before.blocksInProcess ∧ entry.1 ≠ blockProKey c n := by
  have hfilter := spliceKey_eq_filter hsound.keys (List.mem_map_of_mem hholds)
  rw [hfilter] at hafter
  have hmem (entry : String × Tag) : entry ∈ after.blocksInProcess ↔
      entry ∈ before.blocksInProcess ∧ entry.1 ≠ blockProKey c n := by
    rw [hafter, List.mem_filter, decide_eq_true_eq]
  have hheld (c' : String) (n' : ℕ) (other : Tag) :
      Holds after c' n' other ↔ Holds before c' n' other ∧ ¬ (c' = c ∧ n' = n) := by
    unfold Holds
    rw [hmem]
    refine and_congr_right fun _ ↦ not_congr ⟨blockProKey_injective, ?_⟩
    rintro ⟨rfl, rfl⟩
    rfl
  have hothers {c' : String} {n' : ℕ} {other : Tag} (hother : Holds before c' n' other)
      (hne : ¬ (c' = c ∧ n' = n)) : Holds after c' n' other :=
    (hheld c' n' other).mpr ⟨hother, hne⟩
  refine ⟨?_, ?_, hmem⟩
  · have hkeys : (after.blocksInProcess.map Prod.fst).Nodup := by
      rw [hafter]
      exact hsound.keys.sublist (List.filter_sublist.map Prod.fst)
    have howners (entry : String × Tag) (hentry : entry ∈ after.blocksInProcess) :=
      hsound.owners entry ((hmem entry).mp hentry).1
    subst hafter
    exact ⟨hsound.ledger, hsound.details, hsound.hashes, hkeys, howners, hsound.synch,
      fun c' n' ↦ (hsound.block c' n').of_same (sameBlock_of_eq rfl rfl) List.prefix_rfl,
      hsound.blocksKnown, hsound.transactionsKnown, hsound.sentKnown⟩
  · have hlink : (∀ c' n', SameBlock deployment before after c' n') ∧
        after.ledger = before.ledger ∧ after.process = before.process ∧
        after.channelsGenHash = before.channelsGenHash := by
      subst hafter
      exact ⟨fun _ _ ↦ sameBlock_of_eq rfl rfl, rfl, rfl, rfl⟩
    obtain ⟨hsame, hledger, hprocess, hhashes⟩ := hlink
    constructor
    · exact fun _ ↦ by rw [hledger]
    · exact hprocess.ge
    · exact fun c' n' ↦ by rw [(hsame c' n').blocks]
    · exact fun c' n' ↦ by rw [(hsame c' n').transactions]
    · exact fun c' n' ↦ Or.inl (hsame c' n')
    · intro _ c' n' other hother hne
      refine ⟨hothers hother ?_, hsame c' n'⟩
      rintro ⟨rfl, rfl⟩
      exact hne (congrArg some (hsound.holds_unique hholds hother))
    · exact fun entry hentry ↦ Or.inl ((hmem entry).mp hentry).1
    · intro _ c' n' other hother
      by_cases hsame' : c' = c ∧ n' = n
      · obtain ⟨rfl, rfl⟩ := hsame'
        rw [(hsame c' n').blocks]
        exact Or.inr hblocks
      · exact Or.inl (hothers hother hsame')
    · exact fun _ c' hsome ↦ by rwa [hhashes]

/-! #### Other steps -/

/-- Nothing changes but what the invariant does not look at. -/
structure Quiet (before after : SyncState δ) : Prop where
  ledger : after.ledger = before.ledger
  process : after.process = before.process
  hashes : after.channelsGenHash = before.channelsGenHash
  held : after.blocksInProcess = before.blocksInProcess
  synch : after.synchInProcess = before.synchInProcess
  blocks : after.database.blocks = before.database.blocks
  transactions : after.database.transactions = before.database.transactions
  sent : after.sent = before.sent

theorem Quiet.refl (state : SyncState δ) : Quiet state state :=
  ⟨rfl, rfl, rfl, rfl, rfl, rfl, rfl, rfl⟩

theorem Quiet.holds (h : Quiet before after) {tag : Tag} :
    Holds after c n tag ↔ Holds before c n tag := by
  unfold Holds
  rw [h.held]

theorem Quiet.touches (h : Quiet before after) (c : String) (n : ℕ) :
    Touches deployment before after c n := by
  have hsame (c' : String) (n' : ℕ) : SameBlock deployment before after c' n' := by
    constructor
    · unfold blocksOf
      rw [h.blocks]
    · unfold transactionsOf
      rw [h.transactions]
    · unfold sentOf
      rw [h.sent]
  refine ⟨h.ledger, h.process, h.hashes, h.held, h.synch, ?_, ?_, fun c' n' _ ↦ hsame c' n', ?_, ?_,
    ?_⟩
  · rw [(hsame c n).blocks]
  · rw [(hsame c n).transactions]
  · exact fun row hmem ↦ Or.inl (h.blocks ▸ hmem)
  · exact fun row hmem ↦ Or.inl (h.transactions ▸ hmem)
  · exact fun notify hmem ↦ Or.inl (h.sent ▸ hmem)

theorem Quiet.sameBlock (h : Quiet before after) (c : String) (n : ℕ) :
    SameBlock deployment before after c n :=
  (h.touches c (n + 1)).same c n fun heq ↦ Nat.ne_of_lt n.lt_succ_self heq.2

theorem Quiet.sound (h : Quiet before after) (hsound : Sound deployment before) :
    Sound deployment after :=
  (h.touches "" 0).sound hsound
    ((hsound.block "" 0).of_same (h.sameBlock "" 0) (by rw [h.ledger]))

theorem Quiet.link (h : Quiet before after) : Link deployment actor before after where
  ledger _ := by rw [h.ledger]
  process := h.process.ge
  blocks c n := by rw [(h.sameBlock c n).blocks]
  transactions c n := by rw [(h.sameBlock c n).transactions]
  writer c n := Or.inl (h.sameBlock c n)
  others _ c n tag hholds _ := ⟨h.holds.mpr hholds, h.sameBlock c n⟩
  fresh entry hmem := Or.inl (h.held ▸ hmem)
  released _ c n tag hholds := Or.inl (h.holds.mpr hholds)
  hashes _ c hsome := by rwa [h.hashes]

/-- What happens without the tasks keeps the invariant. -/
theorem drift_step (hsound : Sound deployment before) (hdrift : deployment.Drift before after) :
    Sound deployment after ∧ Link deployment actor before after := by
  cases hdrift with
  | append channelName block hnumber hchannel hdetails =>
    have hgrows (c : String) : before.ledger c <+: Function.update before.ledger channelName
        (before.ledger channelName ++ [block]) c := by
      by_cases hc : c = channelName
      · subst hc
        rw [Function.update_self]
        exact List.prefix_append _ _
      · rw [Function.update_of_ne hc]
    have honLedger {c : String} {n : ℕ} {other : Block δ}
        (h : (Function.update before.ledger channelName
          (before.ledger channelName ++ [block]) c)[n]? = some other) :
        OnLedger before c n other ∨ c = channelName ∧ n = (before.ledger c).length ∧
          other = block := by
      by_cases hc : c = channelName
      · subst hc
        rw [Function.update_self, List.getElem?_append] at h
        split_ifs at h with hlt
        · exact Or.inl h
        · obtain ⟨hzero, heq⟩ := List.getElem?_eq_some_iff.mp h
          rw [List.getElem_singleton] at heq
          rw [List.length_singleton] at hzero
          exact Or.inr ⟨rfl, by omega, heq.symm⟩
      · rw [Function.update_of_ne hc] at h
        exact Or.inl h
    refine ⟨⟨?_, ?_, hsound.hashes, hsound.keys, hsound.owners, hsound.synch,
      fun c n ↦ (hsound.block c n).of_same (sameBlock_of_eq rfl rfl) (hgrows c),
      hsound.blocksKnown, hsound.transactionsKnown, hsound.sentKnown⟩, ⟨hgrows, le_rfl,
      fun _ _ ↦ List.suffix_rfl, fun _ _ ↦ List.suffix_rfl,
      fun _ _ ↦ Or.inl (sameBlock_of_eq rfl rfl),
      fun _ _ _ _ hholds _ ↦ ⟨hholds, sameBlock_of_eq rfl rfl⟩, fun _ hmem ↦ Or.inl hmem,
      fun _ _ _ _ hholds ↦ Or.inl hholds, fun _ _ hsome ↦ hsome⟩⟩
    · intro c n other hother
      rcases honLedger hother with hbefore | ⟨rfl, rfl, rfl⟩
      · exact hsound.ledger c n other hbefore
      · exact ⟨hnumber, hchannel⟩
    · intro hreliable c n other hother
      rcases honLedger hother with hbefore | ⟨rfl, rfl, rfl⟩
      · exact hsound.details hreliable c n other hbefore
      · exact hdetails hreliable
  | discover channelName =>
    refine ⟨⟨hsound.ledger, hsound.details, ?_, hsound.keys, hsound.owners, hsound.synch,
      fun c n ↦ (hsound.block c n).of_same (sameBlock_of_eq rfl rfl) List.prefix_rfl,
      hsound.blocksKnown, hsound.transactionsKnown, hsound.sentKnown⟩, ⟨fun _ ↦ List.prefix_rfl,
      le_rfl, fun _ _ ↦ List.suffix_rfl, fun _ _ ↦ List.suffix_rfl,
      fun _ _ ↦ Or.inl (sameBlock_of_eq rfl rfl),
      fun _ _ _ _ hholds _ ↦ ⟨hholds, sameBlock_of_eq rfl rfl⟩, fun _ hmem ↦ Or.inl hmem,
      fun _ _ _ _ hholds ↦ Or.inl hholds, ?_⟩⟩
    · intro c hash heq
      by_cases hc : c = channelName
      · subst hc
        simp only [Deployment.discovered, Function.update_self] at heq
        exact (Option.some.inj heq).symm
      · simp only [Deployment.discovered, Function.update_of_ne hc] at heq
        exact hsound.hashes c hash heq
    · intro _ c hsome
      by_cases hc : c = channelName
      · subst hc
        simp only [Deployment.discovered, Function.update_self, Option.isSome_some]
      · simpa only [Deployment.discovered, Function.update_of_ne hc] using hsome
  | others blocks transactions channel chaincodes hblocks htransactions =>
    have hsame (c : String) (n : ℕ) : SameBlock deployment before { before with
        database := ⟨blocks ++ before.database.blocks, transactions ++ before.database.transactions,
          channel, chaincodes⟩ } c n := by
      refine ⟨?_, ?_, rfl⟩
      · refine (List.filter_append ..).trans ?_
        rw [List.filter_eq_nil_iff.mpr, List.nil_append]
        · rfl
        · exact fun row hmem h ↦ hblocks row hmem (of_decide_eq_true h).1
      · refine (List.filter_append ..).trans ?_
        rw [List.filter_eq_nil_iff.mpr, List.nil_append]
        · rfl
        · exact fun row hmem h ↦ htransactions row hmem (of_decide_eq_true h).1
    refine ⟨⟨hsound.ledger, hsound.details, hsound.hashes, hsound.keys, hsound.owners, hsound.synch,
      fun c n ↦ (hsound.block c n).of_same (hsame c n) List.prefix_rfl, ?_, ?_, hsound.sentKnown⟩,
      ⟨fun _ ↦ List.prefix_rfl, le_rfl, fun c n ↦ by rw [(hsame c n).blocks],
      fun c n ↦ by rw [(hsame c n).transactions], fun c n ↦ Or.inl (hsame c n),
      fun _ c n _ hholds _ ↦ ⟨hholds, hsame c n⟩,
      fun _ hmem ↦ Or.inl hmem, fun _ _ _ _ hholds ↦ Or.inl hholds, fun _ _ hsome ↦ hsome⟩⟩
    · intro row hmem hnetwork
      rcases List.mem_append.mp hmem with hmem | hmem
      · exact absurd hnetwork (hblocks row hmem)
      · exact hsound.blocksKnown row hmem hnetwork
    · intro row hmem hnetwork
      rcases List.mem_append.mp hmem with hmem | hmem
      · exact absurd hnetwork (htransactions row hmem)
      · exact hsound.transactionsKnown row hmem hnetwork

/-- A restart keeps the invariant. -/
theorem restart_step (hsound : Sound deployment before)
    (hafter : after = Deployment.restarted before) :
    Sound deployment after ∧ Link deployment actor before after := by
  subst hafter
  have hprocess : before.process ≠ (Deployment.restarted before).process :=
    Nat.ne_of_lt before.process.lt_succ_self
  refine ⟨⟨hsound.ledger, hsound.details, ?_, List.nodup_nil, ?_, rfl,
    fun c n ↦ (hsound.block c n).of_same (sameBlock_of_eq rfl rfl) List.prefix_rfl,
    hsound.blocksKnown, hsound.transactionsKnown, hsound.sentKnown⟩, ⟨fun _ ↦ List.prefix_rfl,
    Nat.le_succ _, fun _ _ ↦ List.suffix_rfl, fun _ _ ↦ List.suffix_rfl,
    fun _ _ ↦ Or.inl (sameBlock_of_eq rfl rfl), fun heq ↦ absurd heq hprocess, ?_,
    fun heq ↦ absurd heq hprocess, fun heq ↦ absurd heq hprocess⟩⟩
  · intro c hash heq
    cases heq
  · intro entry hmem
    cases hmem
  · intro entry hmem
    cases hmem

theorem sound_initial (deployment : Deployment) :
    Sound deployment (SyncState.initial : SyncState δ) where
  ledger c n block h := by cases h
  details _ c n block h := by cases h
  hashes c hash h := by cases h
  keys := List.nodup_nil
  owners entry hmem := by cases hmem
  synch := rfl
  block c n := ⟨Or.inl rfl, fun _ ↦ Or.inl rfl, Or.inl rfl⟩
  blocksKnown row hmem := by cases hmem
  transactionsKnown row hmem := by cases hmem
  sentKnown notify hmem := by cases hmem

end Steps

end StudentStatus.Explorer
