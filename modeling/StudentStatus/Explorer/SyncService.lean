import Mathlib.Algebra.Group.Nat.Defs
import StudentStatus.Explorer.Database
import StudentStatus.Interaction.Interleaving

/-!
# The synchronisation of blocks

`SyncService.ts` with the listener of `FabricEvent.ts`. A block reaches the database through
`processBlockEvent`, which the listener calls for every new block and `syncBlocks` for the blocks of
the ledger that the database lacks: the transactions are saved one by one, then the block, then the
parent process is notified. Every query is awaited, so the calls of many blocks are interleaved.
What keeps two calls from the same block is a list of keys in memory (`blocksInProcess`); a key is
taken off at the end, and stays when anything throws before. The list that was to keep apart two
runs of `syncBlocks` is never added to.

Tasks are programs of single calls, each with the number of the process that runs it. A query may
fail before or after its effect, the ledgers grow, other explorers write to the tables, and a
restart loses the tasks and the memory.
-/

set_option autoImplicit false
set_option relaxedAutoImplicit false

namespace StudentStatus.Explorer

open Interaction

variable {δ : Type}

/-! ### Calls -/

/-- A task is known by the process that runs it and a number. -/
structure Tag where
  process : ℕ
  task : ℕ
  deriving DecidableEq

/-- The notification of a block to the parent process. -/
structure Notification (δ : Type) where
  networkId : String
  channelName : String
  title : String
  message : String
  txcount : ℕ
  datahash : String
  details : δ

/-- What `setTimeout` is given to do in ten seconds, which is not modelled. -/
inductive Timer : Type
  | insertDiscoveredChannel (channelName : String)
  | updateDiscoveredChannel (channelName : String)
  | insertFromDiscoveryResults (channelName : String)

/-- The calls of a task: the event of a block, the memory of the process, the ledger, the database,
and the parent process. -/
inductive SyncCall (δ : Type) : Type
  | receive (channelName : String) (number : ℕ)
  | getChannelGenHash (channelName : String)
  /-- The check of `blocksInProcess` and the push, with no `await` between them. -/
  | pushBlock (blockProKey : String)
  | spliceBlock (blockProKey : String)
  | includesSynch (synchKey : String)
  | spliceSynch (synchKey : String)
  | queryChainInfo (channelName : String)
  | queryBlock (channelName : String) (blockNum : ℕ)
  | query (query : Query δ)
  | send (notify : Notification δ)
  | setTimeout (timer : Timer)

/-- What a call returns: whether the key was pushed, whether it is included, the height of the
ledger, a block unless it cannot be had, or the result of a query or its error. -/
@[reducible] def SyncReply : SyncCall δ → Type
  | .receive _ _ | .queryBlock _ _ => Option (Block δ)
  | .getChannelGenHash _ => Option String
  | .pushBlock _ | .includesSynch _ => Bool
  | .queryChainInfo _ => Option ℕ
  | .query query => Except String query.Result
  | .spliceBlock _ | .spliceSynch _ | .send _ | .setTimeout _ => Unit

/-- What a task throws. -/
inductive SyncError : Type
  | explorer (message : String)
  | typeError
  | database (err : String)

abbrev SyncProgram (δ : Type) := Program (SyncCall δ) SyncReply SyncError

def call (request : SyncCall δ) : SyncProgram δ (SyncReply request) := Program.ask request

/-- Await a query, whose error is thrown. -/
def runQuery (query : Query δ) : SyncProgram δ query.Result := do
  let result : Except String query.Result ← call (.query query)
  match result with
  | .ok value => return value
  | .error err => Program.raise (.database err)

/-! ### Rows -/

def blockTypeConfig : String := "CONFIG"

def blockTypeEndorserTransaction : String := "ENDORSER_TRANSACTION"

def chaincodeLscc : String := "lscc"

def chaincodeLifecycle : String := "_lifecycle"

/-- The key of a block in `blocksInProcess`. -/
def blockProKey (channelName : String) (number : ℕ) : String :=
  channelName ++ "_" ++ toString number

/-- The hash that a transaction is saved with. A configuration has no ID of its own. -/
def txHash (sha256 : String → String) (txObj : TxObj δ) : String :=
  if txObj.typeString = "CONFIG" then sha256 txObj.txStr else txObj.txId

def chaincodeName (txObj : TxObj δ) : String := (txObj.chaincode.map ChaincodeId.name).getD ""

def blockRow (channelGenesisHash : String) (block : Block δ) : BlockRow δ where
  blocknum := block.number
  datahash := block.dataHash
  prehash := block.previousHash
  txcount := block.data.length
  channelGenesisHash := channelGenesisHash
  networkName := ""
  details := block.details

def transactionRow (sha256 : String → String) (channelGenesisHash : String) (number : ℕ)
    (txObj : TxObj δ) (details : δ) : TransactionRow δ where
  blockid := number
  txhash := txHash sha256 txObj
  chaincodename := chaincodeName txObj
  type := txObj.typeString
  channelGenesisHash := channelGenesisHash
  networkName := ""
  details := details

def blockNotification (networkId channelName : String) (block : Block δ) : Notification δ where
  networkId := networkId
  channelName := channelName
  title := "Block " ++ toString block.number ++ " added to Channel: " ++ channelName
  message := "Block " ++ toString block.number ++ " established with " ++
    toString block.data.length ++ " tx"
  txcount := block.data.length
  datahash := block.dataHash
  details := block.details

/-! ### Saving a block -/

def saveTransaction (networkName : String) (transaction : TransactionRow δ)
    (chaincodeversion : Option String) : SyncProgram δ Bool := do
  let c ← runQuery (.countTransactions networkName transaction)
  if isValidRow c then do
    runQuery (.saveTransactionRow { transaction with networkName := networkName })
    runQuery (.incrementTxcount transaction.channelGenesisHash networkName
      transaction.chaincodename chaincodeversion)
    runQuery (.incrementTrans transaction.channelGenesisHash networkName)
    return true
  else return false

def saveBlock (networkName : String) (block : BlockRow δ) : SyncProgram δ Bool := do
  let c ← runQuery (.countBlocks networkName block)
  if isValidRow c then do
    runQuery (.saveBlockRow { block with networkName := networkName })
    runQuery (.incrementBlocks block.channelGenesisHash networkName)
    return true
  else return false

section Processing

variable (networkId : String) (sha256 : String → String)

/-- The loop over the transactions of a block, whose first one is `header`. -/
def saveTransactions (channelName channelGenesisHash : String) (header : TxObj δ) (number : ℕ)
    (noDiscovery : Bool) : List (TxObj δ) → SyncProgram δ Unit
  | [] => return ()
  | txObj :: rest => do
    match txObj.details with
    | none => Program.raise .typeError
    | some details => do
      if ¬ noDiscovery ∧ header.typeString = blockTypeEndorserTransaction ∧
          (chaincodeName txObj = chaincodeLscc ∨ chaincodeName txObj = chaincodeLifecycle) then
        call (.setTimeout (.insertFromDiscoveryResults channelName))
      let _ ← saveTransaction networkId
        (transactionRow sha256 channelGenesisHash number txObj details)
        (txObj.chaincode.map ChaincodeId.version)
      saveTransactions channelName channelGenesisHash header number noDiscovery rest

/-- What `processBlockEvent` does while the key of the block is in `blocksInProcess`. -/
def processHeld (channelName channelGenesisHash : String) (header : TxObj δ) (block : Block δ)
    (noDiscovery : Bool) : SyncProgram δ Bool := do
  if ¬ noDiscovery ∧ header.typeString = blockTypeConfig then
    call (.setTimeout (.updateDiscoveredChannel channelName))
  saveTransactions networkId sha256 channelName channelGenesisHash header block.number noDiscovery
    block.data
  let successSaveBlock ← saveBlock networkId (blockRow channelGenesisHash block)
  if successSaveBlock then call (.send (blockNotification networkId channelName block))
  call (.spliceBlock (blockProKey channelName block.number))
  return true

def processBlockEvent (block : Block δ) (noDiscovery : Bool) : SyncProgram δ Bool :=
  match block.data with
  | [] => Program.raise .typeError
  | header :: _ => do
    let channelGenesisHash : Option String ← call (.getChannelGenHash header.channelId)
    match channelGenesisHash with
    | none => do
      call (.setTimeout (.insertDiscoveredChannel header.channelId))
      Program.raise (.explorer (header.channelId ++ " has not been inserted yet"))
    | some channelGenesisHash => do
      let pushed : Bool ← call (.pushBlock (blockProKey header.channelId block.number))
      if ¬ pushed then Program.raise (.explorer "Block already in processing")
      else
        processHeld networkId sha256 header.channelId channelGenesisHash header block noDiscovery

/-- The listener: the genesis block is not processed. -/
def blockListener (channelName : String) (number : ℕ) : SyncProgram δ Unit := do
  let event : Option (Block δ) ← call (.receive channelName number)
  match event with
  | none => return ()
  | some block =>
    if block.number ≠ 0 then do
      let _ ← processBlockEvent networkId sha256 block false
      return ()
    else return ()

end Processing

/-! ### Looking for blocks that lack -/

/-- The low word of a height, as a signed number. -/
def lowWord (height : ℕ) : ℤ := (height : ℤ).bmod (2 ^ 32)

/-- How many of the latest blocks are asked for. The boot mode is in capitals, the number `none`
where it is not one. -/
def noOfBlocks (bootMode : String) (configured : Option ℤ) (latestBlockHeight : ℤ) : Option ℤ :=
  if bootMode = "ALL" then some (latestBlockHeight + 1)
  else if bootMode = "CUSTOM" then configured
  else some 0

/-- The first block that is asked for. -/
def startingBlockHeight (latestBlockHeight noOfBlocks : ℤ) : ℕ :=
  (latestBlockHeight - noOfBlocks + 1).toNat

/-- The heights from the latest down to the first. -/
def heightsDown (latestBlockHeight : ℤ) (starting : ℕ) : List ℕ :=
  ((List.range (latestBlockHeight + 1).toNat).filter (starting ≤ ·)).reverse

section Syncing

variable (networkId : String) (sha256 : String → String)

/-- One round of the first loop; what it throws is logged. -/
def syncBlock (channelName : String) (channelGenesisHash : Option String) (noDiscovery : Bool)
    (blockHeight : ℕ) : SyncProgram δ Unit := do
  let block : Option (Block δ) ← call (.queryBlock channelName blockHeight)
  let isBlockAvailable ← runQuery (.isBlockAvailableInDB channelGenesisHash blockHeight)
  match block with
  | none => return ()
  | some block =>
    if ¬ isBlockAvailable then do
      let _ ← processBlockEvent networkId sha256 block noDiscovery
      return ()
    else return ()

/-- One round of the second loop; what it throws is logged. -/
def syncMissingBlock (channelName : String) (noDiscovery : Bool) (missingId : ℕ) :
    SyncProgram δ Unit := do
  let block : Option (Block δ) ← call (.queryBlock channelName missingId)
  match block with
  | none => return ()
  | some block => do
    let _ ← processBlockEvent networkId sha256 block noDiscovery
    return ()

/-- A loop whose rounds log what they throw. -/
def forEach (round : ℕ → SyncProgram δ Unit) : List ℕ → SyncProgram δ Unit
  | [] => return ()
  | number :: rest => do
    let _ ← (round number).attempt
    forEach round rest

/-- The body of `syncBlocks` from the height on. -/
def syncHeights (synchKey channelName : String) (channelGenesisHash : Option String)
    (noDiscovery : Bool) (latestBlockHeight : ℤ) (starting : ℕ) : SyncProgram δ Unit := do
  forEach (syncBlock networkId sha256 channelName channelGenesisHash noDiscovery)
    (heightsDown latestBlockHeight starting)
  let missingBlocks ←
    runQuery (.findMissingBlockNumber networkId channelGenesisHash latestBlockHeight)
  forEach (syncMissingBlock networkId sha256 channelName noDiscovery)
    (missingBlocks.filter (starting ≤ ·))
  call (.spliceSynch synchKey)

/-- `syncBlocks`; what it throws is logged. -/
def syncBlocks (bootMode : String) (configured : Option ℤ) (channelName : String)
    (noDiscovery : Bool) : SyncProgram δ Unit := do
  let synchKey := networkId ++ "_" ++ channelName
  let inProcess : Bool ← call (.includesSynch synchKey)
  if inProcess then return ()
  else do
    let height : Option ℕ ← call (.queryChainInfo channelName)
    match height with
    | none => return ()
    | some height => do
      let channelGenesisHash : Option String ← call (.getChannelGenHash channelName)
      let latestBlockHeight := lowWord height - 1
      match noOfBlocks bootMode configured latestBlockHeight with
      | none => return ()
      | some count => do
        let _ ← (syncHeights networkId sha256 synchKey channelName channelGenesisHash noDiscovery
          latestBlockHeight (startingBlockHeight latestBlockHeight count)).attempt
        return ()

end Syncing

end StudentStatus.Explorer
