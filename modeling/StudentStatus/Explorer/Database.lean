import Mathlib.Data.Int.Notation
import Mathlib.Data.List.Basic

/-!
# The database of the explorer

The tables that the synchronisation of blocks reads and writes, and its queries: those of
`saveBlock`, `saveTransaction` and `isBlockAvailableInDB` in `CRUDService.ts` and
`findMissingBlockNumber` of `MetricService.ts`. No table has a unique column but the serial number,
so nothing keeps a row from being inserted twice.

Several explorers, each for one network, may share the tables. A row names its network, but
`isBlockAvailableInDB` does not ask for it.
-/

set_option autoImplicit false
set_option relaxedAutoImplicit false

namespace StudentStatus.Explorer

/-! ### Blocks -/

/-- The name and the version of the chaincode in the first action of a transaction. -/
structure ChaincodeId where
  name : String
  version : String
  deriving DecidableEq

/-- A transaction of a block: what the header names, the chaincode when it has actions, its JSON
text, and what else its row holds, `none` when computing that throws. -/
structure TxObj (δ : Type) where
  channelId : String
  txId : String
  typeString : String
  chaincode : Option ChaincodeId
  txStr : String
  details : Option δ

/-- A block of a channel. The details are the columns of its row that nothing looks up. -/
structure Block (δ : Type) where
  number : ℕ
  dataHash : String
  previousHash : String
  data : List (TxObj δ)
  details : δ

/-! ### Tables -/

structure BlockRow (δ : Type) where
  blocknum : ℕ
  datahash : String
  prehash : String
  txcount : ℕ
  channelGenesisHash : String
  networkName : String
  details : δ

structure TransactionRow (δ : Type) where
  blockid : ℕ
  txhash : String
  chaincodename : String
  type : String
  channelGenesisHash : String
  networkName : String
  details : δ

structure ChannelRow where
  name : String
  blocks : ℕ
  trans : ℕ
  channelGenesisHash : String
  networkName : String

structure ChaincodeRow where
  name : String
  version : String
  txcount : ℕ
  channelGenesisHash : String
  networkName : String

/-- The tables, with the rows inserted last first. -/
structure Database (δ : Type) where
  blocks : List (BlockRow δ)
  transactions : List (TransactionRow δ)
  channel : List ChannelRow
  chaincodes : List ChaincodeRow

def Database.empty {δ : Type} : Database δ := ⟨[], [], [], []⟩

/-! ### Queries -/

variable {δ : Type}

inductive Query (δ : Type) : Type
  | countBlocks (networkName : String) (block : BlockRow δ)
  | saveBlockRow (block : BlockRow δ)
  | incrementBlocks (channelGenesisHash networkName : String)
  | countTransactions (networkName : String) (transaction : TransactionRow δ)
  | saveTransactionRow (transaction : TransactionRow δ)
  | incrementTxcount (channelGenesisHash networkName name : String) (version : Option String)
  | incrementTrans (channelGenesisHash networkName : String)
  | isBlockAvailableInDB (channelGenesisHash : Option String) (blockHeight : ℕ)
  | findMissingBlockNumber (networkName : String) (channelGenesisHash : Option String)
      (maxHeight : ℤ)

@[reducible] def Query.Result : Query δ → Type
  | .countBlocks _ _ | .countTransactions _ _ => ℕ
  | .isBlockAvailableInDB _ _ => Bool
  | .findMissingBlockNumber _ _ _ => List ℕ
  | _ => Unit

namespace Database

variable (db : Database δ)

/-- The rows that `saveBlock` counts. -/
def sameBlocks (networkName : String) (block : BlockRow δ) : List (BlockRow δ) :=
  db.blocks.filter fun row ↦ row.blocknum = block.blocknum ∧ row.txcount = block.txcount ∧
    row.channelGenesisHash = block.channelGenesisHash ∧ row.networkName = networkName ∧
    row.prehash = block.prehash ∧ row.datahash = block.datahash

/-- The rows that `saveTransaction` counts. -/
def sameTransactions (networkName : String) (transaction : TransactionRow δ) :
    List (TransactionRow δ) :=
  db.transactions.filter fun row ↦ row.blockid = transaction.blockid ∧
    row.txhash = transaction.txhash ∧
    row.channelGenesisHash = transaction.channelGenesisHash ∧ row.networkName = networkName

/-- The numbers up to a height without a block of the channel in the network. A hash that is not
known is a `NULL`, which equals nothing. -/
def missing (networkName : String) (channelGenesisHash : Option String) (maxHeight : ℤ) : List ℕ :=
  (List.range (maxHeight + 1).toNat).filter fun id ↦ ¬ ∃ row ∈ db.blocks, row.blocknum = id ∧
    some row.channelGenesisHash = channelGenesisHash ∧ row.networkName = networkName

end Database

/-- What a query returns, and the tables that it leaves. -/
def Query.run : (query : Query δ) → Database δ → query.Result × Database δ
  | .countBlocks networkName block, db => ((db.sameBlocks networkName block).length, db)
  | .saveBlockRow block, db => ((), { db with blocks := block :: db.blocks })
  | .incrementBlocks channelGenesisHash networkName, db =>
    ((), { db with channel := db.channel.map fun row ↦
      if row.channelGenesisHash = channelGenesisHash ∧ row.networkName = networkName then
        { row with blocks := row.blocks + 1 }
      else row })
  | .countTransactions networkName transaction, db =>
    ((db.sameTransactions networkName transaction).length, db)
  | .saveTransactionRow transaction, db =>
    ((), { db with transactions := transaction :: db.transactions })
  | .incrementTxcount channelGenesisHash networkName name version, db =>
    ((), { db with chaincodes := db.chaincodes.map fun row ↦
      if row.channelGenesisHash = channelGenesisHash ∧ row.networkName = networkName ∧
          row.name = name ∧ some row.version = version then
        { row with txcount := row.txcount + 1 }
      else row })
  | .incrementTrans channelGenesisHash networkName, db =>
    ((), { db with channel := db.channel.map fun row ↦
      if row.channelGenesisHash = channelGenesisHash ∧ row.networkName = networkName then
        { row with trans := row.trans + 1 }
      else row })
  | .isBlockAvailableInDB channelGenesisHash blockHeight, db =>
    (db.blocks.any fun row ↦
      some row.channelGenesisHash = channelGenesisHash ∧ row.blocknum = blockHeight, db)
  | .findMissingBlockNumber networkName channelGenesisHash maxHeight, db =>
    (db.missing networkName channelGenesisHash maxHeight, db)

/-- `isValidRow`: the count is zero. -/
def isValidRow (c : ℕ) : Bool := c = 0

end StudentStatus.Explorer
