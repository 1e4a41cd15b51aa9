import Mathlib.Logic.Function.Basic
import StudentStatus.Explorer.SyncService

/-!
# The explorer as a system

The tasks of one explorer with what they share: the ledgers of its peer, the database, the memory of
the process, and the notifications sent. The keys in `blocksInProcess` stand with the task that
pushed them, which the code does not record.

A call is answered in the process that the task belongs to. What depends on the database or the peer
may fail, unless the deployment is reliable. Meanwhile ledgers grow, channels are discovered, and
explorers of other networks write to the tables.
-/

set_option autoImplicit false
set_option relaxedAutoImplicit false

namespace StudentStatus.Explorer

open Interaction

/-- What a task does: the listener on one block of a channel, or a look for blocks that lack. -/
inductive Task : Type
  | event (channelName : String) (number : ℕ)
  | sync (channelName : String) (noDiscovery : Bool)

structure SyncState (δ : Type) where
  ledger : String → List (Block δ)
  database : Database δ
  process : ℕ
  channelsGenHash : String → Option String
  blocksInProcess : List (String × Tag)
  synchInProcess : List String
  sent : List (Notification δ)

/-- An explorer that has just been installed. -/
def SyncState.initial {δ : Type} : SyncState δ where
  ledger _ := []
  database := .empty
  process := 0
  channelsGenHash _ := none
  blocksInProcess := []
  synchInProcess := []
  sent := []

/-- What the source leaves to its environment: the network, the configuration, SHA-256, the hashes
of the genesis blocks, the tasks by their tags, and whether calls may fail. -/
structure Deployment where
  networkId : String
  bootMode : String
  noOfBlocks : Option ℤ
  sha256 : String → String
  genesisHash : String → String
  /-- Two channels have different genesis blocks. -/
  genesisHash_injective : Function.Injective genesisHash
  tasks : Tag → Task
  /-- No call fails, and no block has a transaction whose row throws. -/
  reliable : Prop

/-- `includes` of the keys in `blocksInProcess`. -/
def SyncState.includesBlock {δ : Type} (state : SyncState δ) (blockProKey : String) : Bool :=
  state.blocksInProcess.any fun entry ↦ entry.1 = blockProKey

/-- `splice(index, 1)` at the first index of the key. Where there is none the index is -1, which
takes off the last element. -/
def spliceKey {α : Type} (keyOf : α → String) (key : String) (entries : List α) : List α :=
  if entries.any fun entry ↦ keyOf entry = key then entries.eraseP fun entry ↦ keyOf entry = key
  else entries.dropLast

/-- What the call returns when it fails. -/
def SyncCall.Fails {δ : Type} : (request : SyncCall δ) → SyncReply request → Prop
  | .queryChainInfo _, reply => reply = none
  | .queryBlock _ _, reply => reply = none
  | .query _, reply => ∃ err, reply = .error err
  | _, _ => False

/-- What a call returns that does not fail, and the state that it leaves. -/
def respond {δ : Type} (tag : Tag) :
    (request : SyncCall δ) → SyncState δ → SyncReply request × SyncState δ
  | .receive channelName number, state => ((state.ledger channelName)[number]?, state)
  | .getChannelGenHash channelName, state => (state.channelsGenHash channelName, state)
  | .pushBlock blockProKey, state =>
    if state.includesBlock blockProKey then (false, state)
    else (true, { state with
      blocksInProcess := state.blocksInProcess ++ [(blockProKey, tag)] })
  | .spliceBlock blockProKey, state =>
    ((), { state with blocksInProcess := spliceKey Prod.fst blockProKey state.blocksInProcess })
  | .includesSynch synchKey, state => (decide (synchKey ∈ state.synchInProcess), state)
  | .spliceSynch synchKey, state =>
    ((), { state with synchInProcess := spliceKey id synchKey state.synchInProcess })
  | .queryChainInfo channelName, state => (some (state.ledger channelName).length, state)
  | .queryBlock channelName blockNum, state => ((state.ledger channelName)[blockNum]?, state)
  | .query query, state =>
    (.ok (query.run state.database).1, { state with database := (query.run state.database).2 })
  | .send notify, state => ((), { state with sent := notify :: state.sent })
  | .setTimeout _, state => ((), state)

namespace Deployment

variable (deployment : Deployment) {δ : Type}

/-- The answers to a call of a task, and the state that each leaves. -/
inductive Answers (tag : Tag) :
    (request : SyncCall δ) → SyncState δ → SyncReply request → SyncState δ → Prop
  | answered {state : SyncState δ} (request : SyncCall δ) :
      Answers tag request state (respond tag request state).1 (respond tag request state).2
  | failed {state : SyncState δ} {request : SyncCall δ} {reply : SyncReply request}
      (hunreliable : ¬ deployment.reliable) (hfails : request.Fails reply) :
      Answers tag request state reply state
  | unanswered {state : SyncState δ} {request : SyncCall δ} {reply : SyncReply request}
      (hunreliable : ¬ deployment.reliable) (hfails : request.Fails reply) :
      Answers tag request state reply (respond tag request state).2

/-- The hash of a channel becomes known. -/
def discovered (channelName : String) (state : SyncState δ) : SyncState δ :=
  { state with
    channelsGenHash := Function.update state.channelsGenHash channelName
      (some (deployment.genesisHash channelName)) }

/-- What happens without the tasks: a block is appended to a ledger, a channel is discovered, and
others write to the tables. -/
inductive Drift : SyncState δ → SyncState δ → Prop
  | append {state : SyncState δ} (channelName : String) (block : Block δ)
      (hnumber : block.number = (state.ledger channelName).length)
      (hchannel : ∃ header rest, block.data = header :: rest ∧ header.channelId = channelName)
      (hdetails : deployment.reliable → ∀ txObj ∈ block.data, txObj.details.isSome) :
      Drift state { state with
        ledger := Function.update state.ledger channelName
          (state.ledger channelName ++ [block]) }
  | discover {state : SyncState δ} (channelName : String) :
      Drift state (deployment.discovered channelName state)
  | others {state : SyncState δ} (blocks : List (BlockRow δ))
      (transactions : List (TransactionRow δ)) (channel : List ChannelRow)
      (chaincodes : List ChaincodeRow)
      (hblocks : ∀ row ∈ blocks, row.networkName ≠ deployment.networkId)
      (htransactions : ∀ row ∈ transactions, row.networkName ≠ deployment.networkId) :
      Drift state { state with
        database := ⟨blocks ++ state.database.blocks, transactions ++ state.database.transactions,
          channel, chaincodes⟩ }

/-- The program of a task. -/
def run : Task → SyncProgram δ Unit
  | .event channelName number =>
    blockListener deployment.networkId deployment.sha256 channelName number
  | .sync channelName noDiscovery =>
    syncBlocks deployment.networkId deployment.sha256 deployment.bootMode deployment.noOfBlocks
      channelName noDiscovery

/-- What a restart leaves: the next process, with an empty memory. -/
def restarted (state : SyncState δ) : SyncState δ :=
  { state with
    process := state.process + 1, channelsGenHash := fun _ ↦ none
    blocksInProcess := [], synchInProcess := [] }

/-- The explorer as a system of tasks. -/
def explorer (δ : Type) : System Tag (SyncCall δ) SyncReply SyncError Unit (SyncState δ) where
  body tag := deployment.run (deployment.tasks tag)
  answers tag request state reply after :=
    tag.process = state.process ∧ deployment.Answers tag request state reply after
  start state := state = .initial
  drift := deployment.Drift
  restart state next := next = restarted state

end Deployment

end StudentStatus.Explorer
