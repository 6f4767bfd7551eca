import Palimesh.Chain.Engine

namespace Palimesh.Chain

open Collections State

structure EvmLog where
  address : Hex
  topics : List Hex
  data : Hex
deriving DecidableEq

structure TransactionReceipt where
  transactionHash : Hex
  blockNumber : Int
  blockHash : Hex
  sender : Hex
  recipient : Option Hex
  contractAddress : Option Hex
  gasUsed : Int
  status : Int
  logs : List EvmLog
deriving DecidableEq

structure TxWithReceipt where
  rawTx : Hex
  receipt : TransactionReceipt
deriving DecidableEq

structure IndexedLog where
  address : Hex
  topics : List Hex
  data : Hex
  blockNumber : Int
  blockHash : Hex
  transactionHash : Hex
  transactionIndex : Nat
  logIndex : Nat
deriving DecidableEq

inductive TopicFilter
  | any
  | exactly (topic : Hex)
  | oneOf (topics : List Hex)

structure LogFilter where
  fromBlock : Option Int := none
  toBlock : Option Int := none
  address : Option Hex := none
  addresses : List Hex := []
  topics : List TopicFilter := []

structure AddressTxQuery where
  limit : Option Rat := none
  offset : Option Rat := none
  reverse : Option Bool := none

/-- A key `a:<address>:<number>:<hash>`. The number is padded, so keys of one address are in the order
    of the heights. -/
structure AddressKey where
  address : String
  blockNumber : Int
  txHash : String
deriving DecidableEq

def AddressKey.le (key other : AddressKey) : Bool :=
  key.blockNumber < other.blockNumber || (key.blockNumber == other.blockNumber && decide (key.txHash ≤ other.txHash))

/-- The key families `t:<hash>`, `a:…` and `l:<number>`. -/
structure TxIndex where
  txs : InsertionMap Hex TxWithReceipt
  addresses : InsertionMap AddressKey Hex
  logs : InsertionMap Int (List IndexedLog)

namespace TxIndex

def empty : TxIndex := ⟨.empty, .empty, .empty⟩

variable (index : TxIndex)

def putTransaction (txHash : Hex) (tx : TxWithReceipt) : TxIndex :=
  let indexed := [some tx.receipt.sender, tx.receipt.recipient, tx.receipt.contractAddress].filterMap truthy
  { index with
    txs := index.txs.set txHash tx
    addresses := indexed.foldl (fun rows address =>
      rows.set ⟨toLowerCase address, tx.receipt.blockNumber, toLowerCase txHash⟩ txHash) index.addresses }

def getTransactionByHash (hash : Hex) : Option TxWithReceipt := index.txs.get? hash

def putLogs (blockNumber : Int) (logs : List IndexedLog) : TxIndex :=
  if logs = [] then index else { index with logs := index.logs.set blockNumber logs }

def isTxHash (text : Hex) : Bool :=
  text.length ≤ 66 && match text.toList with
    | '0' :: 'x' :: digits => !digits.isEmpty && digits.all isHexChar
    | _ => false

def addressKeys (address : Hex) (reverse : Bool) : List AddressKey :=
  let keys := (index.addresses.keys.filter fun key => key.address = toLowerCase address).insertionSort
    fun key other => key.le other = true
  if reverse then keys.reverse else keys

def getTransactionsByAddress (address : Hex) (opts : AddressTxQuery) : List TxWithReceipt :=
  let offset := (max 0 (opts.offset.getD 0).floor).toNat
  let limit := (max 1 (min (opts.limit.getD 50).floor 10000)).toNat
  let fetchLimit := min (offset + limit) 110000
  let keys := (index.addressKeys address (opts.reverse.getD true)).take fetchLimit
  let paged := (keys.drop offset).take limit
  paged.filterMap fun key =>
    ((index.addresses.get? key).filter isTxHash).bind index.getTransactionByHash

def matchesTopic (actual : Option Hex) : TopicFilter → Bool
  | .any => true
  | .exactly expected => (truthy actual).any fun topic => toLowerCase topic == toLowerCase expected
  | .oneOf expected => (truthy actual).any fun topic =>
      expected.isEmpty || expected.any fun e => toLowerCase e == toLowerCase topic

def matchLogFilter (filter : LogFilter) (log : IndexedLog) : Bool :=
  ((truthy filter.address).all fun address => toLowerCase log.address == toLowerCase address) &&
    (filter.addresses.isEmpty || filter.addresses.any fun address => toLowerCase address == toLowerCase log.address) &&
    filter.topics.zipIdx.all fun slot => matchesTopic (log.topics[slot.2]?) slot.1

def maxLogBlockRange : Int := 10000

def maxLogResults : Nat := 10000

def getLogs (latest : Option ChainBlock) (filter : LogFilter) : List IndexedLog :=
  let first := filter.fromBlock.getD 0
  let last := filter.toBlock.getD ((latest.map ChainBlock.number).getD 0)
  if first < 0 ∨ last < 0 ∨ last < first then []
  else
    let effectiveTo := if maxLogBlockRange < last - first then first + maxLogBlockRange else last
    let heights := (List.range (effectiveTo - first + 1).toNat).map fun i : Nat => first + i
    (heights.flatMap fun n => ((index.logs.get? n).getD []).filter (matchLogFilter filter)).take maxLogResults

end TxIndex

structure TxOutcome where
  sender : Option Hex
  recipient : Option Hex
  transactionHash : Hex
  gasUsed : Int
  status : Option Int
  logs : List EvmLog

structure IndexedTx where
  raw : Hex
  txIndex : Nat
  txHash : Hex
  outcome : TxOutcome

namespace IndexedTx

def row (tx : IndexedTx) (block : ChainBlock) : TxWithReceipt where
  rawTx := tx.raw
  receipt :=
    { transactionHash := tx.outcome.transactionHash
      blockNumber := block.number
      blockHash := block.hash
      sender := tx.outcome.sender.getD "0x0"
      recipient := tx.outcome.recipient
      -- The engine passes no `contractAddress` on.
      contractAddress := none
      gasUsed := tx.outcome.gasUsed
      status := tx.outcome.status.getD 1
      logs := tx.outcome.logs }

def indexedLogs (tx : IndexedTx) (block : ChainBlock) : List IndexedLog :=
  tx.outcome.logs.zipIdx.map fun (log, logIndex) =>
    { address := log.address
      topics := log.topics
      data := log.data
      blockNumber := block.number
      blockHash := block.hash
      transactionHash := tx.txHash
      transactionIndex := tx.txIndex
      logIndex := logIndex }

end IndexedTx

def TxIndex.putBlockRows (index : TxIndex) (block : ChainBlock) (executed : List IndexedTx) : TxIndex :=
  (executed.foldl (fun index tx => index.putTransaction tx.txHash (tx.row block)) index).putLogs block.number
    (executed.flatMap fun tx => tx.indexedLogs block)

namespace Engine

variable {ρ τ : Type} [DecidableEq ρ] [DecidableEq τ] (p : Platform ρ τ)

def storedBlock (e : Engine ρ τ) (call : ApplyCall) (block : ChainBlock) (locallyProposed : Bool) : Option ChainBlock :=
  if e.applyingBlock = true ∨ (e.blockIndex.getBlockByHash block.hash).isSome = true then none
  else match e.validate p.host call.now block locallyProposed with
    | .error _ => none
    | .ok _ =>
      match executeBlock p e call block locallyProposed e.stateTrie.checkpoint.checkpoint with
      | (.error _, _) => none
      | (.ok totalGasUsed, s) =>
        match e.sealBlock block locallyProposed (p.rootHex (commitBlock p s).1) totalGasUsed, call.batchFails with
        | .ok storedBlock, none => some storedBlock
        | _, _ => none

section Stored

variable {p} {e : Engine ρ τ} {call : ApplyCall} {block : ChainBlock} {locallyProposed : Bool}

variable (fresh : e.blockIndex.getBlockByHash block.hash = none)
include fresh

variable (succeeds : (applyBlock p e call block locallyProposed).1 = .ok ())
include succeeds

theorem applyBlock_ok :
    ∃ total s stored, e.applyingBlock = false ∧ e.validate p.host call.now block locallyProposed = .ok () ∧
      executeBlock p e call block locallyProposed e.stateTrie.checkpoint.checkpoint = (.ok total, s) ∧
      e.sealBlock block locallyProposed (p.rootHex (commitBlock p s).1) total = .ok stored ∧ call.batchFails = none ∧
      (applyBlock p e call block locallyProposed).2 = ({ e with
        stateTrie := (commitBlock p s).2, blockIndex := e.blockIndex.putBlock stored }.updateFinalityFlags
          call.finalityFails).2 := by
  have applied := applyBlock_applied p e call block locallyProposed
  generalize applyBlock p e call block locallyProposed = outcome at applied succeeds
  cases applied with
  | reentrant busy => cases succeeds
  | duplicate idle found =>
    rw [fresh] at found
    cases found
  | rejected idle fresh invalid => cases succeeds
  | failed idle fresh valid executed => cases succeeds
  | @finished total s idle fresh valid executed =>
    unfold finishBlock at succeeds
    dsimp only at succeeds
    cases sealed : e.sealBlock block locallyProposed (p.rootHex (commitBlock p s).1) total with
    | error err =>
      rw [sealed] at succeeds
      cases succeeds
    | ok stored =>
      rw [sealed] at succeeds
      cases batch : call.batchFails with
      | some message =>
        rw [batch] at succeeds
        cases succeeds
      | none =>
        refine ⟨total, s, stored, idle, valid, executed, sealed, rfl, ?_⟩
        unfold finishBlock
        dsimp only
        rw [sealed]
        rw [batch]

theorem storedBlock_of_ok :
    ∃ total s stored, executeBlock p e call block locallyProposed e.stateTrie.checkpoint.checkpoint = (.ok total, s) ∧
      e.storedBlock p call block locallyProposed = some stored ∧
      stored.stateRoot = some (p.rootHex (commitBlock p s).1) := by
  obtain ⟨total, s, stored, idle, valid, executed, sealed, batch, -⟩ := applyBlock_ok fresh succeeds
  refine ⟨total, s, stored, executed, ?_, ?_⟩
  · unfold storedBlock
    rw [if_neg (by simp [idle, fresh]), valid, executed]
    dsimp only
    rw [sealed, batch]
  · obtain ⟨stateRootSig, rfl⟩ := sealBlock_eq sealed
    rfl

end Stored

variable (outcomeOf : TxCall → PersistentStateTrie ρ τ → TxOutcome)

def executedTxs (e : Engine ρ τ) (call : ApplyCall) (block : ChainBlock) (locallyProposed : Bool) :
    Nat → List Hex → PersistentStateTrie ρ τ → List IndexedTx
  | _, [], _ => []
  | i, raw :: rest, s =>
    let txCall := e.txCall call block locallyProposed i raw
    match perform p s (p.evm.executeRawTxInBlock txCall s) with
    | (.error _, _) => []
    | (.ok result, next) =>
      ⟨raw, i, result.txHash, outcomeOf txCall s⟩ :: executedTxs e call block locallyProposed (i + 1) rest next

def blockTxs (e : Engine ρ τ) (call : ApplyCall) (block : ChainBlock) (locallyProposed : Bool) : List IndexedTx :=
  let s := e.stateTrie.checkpoint.checkpoint
  e.executedTxs p outcomeOf call block locallyProposed 0 block.txs
    (perform p s (p.evm.applyBlockContext (e.blockContext block) s)).2

end Engine

structure IndexedEngine (ρ τ : Type) where
  engine : Engine ρ τ
  index : TxIndex

namespace IndexedEngine

variable {ρ τ : Type} [DecidableEq ρ] [DecidableEq τ] (p : Platform ρ τ)
  (outcomeOf : TxCall → PersistentStateTrie ρ τ → TxOutcome)

def applyBlock (x : IndexedEngine ρ τ) (call : ApplyCall) (block : ChainBlock) (locallyProposed : Bool) :
    Except ApplyError Unit × IndexedEngine ρ τ :=
  let applied := Engine.applyBlock p x.engine call block locallyProposed
  let index := match x.engine.storedBlock p call block locallyProposed with
    | none => x.index
    | some _ => x.index.putBlockRows block (x.engine.blockTxs p outcomeOf call block locallyProposed)
  (applied.1, ⟨applied.2, index⟩)

def getLogs (x : IndexedEngine ρ τ) (filter : LogFilter) : List IndexedLog := x.index.getLogs x.engine.getTip filter

end IndexedEngine

end Palimesh.Chain
