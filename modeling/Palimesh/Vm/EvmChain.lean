import Palimesh.Chain.TxIndex
import Palimesh.Collections.Positional
import Palimesh.Vm.StateManager

set_option linter.unusedSectionVars false

namespace Palimesh.Vm

open Collections State Protocol Chain Engine

inductive Hardfork
  | shanghai
  | cancun
  | prague
deriving DecidableEq

def Hardfork.gteCancun : Hardfork → Bool
  | .shanghai => false
  | .cancun | .prague => true

structure HardforkScheduleEntry where
  blockNumber : Int
  hardfork : Hardfork

structure PrefundAccount where
  address : Hex
  balanceWei : Nat

structure Common where
  chainId : Option Nat
  hardfork : Hardfork
deriving DecidableEq

structure VmOpts where
  common : Common
  customPrecompiles : List Hex
deriving DecidableEq

structure Transaction where
  hash : Hex
  type : Nat
  sender : Hex
  recipient : Option Hex
  nonce : Nat
  gasLimit : Nat
  gasPrice : Option Nat
  maxFeePerGas : Option Nat
  maxPriorityFeePerGas : Option Nat
  value : Nat
  data : Bytes
deriving DecidableEq

structure Header where
  number : Int
  timestamp : Int
  baseFeePerGas : Int
  gasLimit : Nat
  coinbase : Hex
  excessBlobGas : Option Int
  parentBeaconBlockRoot : Option Bytes
deriving DecidableEq

structure RunTxOpts where
  tx : Transaction
  block : Header
  skipNonce : Bool
  skipBalance : Bool

structure RunTxResult where
  totalGasSpent : Nat
  exceptionError : Option String
  logs : List EvmLog
  bloom : Option Hex
  createdAddress : Option Hex

structure CallMessage where
  caller : Hex
  recipient : Option Hex
  data : Bytes
  value : Int
  gasLimit : Int
  block : Header

structure CallResult where
  returnValue : Hex
  gasUsed : Int
  exceptionError : Option String

/-- The libraries under the chain. What `runTx` and `runCall` do with the state manager is up to them. -/
structure Library (ρ : Type) where
  hexToBytes : Hex → Except String Bytes
  createTxFromRLP : Common → Hex → Except String Transaction
  runTx : VmOpts → RunTxOpts → Run ρ RunTxResult
  runCall : VmOpts → CallMessage → Run ρ CallResult

structure CallContext where
  blockNumber : Option Int := none
  baseFeePerGas : Option Int := none
  excessBlobGas : Option Int := none
  parentBeaconBlockRoot : Option Bytes := none
  timestamp : Option Int := none
  coinbase : Option Hex := none

structure EvmChain where
  chainId : Nat
  hardfork : Hardfork
  hardforkSchedule : List HardforkScheduleEntry
  customPrecompiles : List Hex
  blockNumber : Int
  prefundAccounts : List PrefundAccount

structure ReceiptLog where
  address : Hex
  topics : List Hex
  data : Hex
  blockNumber : Int
  transactionHash : Hex
  transactionIndex : Nat
  logIndex : Nat
deriving DecidableEq

structure TxReceipt where
  transactionHash : Hex
  blockNumber : Int
  blockHash : Hex
  transactionIndex : Nat
  cumulativeGasUsed : Nat
  gasUsed : Nat
  status : Bool
  logsBloom : Hex
  logs : List ReceiptLog
  effectiveGasPrice : Int
  contractAddress : Option Hex
  sender : Hex
  recipient : Option Hex
  type : Nat
deriving DecidableEq

structure BlockExecutionResult where
  txHash : Hex
  gasUsed : Nat
  success : Bool
  receipt : TxReceipt
  sender : Hex
  recipient : Option Hex
  contractAddress : Option Hex
deriving DecidableEq

def zeroAddress : Hex := "0x0000000000000000000000000000000000000000"

def beaconRootsAddress : Hex := "0x000f3df6d732807ef1319fb7b8bb8522d0beac02"

def beaconRootsRuntimeCode : Hex :=
  "0x3373fffffffffffffffffffffffffffffffffffffffe14604d57602036146024575f5ffd5b5f35801560495762001fff810690815414603c575f5ffd5b62001fff01545f5260205ff35b5f5ffd5b62001fff42064281555f359062001fff015500"

def zeroBeaconRoot : Bytes := List.replicate 32 0

def historicalRootsLength : Int := 8191

def kzgPrecompileAddress : Hex := "0x000000000000000000000000000000000000000a"

def paliCustomPrecompiles : List Hex := [kzgPrecompileAddress]

def emptyBloom : Hex := String.ofList ('0' :: 'x' :: List.replicate 512 '0')

def defaultGasLimit : Nat := 0xffffffffffffff

def bigIntToBytes (n : Nat) : Bytes := (Positional.digits 256 (n.log2 / 8 + 1) n).map UInt8.ofNat

def slotHex (n : Nat) : Hex :=
  String.ofList ('0' :: 'x' :: (Positional.digits 16 64 n).map Nat.digitChar)

def Transaction.effectiveGasPrice (tx : Transaction) (baseFeePerGas : Int) : Int :=
  match tx.gasPrice with
  | some gasPrice => gasPrice
  | none =>
    let maxFee : Int := tx.maxFeePerGas.getD 0
    let maxPriority : Int := tx.maxPriorityFeePerGas.getD 0
    baseFeePerGas + if baseFeePerGas < maxFee then min maxPriority (maxFee - baseFeePerGas) else 0

namespace EvmChain

def create (chainId : Nat) (hardfork : Option Hardfork) (hardforkSchedule : List HardforkScheduleEntry) : EvmChain where
  chainId := chainId
  hardfork := hardfork.getD .shanghai
  hardforkSchedule := hardforkSchedule.insertionSort fun left right => left.blockNumber ≤ right.blockNumber
  customPrecompiles := paliCustomPrecompiles
  blockNumber := 0
  prefundAccounts := []

section

variable (chain : EvmChain)

def createDryRunChain : EvmChain := create chain.chainId (some chain.hardfork) chain.hardforkSchedule

variable (blockNumber : Option Int)

def resolveHardfork : Hardfork :=
  let effectiveBlockNumber := blockNumber.getD chain.blockNumber
  let passed := chain.hardforkSchedule.takeWhile fun entry => decide (entry.blockNumber ≤ effectiveBlockNumber)
  (passed.getLast?.map HardforkScheduleEntry.hardfork).getD chain.hardfork

def createExecutionCommon : Common :=
  ⟨some chain.chainId, chain.resolveHardfork blockNumber⟩

def vm : VmOpts :=
  ⟨chain.createExecutionCommon blockNumber, chain.customPrecompiles⟩

def createVm : VmOpts :=
  ⟨chain.createExecutionCommon blockNumber, paliCustomPrecompiles⟩

end

def createExecutionBlock (common : Common) (context : CallContext) : Header where
  number := context.blockNumber.getD 0
  timestamp := context.timestamp.getD 0
  baseFeePerGas := context.baseFeePerGas.getD 0
  gasLimit := defaultGasLimit
  coinbase := (context.coinbase.filter isAddress).getD zeroAddress
  excessBlobGas := if common.hardfork.gteCancun then context.excessBlobGas else none
  parentBeaconBlockRoot :=
    if common.hardfork.gteCancun then some (context.parentBeaconBlockRoot.getD zeroBeaconRoot) else none

variable {ρ τ : Type} [DecidableEq ρ] [DecidableEq τ] (lib : Library ρ) (H : Hashes ρ τ)

def ensureBeaconRootsContract : Run ρ Unit :=
  .ask (.getCode beaconRootsAddress) fun (existingCode : Bytes) =>
    if existingCode ≠ [] then .done (.ok ())
    else .ask (.getAccount beaconRootsAddress) fun (existingAccount : Option (AccountState ρ)) =>
      .ask (.putAccount beaconRootsAddress (some (existingAccount.getD (accountData H 1 0)))) fun _ =>
        match lib.hexToBytes beaconRootsRuntimeCode with
        | .error message => .done (.error message)
        | .ok code => .ask (.putCode beaconRootsAddress code) fun _ => .done (.ok ())

def applyParentBeaconBlockRoot (timestamp : Int) (parentBeaconBlockRoot : Bytes) : Run ρ Unit :=
  .ask (.getCode beaconRootsAddress) fun (code : Bytes) =>
    if code = [] then .done (.ok ())
    -- A negative number has no bytes.
    else if timestamp < 0 then .done (.error "Cannot convert a negative bigint to bytes")
    else
      let timestampIndex := timestamp % historicalRootsLength
      .ask (.putStorage beaconRootsAddress (slotHex timestampIndex.toNat) (bigIntToBytes timestamp.toNat)) fun _ =>
        .ask (.putStorage beaconRootsAddress (slotHex (timestampIndex + historicalRootsLength).toNat)
          parentBeaconBlockRoot) fun _ => .done (.ok ())

def prepareVmForExecution (common : Common) (context : CallContext) : Run ρ Unit :=
  if common.hardfork.gteCancun then
    (ensureBeaconRootsContract lib H).andThen fun _ =>
      applyParentBeaconBlockRoot (context.timestamp.getD 0) (context.parentBeaconBlockRoot.getD zeroBeaconRoot)
  else .done (.ok ())

variable (chain : EvmChain) (context : Chain.ExecutionContext) (call : TxCall) (tx : Transaction)

def contextFields (parentBeaconBlockRoot : Option Bytes) : CallContext where
  blockNumber := some context.blockNumber
  baseFeePerGas := some context.baseFeePerGas
  excessBlobGas := context.excessBlobGas
  parentBeaconBlockRoot := parentBeaconBlockRoot
  timestamp := some context.timestamp
  coinbase := context.coinbase

/-- The engine's context; the beacon root is decoded before the call. -/
def callContext : Except String CallContext :=
  match context.parentBeaconBlockRoot with
  | none => .ok (contextFields context none)
  | some root => (lib.hexToBytes root).map fun bytes => contextFields context (some bytes)

def applyBlockContext : Run ρ Unit :=
  match callContext lib context with
  | .error message => .done (.error message)
  | .ok context => prepareVmForExecution lib H (chain.createExecutionCommon context.blockNumber) context

def receiptLogs (txHash : Hex) (logs : List EvmLog) : List ReceiptLog :=
  logs.zipIdx.map fun (entry, logIdx) =>
    ⟨entry.address, entry.topics, entry.data, call.blockNumber, txHash, call.txIndex, logIdx⟩

def blockResult (gasUsed : Nat) (exceptionError : Option String)
    (logs : List EvmLog) (logsBloom : Hex) (contractAddress : Option Hex) : BlockExecutionResult :=
  let sender := call.sender.getD tx.sender
  { txHash := tx.hash
    gasUsed := gasUsed
    success := exceptionError.isNone
    receipt :=
      { transactionHash := tx.hash
        blockNumber := call.blockNumber
        blockHash := call.blockHash
        transactionIndex := call.txIndex
        cumulativeGasUsed := gasUsed
        gasUsed := gasUsed
        status := exceptionError.isNone
        logsBloom := logsBloom
        logs := receiptLogs call tx.hash logs
        effectiveGasPrice := tx.effectiveGasPrice call.baseFee
        contractAddress := contractAddress
        sender := sender
        recipient := tx.recipient
        type := tx.type }
    sender := sender
    recipient := tx.recipient
    contractAddress := contractAddress }

def runTxResult (result : RunTxResult) : BlockExecutionResult :=
  blockResult call tx result.totalGasSpent result.exceptionError result.logs (result.bloom.getD emptyBloom)
    (result.createdAddress.map toLowerCase)

def parseTx (blockNumber : Int) (raw : Hex) : Except String Transaction :=
  match lib.createTxFromRLP (chain.createExecutionCommon (some blockNumber)) raw with
  | .error message => .error message
  | .ok tx => if tx.type = 3 then .error "blob transactions (type 3) are not supported" else .ok tx

def runTxInBlock : Run ρ BlockExecutionResult :=
  match callContext lib call.context with
  | .error message => .done (.error message)
  | .ok context =>
    let block := createExecutionBlock (chain.createExecutionCommon (some call.blockNumber)) context
    (lib.runTx (chain.vm (some call.blockNumber)) ⟨tx, block, call.trustBlock, call.trustBlock⟩).mapOk
      (runTxResult call tx)

def executeRawTxInBlock : Run ρ BlockExecutionResult :=
  match parseTx lib chain call.blockNumber call.raw with
  | .error message => .done (.error message)
  | .ok tx => runTxInBlock lib chain call tx

section

variable {lib} {chain : EvmChain} {call : TxCall} {tx : Transaction} {context : CallContext}

variable (call) in
theorem executeRawTxInBlock_eq (parsed : parseTx lib chain call.blockNumber call.raw = .ok tx)
    (decoded : callContext lib call.context = .ok context) : executeRawTxInBlock lib chain call =
      (lib.runTx (chain.vm (some call.blockNumber))
        ⟨tx, createExecutionBlock (chain.createExecutionCommon (some call.blockNumber)) context, call.trustBlock,
          call.trustBlock⟩).mapOk (runTxResult call tx) := by
  unfold executeRawTxInBlock runTxInBlock
  rw [parsed]
  rw [decoded]

theorem executeRawTxInBlock_ok {σ : Type} {h : Handler (requests ρ) σ} {s s' : σ} {result : BlockExecutionResult}
    (ran : (executeRawTxInBlock lib chain call).run h s = (.ok result, s')) :
    ∃ tx context, parseTx lib chain call.blockNumber call.raw = .ok tx ∧ callContext lib call.context = .ok context := by
  unfold executeRawTxInBlock runTxInBlock at ran
  cases parsed : parseTx lib chain call.blockNumber call.raw with
  | error message =>
    rw [parsed] at ran
    cases ran
  | ok tx =>
    rw [parsed] at ran
    cases decoded : callContext lib call.context with
    | error message =>
      rw [decoded] at ran
      cases ran
    | ok context => exact ⟨tx, context, rfl, rfl⟩

end

def creditBalance (address : Hex) (amount : Int) : Run ρ Unit :=
  if amount ≤ 0 then .done (.ok ())
  else if isAddress address then
    .ask (.getAccount (toLowerCase address)) fun (existing : Option (AccountState ρ)) =>
      let account := existing.getD (accountData H 0 0)
      .ask (.putAccount (toLowerCase address) (some { account with balance := account.balance + amount.toNat })) fun _ =>
        .done (.ok ())
  else .done (.error ("Invalid address input=" ++ address))

def prefund : List PrefundAccount → Run ρ Unit
  | [] => .done (.ok ())
  | acc :: rest =>
    if isAddress acc.address then
      .ask (.putAccount (toLowerCase acc.address) (some (accountData H 0 acc.balanceWei))) fun _ =>
        -- What is read back is only logged.
        .ask (.getAccount (toLowerCase acc.address)) fun _ => prefund rest
    else .done (.error ("Invalid address input=" ++ acc.address))

/-- The virtual machine is made anew, without the custom precompiles. -/
def resetExecution (chain : EvmChain) (s : PersistentStateTrie ρ τ) : Except String EvmChain × PersistentStateTrie ρ τ :=
  -- A trie without a root answers 32 zero bytes, which is not the root of the empty trie either.
  let trieIsEmpty := s.stateRoot = some (H.accounts.hash ∅)
  let funded := if trieIsEmpty then (prefund H chain.prefundAccounts).run (manager H) s else (.ok (), s)
  (funded.1.map fun _ => { chain with customPrecompiles := [], blockNumber := 0 }, funded.2)

/-- The path of a replay: the machine is prepared again, no check is skipped. -/
def executeRawTx (chain : EvmChain) (context : Chain.ExecutionContext) (raw : Hex) : Run ρ TxResult :=
  match callContext lib context with
  | .error message => .done (.error message)
  | .ok fields =>
    let blockCommon := chain.createExecutionCommon (some context.blockNumber)
    (prepareVmForExecution lib H blockCommon fields).andThen fun _ =>
      match parseTx lib chain context.blockNumber raw with
      | .error message => .done (.error message)
      | .ok tx =>
        (lib.runTx (chain.vm (some context.blockNumber))
          ⟨tx, createExecutionBlock blockCommon fields, false, false⟩).mapOk fun result => ⟨tx.hash, result.totalGasSpent⟩

def evm (chain : EvmChain) : Evm ρ τ where
  applyBlockContext context := execution H (applyBlockContext lib H chain context)
  executeRawTxInBlock call := execution H
    ((executeRawTxInBlock lib chain call).mapOk fun result => ⟨result.txHash, result.gasUsed⟩)
  creditBalance address amount := execution H (creditBalance H address amount)

end EvmChain

variable {ρ τ α : Type} [DecidableEq ρ] [DecidableEq τ]

def withVm (base : Platform ρ τ) (lib : Library ρ) (chain : EvmChain) : Platform ρ τ :=
  { base with evm := chain.evm lib base.H }

theorem perform_withVm (base : Platform ρ τ) (lib : Library ρ) (chain : EvmChain) (p : Run ρ α)
    (s : PersistentStateTrie ρ τ) : perform (withVm base lib chain) s (execution base.H p s) =
      ((p.run (manager base.H) s).1.mapError .thrown, (p.run (manager base.H) s).2) :=
  perform_execution rfl p s

namespace EvmChain

/-- The chain as `create` left it, but for the height it is at and the accounts it was given. -/
def Created (chain : EvmChain) : Prop :=
  ∃ chainId hardfork hardforkSchedule blockNumber prefundAccounts, chain =
    { create chainId hardfork hardforkSchedule with blockNumber := blockNumber, prefundAccounts := prefundAccounts }

variable {lib : Library ρ} {chain chain' : EvmChain}

theorem createDryRunChain_vm (created : chain.Created) (n : Int) : chain.createDryRunChain.vm (some n) = chain.vm (some n) := by
  obtain ⟨chainId, hardfork, schedule, blockNumber, prefundAccounts, rfl⟩ := created
  have sorted := List.pairwise_insertionSort
    (fun left right : HardforkScheduleEntry => left.blockNumber ≤ right.blockNumber) schedule
  have resorted := sorted.insertionSort_eq
  unfold createDryRunChain vm createExecutionCommon resolveHardfork create
  rw [resorted]
  rfl

theorem callContext_blockNumber {context : Chain.ExecutionContext} {fields : CallContext}
    (decoded : callContext lib context = .ok fields) : fields.blockNumber = some context.blockNumber := by
  unfold callContext at decoded
  split at decoded
  · cases decoded
    rfl
  · rename_i root present
    cases bytes : lib.hexToBytes root with
    | error message =>
      rw [bytes] at decoded
      cases decoded
    | ok bytes' =>
      rw [bytes] at decoded
      cases decoded
      rfl

theorem common_of_vm (same : ∀ n : Int, chain.vm (some n) = chain'.vm (some n)) (n : Int) :
    chain.createExecutionCommon (some n) = chain'.createExecutionCommon (some n) :=
  congrArg VmOpts.common (same n)

theorem applyBlockContext_congr (H : Hashes ρ τ)
    (same : ∀ n : Int, chain.createExecutionCommon (some n) = chain'.createExecutionCommon (some n))
    (context : Chain.ExecutionContext) : applyBlockContext lib H chain context = applyBlockContext lib H chain' context := by
  unfold applyBlockContext
  cases decoded : callContext lib context with
  | error message => rfl
  | ok fields =>
    dsimp only
    rw [callContext_blockNumber decoded, same]

theorem executeRawTxInBlock_congr (same : ∀ n : Int, chain.vm (some n) = chain'.vm (some n)) (call : TxCall) :
    executeRawTxInBlock lib chain call = executeRawTxInBlock lib chain' call := by
  unfold executeRawTxInBlock parseTx runTxInBlock
  rw [same, common_of_vm same]

end EvmChain

section Engine

variable {base : Platform ρ τ} {lib : Library ρ} {chain : EvmChain} {s s' : PersistentStateTrie ρ τ}

def Executes (base : Platform ρ τ) (lib : Library ρ) (chain : EvmChain) (call : TxCall) (tx : Transaction)
    (context : CallContext) (s s' : PersistentStateTrie ρ τ) (outcome : RunTxResult) : Prop :=
  (lib.runTx (chain.vm (some call.blockNumber)) ⟨tx, EvmChain.createExecutionBlock
    (chain.createExecutionCommon (some call.blockNumber)) context, call.trustBlock, call.trustBlock⟩).run
      (manager base.H) s = (.ok outcome, s')

theorem executeRawTxInBlock_executes {call : TxCall} {result : BlockExecutionResult}
    (ran : (EvmChain.executeRawTxInBlock lib chain call).run (manager base.H) s = (.ok result, s')) :
    ∃ tx context outcome, EvmChain.parseTx lib chain call.blockNumber call.raw = .ok tx ∧
      EvmChain.callContext lib call.context = .ok context ∧ Executes base lib chain call tx context s s' outcome ∧
      result = EvmChain.runTxResult call tx outcome := by
  obtain ⟨tx, context, parsed, decoded⟩ := EvmChain.executeRawTxInBlock_ok ran
  rw [EvmChain.executeRawTxInBlock_eq call parsed decoded, Program.run_mapOk] at ran
  refine ⟨tx, context, ?_⟩
  unfold Executes
  generalize (lib.runTx (chain.vm (some call.blockNumber)) ⟨tx, EvmChain.createExecutionBlock
    (chain.createExecutionCommon (some call.blockNumber)) context, call.trustBlock, call.trustBlock⟩).run
      (manager base.H) s = executed at ran
  obtain ⟨outcome | outcome, after⟩ := executed
  · cases ran
  · cases ran
    exact ⟨outcome, parsed, decoded, rfl, rfl⟩

theorem performed_iff {txCall : TxCall} {result : TxResult} :
    perform (withVm base lib chain) s ((chain.evm lib base.H).executeRawTxInBlock txCall s) = (.ok result, s') ↔
      ∃ outcome, (EvmChain.executeRawTxInBlock lib chain txCall).run (manager base.H) s = (.ok outcome, s') ∧
        result = ⟨outcome.txHash, outcome.gasUsed⟩ := by
  change perform (withVm base lib chain) s (execution base.H _ s) = _ ↔ _
  rw [perform_withVm, Program.run_mapOk]
  generalize (EvmChain.executeRawTxInBlock lib chain txCall).run (manager base.H) s = ran
  obtain ⟨outcome | outcome, next⟩ := ran
  · constructor
    · intro failed
      cases failed
    · rintro ⟨_, failed, -⟩
      cases failed
  · constructor
    · intro performed
      cases performed
      exact ⟨outcome, rfl, rfl⟩
    · rintro ⟨_, ran, rfl⟩
      cases ran
      rfl

theorem performed_ok {call : TxCall} {result : TxResult}
    (performed : perform (withVm base lib chain) s ((chain.evm lib base.H).executeRawTxInBlock call s) =
      (.ok result, s')) :
    ∃ tx context outcome, EvmChain.parseTx lib chain call.blockNumber call.raw = .ok tx ∧
      EvmChain.callContext lib call.context = .ok context ∧ Executes base lib chain call tx context s s' outcome ∧
      result = ⟨tx.hash, outcome.totalGasSpent⟩ := by
  obtain ⟨outcome, ran, rfl⟩ := performed_iff.mp performed
  obtain ⟨tx, context, outcome, parsed, decoded, executes, rfl⟩ := executeRawTxInBlock_executes ran
  exact ⟨tx, context, outcome, parsed, decoded, executes, rfl⟩

theorem perform_of_executes (call : TxCall) {tx : Transaction} {context : CallContext} {outcome : RunTxResult}
    (parsed : EvmChain.parseTx lib chain call.blockNumber call.raw = .ok tx)
    (decoded : EvmChain.callContext lib call.context = .ok context)
    (executes : Executes base lib chain call tx context s s' outcome) :
    perform (withVm base lib chain) s ((chain.evm lib base.H).executeRawTxInBlock call s) =
      (.ok ⟨tx.hash, outcome.totalGasSpent⟩, s') := by
  change perform (withVm base lib chain) s (execution base.H _ s) = _
  rw [perform_withVm, Program.run_mapOk, EvmChain.executeRawTxInBlock_eq call parsed decoded, Program.run_mapOk,
    executes]
  rfl

end Engine

section Sample

def sampleTransaction (raw : Hex) : Transaction where
  hash := raw
  type := 0
  sender := "0x00000000000000000000000000000000000000ab"
  recipient := none
  nonce := raw.length - 4
  gasLimit := 21000
  gasPrice := some 0
  maxFeePerGas := none
  maxPriorityFeePerGas := none
  value := (raw.length - 4) / 3
  data := []

def sampleChain : EvmChain := EvmChain.create 1 none []

def txBlock (number : Int) (parentHash : Hex) (proposer : String) (timestampMs : Int) (txs : List Hex) : ChainBlock :=
  let payload : ChainBlock := { number, hash := "", parentHash, proposer, timestampMs, txs, finalized := false }
  { payload with hash := hashBlockPayload plainPlatform.host payload }

def transferBlock (txs : List Hex) : ChainBlock := txBlock 1 zeroHash "node-1" 1000 txs

def nextTransferBlock (txs later : List Hex) : ChainBlock := txBlock 2 (transferBlock txs).hash "node-2" 2000 later

end Sample

end Palimesh.Vm
