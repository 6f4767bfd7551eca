import Palimesh.Chain.BaseFee
import Palimesh.Collections.BoundedSet

namespace Palimesh.Chain

open Collections

structure TxReceipt where
  transactionHash : Hex
  gasUsed : Int
deriving DecidableEq

structure ExecutedTx where
  txHash : Hex
  receipt : Option TxReceipt

/-- The virtual machine of the memory engine on a state of any kind, and the state trie's commit where
    one is configured. -/
structure MemoryEvm (σ : Type) where
  applyBlockContext : ExecutionContext → σ → Except String Unit × σ
  executeRawTxInBlock : TxCall → σ → Except String ExecutedTx × σ
  checkpointState : σ → σ
  commitState : σ → σ
  revertState : σ → σ
  commitTrie : Option (σ → Except String Hex × σ)
  resetExecution : σ → Except String Unit × σ

def txHashCapacity : Nat := 500000

structure MemoryEngine (σ : Type) where
  cfg : ChainConfig
  blocks : List ChainBlock
  blockByNumber : InsertionMap Int ChainBlock
  blockByHash : InsertionMap Hex ChainBlock
  receiptsByBlock : InsertionMap Int (List TxReceipt)
  txHashSet : BoundedSet Hex txHashCapacity
  state : σ
  validatorAddressMap : InsertionMap String String
  nodeSigner : Option NodeSigner
  signatureVerifier : Option Verifier
  applyingBlock : Bool

namespace MemoryEngine

variable {σ : Type}

section

variable (m : MemoryEngine σ)

def getTip : Option ChainBlock := m.blocks.getLast?

def getHeight : Int := (m.getTip.map ChainBlock.number).getD 0

def getBlockByHash (hash : Hex) : Option ChainBlock := m.blockByHash.get? hash

def resolveValidatorAddress (nodeId : String) : String :=
  (m.validatorAddressMap.get? nodeId).getD nodeId

def expectedProposer (nextHeight : Int) : Except ApplyError String :=
  match m.cfg.validators with
  | [] => .ok m.cfg.nodeId
  | first :: _ =>
    if nextHeight < 1 then .ok first
    else match rotationSlot m.cfg.validators nextHeight with
      | some proposer => .ok proposer
      | none => .error (.undefinedProperty "toLowerCase")

def checkProposer (block : ChainBlock) : Except ApplyError Unit :=
  match m.expectedProposer block.number with
  | .error err => .error err
  | .ok expected => if toLowerCase expected = toLowerCase block.proposer then .ok () else .error .invalidProposer

end

/-- Here the signature comes before the clock, and every block adds the same weight. -/
def checkContents (host : Host) (m : MemoryEngine σ) (now : Int) (prev : Option ChainBlock) (block : ChainBlock)
    (locallyProposed : Bool) : Except ApplyError Unit := do
  checkIf (!locallyProposed)
    (checkSignature m.cfg.sigMode m.signatureVerifier (m.resolveValidatorAddress block.proposer) block)
  checkIf (!locallyProposed) (checkTimestamps now prev block)
  checkWeight block.number prev block
  checkHash host block

def validate (host : Host) (m : MemoryEngine σ) (now : Int) (block : ChainBlock) (locallyProposed : Bool) :
    Except ApplyError Unit := do
  checkIf (!validateBlockLink m.getTip block) (.error .invalidLink)
  checkIf (!block.bftFinalized.getD false) (m.checkProposer block)
  m.checkContents host now m.getTip block locallyProposed

def blockContext (block : ChainBlock) : ExecutionContext where
  blockNumber := block.number
  baseFeePerGas := block.baseFee.getD 0
  excessBlobGas := block.excessBlobGas
  parentBeaconBlockRoot := truthy block.parentBeaconBlockRoot
  timestamp := block.timestampMs / 1000
  coinbase := none

def txCall (block : ChainBlock) (i : Nat) (raw : Hex) : TxCall where
  raw := raw
  blockNumber := block.number
  txIndex := i
  blockHash := block.hash
  baseFee := block.baseFee.getD 0
  context := blockContext block
  sender := none
  trustBlock := false

structure Gathered where
  receipts : List TxReceipt
  totalGasUsed : Int
  txHashSet : BoundedSet Hex txHashCapacity

def Gathered.record (gathered : Gathered) (result : ExecutedTx) : Gathered where
  receipts := gathered.receipts ++ result.receipt.toList
  totalGasUsed := gathered.totalGasUsed + (result.receipt.map TxReceipt.gasUsed).getD 0
  txHashSet := gathered.txHashSet.add result.txHash

variable (evm : MemoryEvm σ) (block : ChainBlock) (locallyProposed : Bool)

def executeTxs : Nat → List Hex → Gathered → σ → Except ApplyError Unit × Gathered × σ
  | _, [], gathered, s => (.ok (), gathered, s)
  | i, raw :: rest, gathered, s =>
    match evm.executeRawTxInBlock (txCall block i raw) s with
    | (.error message, s) => (.error (.thrown message), gathered, s)
    | (.ok result, s) => executeTxs (i + 1) rest (gathered.record result) s

def checkGas (totalGasUsed : Int) : Except ApplyError Unit :=
  if blockGasLimit < totalGasUsed then .error (.gasLimitExceeded totalGasUsed blockGasLimit)
  else match block.gasUsed with
    | some claimed =>
      if locallyProposed = false ∧ claimed ≠ totalGasUsed then .error (.gasUsedMismatch claimed totalGasUsed) else .ok ()
    | none => .ok ()

variable (txHashSet : BoundedSet Hex txHashCapacity) (s : σ) (m : MemoryEngine σ)

def runBlock : Except ApplyError Unit × Gathered × σ :=
  match evm.applyBlockContext (blockContext block) s with
  | (.error message, s) => (.error (.thrown message), ⟨[], 0, txHashSet⟩, s)
  | (.ok _, s) =>
    match executeTxs evm block 0 block.txs ⟨[], 0, txHashSet⟩ s with
    | (.error err, gathered, s) => (.error err, gathered, s)
    | (.ok _, gathered, s) => (checkGas block locallyProposed gathered.totalGasUsed, gathered, s)

/-- A remote block's claimed root against the trie's commit; a commit that throws is only logged. -/
def checkStateRoot : Except ApplyError Unit × σ :=
  match truthy block.stateRoot, evm.commitTrie, locallyProposed with
  | some claimed, some commit, false =>
    match commit s with
    | (.ok computedRoot, s) =>
      if computedRoot = claimed then (.ok (), s) else (.error (.stateRootUnexpected claimed computedRoot), s)
    | (.error message, s) =>
      if message.startsWith "stateRoot mismatch" then (.error (.thrown message), s) else (.ok (), s)
  | _, _, _ => (.ok (), s)

def executeBlock : Except ApplyError Unit × Gathered × σ :=
  match runBlock evm block locallyProposed txHashSet s with
  | (.error err, gathered, s) => (.error err, gathered, s)
  | (.ok _, gathered, s) =>
    let checked := checkStateRoot evm block locallyProposed s
    (checked.1, gathered, checked.2)

def updateFinalityFlags : MemoryEngine σ :=
  let newlyFinalBlock := m.getHeight - max 1 m.cfg.finalityDepth
  if newlyFinalBlock < 1 then m
  else match m.blockByNumber.get? newlyFinalBlock with
    | none => m
    | some block =>
      if block.finalized then m
      else
        let updated := { block with finalized := true }
        { m with
          blocks := m.blocks.replace block updated
          blockByNumber := m.blockByNumber.set updated.number updated
          blockByHash := m.blockByHash.set updated.hash updated }

def append (block : ChainBlock) (receipts : List TxReceipt) : MemoryEngine σ :=
  { m with
    blocks := m.blocks ++ [block]
    blockByNumber := m.blockByNumber.set block.number block
    blockByHash := m.blockByHash.set block.hash block
    receiptsByBlock := m.receiptsByBlock.set block.number receipts }

def finishBlock (block : ChainBlock) (locallyProposed : Bool) (gathered : Gathered) (s : σ) :
    Except ApplyError Unit × MemoryEngine σ :=
  let committed := { m with
    state := if locallyProposed then s else evm.commitState s
    txHashSet := gathered.txHashSet }
  -- The signature over the state root is checked after the commit.
  match stateRootSigFor m.cfg.sigMode m.nodeSigner m.signatureVerifier (m.resolveValidatorAddress block.proposer) block
      locallyProposed (truthy block.stateRoot) with
  | .error err => (.error err, committed)
  | .ok stateRootSig =>
    let storedBlock := { block with
      gasUsed := some gathered.totalGasUsed
      stateRootSig := stateRootSig
      finalized := false
      bftFinalized := some (locallyProposed && block.bftFinalized.getD false) }
    (.ok (), (committed.append storedBlock gathered.receipts).updateFinalityFlags)

def applyDuplicate (existing block : ChainBlock) (locallyProposed : Bool) : MemoryEngine σ :=
  if locallyProposed && block.bftFinalized.getD false && !existing.bftFinalized.getD false then
    let updated := { existing with bftFinalized := some true }
    { m with
      blocks := m.blocks.replace existing updated
      blockByNumber := m.blockByNumber.set updated.number updated
      blockByHash := m.blockByHash.set updated.hash updated }
  else m

def applyBlock (host : Host) (m : MemoryEngine σ) (now : Int) (block : ChainBlock) (locallyProposed : Bool) :
    Except ApplyError Unit × MemoryEngine σ :=
  if m.applyingBlock then (.error .reentrant, m)
  else match m.getBlockByHash block.hash with
    | some existing => (.ok (), m.applyDuplicate existing block locallyProposed)
    | none =>
      match m.validate host now block locallyProposed with
      | .error err => (.error err, m)
      | .ok _ =>
        let opened := if locallyProposed then m.state else evm.checkpointState m.state
        match executeBlock evm block locallyProposed m.txHashSet opened with
        | (.error err, gathered, s) =>
          (.error err, { m with
            state := if locallyProposed then s else evm.revertState s
            txHashSet := gathered.txHashSet })
        | (.ok _, gathered, s) => finishBlock evm m block locallyProposed gathered s

section Propose

variable (host : Host) (m : MemoryEngine σ)

def buildBlock (now nextHeight : Int) (selected : List Hex) : ChainBlock :=
  blockOn host m.getTip m.cfg.nodeId 1 now nextHeight selected

def signed (block : ChainBlock) : ChainBlock :=
  match m.nodeSigner with
  | some signer => { block with signature := some (signer.sign ("block:" ++ block.hash)) }
  | none => block

structure PickedTx where
  hash : Hex
  rawTx : Hex

structure Proposal where
  block : Option ChainBlock
  dropped : List Hex

def proposesNext (forcePropose : Bool) : Except ApplyError Bool :=
  if forcePropose then .ok true
  else (m.expectedProposer (m.getHeight + 1)).map fun proposer => toLowerCase proposer == toLowerCase m.cfg.nodeId

def proposed (now : Int) (picked : List PickedTx) : ChainBlock :=
  m.signed (m.buildBlock host now (m.getHeight + 1) (picked.map PickedTx.rawTx))

def proposeEmpty (now nextHeight : Int) (picked : List PickedTx) : Except ApplyError Proposal × MemoryEngine σ :=
  let emptyBlock := m.signed (m.buildBlock host now nextHeight [])
  match applyBlock evm host m now emptyBlock true with
  | (.ok _, m) => (.ok ⟨some emptyBlock, picked.map PickedTx.hash⟩, m)
  | (.error _, m) => (.ok ⟨none, picked.map PickedTx.hash⟩, m)

def proposeNextBlock (now later : Int) (forcePropose : Bool) (picked : List PickedTx) :
    Except ApplyError Proposal × MemoryEngine σ :=
  match m.proposesNext forcePropose with
  | .error err => (.error err, m)
  | .ok false => (.ok ⟨none, []⟩, m)
  | .ok true =>
    match applyBlock evm host m now (m.proposed host now picked) true with
    | (.ok _, after) => (.ok ⟨some (m.proposed host now picked), []⟩, after)
    | (.error _, after) => proposeEmpty evm host after later (m.getHeight + 1) picked

end Propose

end MemoryEngine

end Palimesh.Chain
