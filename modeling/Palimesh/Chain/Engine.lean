import Palimesh.Chain.Validation
import Palimesh.State.World

namespace Palimesh.Chain

open Collections State

structure ChainConfig where
  nodeId : String
  validators : List String
  finalityDepth : Int
  signatureEnforcement : Option SignatureMode
  enableBlockReward : Bool
  blockRewardWei : Option Int
  blockRewardHalvingInterval : Option Int
  enableFeeDistribution : Bool

def ChainConfig.sigMode (cfg : ChainConfig) : SignatureMode := cfg.signatureEnforcement.getD .enforce

structure ExecutionContext where
  blockNumber : Int
  baseFeePerGas : Int
  excessBlobGas : Option Int
  parentBeaconBlockRoot : Option Hex
  timestamp : Int
  coinbase : Option Hex

structure TxCall where
  raw : Hex
  blockNumber : Int
  txIndex : Nat
  blockHash : Hex
  baseFee : Int
  context : ExecutionContext
  sender : Option String
  trustBlock : Bool

structure TxResult where
  txHash : Hex
  gasUsed : Int

/-- What the virtual machine does with the state manager in one call, and how the call ends. It
    closes the checkpoints it opens, also when it throws. -/
structure Execution (ρ α : Type) where
  ops : List (ManagerOp ρ)
  balanced : Balanced ops
  result : Except String α

structure Evm (ρ τ : Type) where
  applyBlockContext : ExecutionContext → PersistentStateTrie ρ τ → Execution ρ Unit
  executeRawTxInBlock : TxCall → PersistentStateTrie ρ τ → Execution ρ TxResult
  creditBalance : Hex → Int → PersistentStateTrie ρ τ → Execution ρ Unit

/-- What the engine is built on. -/
structure Platform (ρ τ : Type) where
  H : Hashes ρ τ
  rootHex : τ → Hex
  storageRootOf : Hex → ρ
  host : Host
  evm : Evm ρ τ

structure Engine (ρ τ : Type) where
  cfg : ChainConfig
  blockIndex : BlockIndex
  stateTrie : PersistentStateTrie ρ τ
  governance : Option (List ValidatorInfo)
  setSchedule : Option (List ValidatorSetEra)
  validatorAddressMap : InsertionMap String String
  nodeSigner : Option NodeSigner
  signatureVerifier : Option Verifier
  applyingBlock : Bool

/-- One call of `applyBlock`: the clock, the known senders, and which database writes fail. -/
structure ApplyCall where
  now : Int
  senderByRawTx : Hex → Option String
  promoteFails : Option String
  batchFails : Option String
  finalityFails : Option String

def blockGasLimit : Int := 30000000

def defaultHalvingIntervalBlocks : Int := 42048000

def getBlockReward (height initialRewardWei halvingInterval : Int) : Int :=
  if height ≤ 0 then 0
  else if initialRewardWei ≤ 0 then 0
  else if halvingInterval ≤ 0 then initialRewardWei
  else
    let halvings := height.tdiv halvingInterval
    if 64 ≤ halvings then 0 else initialRewardWei >>> halvings.toNat

def isHexChar (c : Char) : Bool := ('0' ≤ c ∧ c ≤ '9') ∨ ('a' ≤ c ∧ c ≤ 'f') ∨ ('A' ≤ c ∧ c ≤ 'F')

def isAddress (text : String) : Bool :=
  match text.toList with
  | '0' :: 'x' :: digits => digits.length == 40 && digits.all isHexChar
  | _ => false

namespace Engine

variable {ρ τ : Type}

section

variable (e : Engine ρ τ)

def getTip : Option ChainBlock := e.blockIndex.getLatestBlock

def getHeight : Int := (e.getTip.map ChainBlock.number).getD 0

def resolveValidatorAddress (nodeId : String) : String :=
  (e.validatorAddressMap.get? nodeId).getD nodeId

def activeValidators : List ValidatorInfo := (e.governance.getD []).filter ValidatorInfo.active

variable (host : Host)

def expectedProposer (e : Engine ρ τ) (nextHeight : Int) : Except ApplyError String :=
  if e.activeValidators ≠ [] then stakeWeightedProposer host e.activeValidators nextHeight
  else if e.cfg.validators = [] then .ok e.cfg.nodeId
  else match rotationSlot e.cfg.validators nextHeight with
    | some proposer => .ok proposer
    -- An index below zero reads `undefined`, and the caller's `toLowerCase` throws.
    | none => .error (.undefinedProperty "toLowerCase")

def getValidatorStake (validatorId : String) : Int :=
  ((e.activeValidators.find? fun v => v.id == validatorId).map ValidatorInfo.stake).getD 1

def expectedWeight (prev : Option ChainBlock) (block : ChainBlock) : Int :=
  if e.governance.isSome then ((prev.bind ChainBlock.cumulativeWeight).getD 0) + e.getValidatorStake block.proposer
  else block.number

def checkProposer (e : Engine ρ τ) (block : ChainBlock) : Except ApplyError Unit :=
  match e.expectedProposer host block.number with
  | .error err => .error err
  | .ok expected =>
    if toLowerCase expected = toLowerCase block.proposer then .ok ()
    else match e.setSchedule.map fun entries => allowedAt entries block.number with
      | none => .error .invalidProposer
      | some none => .ok ()
      | some (some era) => if toLowerCase block.proposer ∈ era then .ok () else .error .invalidProposer

def checkContents (e : Engine ρ τ) (now : Int) (prev : Option ChainBlock) (block : ChainBlock)
    (locallyProposed : Bool) : Except ApplyError Unit := do
  checkIf (!locallyProposed) (checkTimestamps now prev block)
  checkWeight (e.expectedWeight prev block) prev block
  checkIf (!locallyProposed)
    (checkSignature e.cfg.sigMode e.signatureVerifier (e.resolveValidatorAddress block.proposer) block)
  checkHash host block

def validate (e : Engine ρ τ) (now : Int) (block : ChainBlock) (locallyProposed : Bool) : Except ApplyError Unit := do
  checkIf (!validateBlockLink e.getTip block) (.error .invalidLink)
  checkIf (!block.bftFinalized.getD false) (e.checkProposer host block)
  e.checkContents host now e.getTip block locallyProposed

variable (block : ChainBlock)

def coinbase : Option Hex :=
  if e.cfg.enableFeeDistribution && block.proposer != "" then
    some (e.resolveValidatorAddress block.proposer) |>.filter isAddress
  else none

def blockContext : ExecutionContext where
  blockNumber := block.number
  baseFeePerGas := block.baseFee.getD 0
  excessBlobGas := block.excessBlobGas
  parentBeaconBlockRoot := truthy block.parentBeaconBlockRoot
  timestamp := block.timestampMs / 1000
  coinbase := e.coinbase block

def txCall (call : ApplyCall) (block : ChainBlock) (locallyProposed : Bool) (i : Nat) (raw : Hex) : TxCall where
  raw := raw
  blockNumber := block.number
  txIndex := i
  blockHash := block.hash
  baseFee := block.baseFee.getD 0
  context := e.blockContext block
  sender := call.senderByRawTx raw
  trustBlock := block.bftFinalized.getD false || !locallyProposed

def blockReward : Int :=
  if e.cfg.enableBlockReward ∧ block.proposer ≠ "" ∧ 0 < block.number then
    getBlockReward block.number (e.cfg.blockRewardWei.getD 0)
      (e.cfg.blockRewardHalvingInterval.getD defaultHalvingIntervalBlocks)
  else 0

end

section Execution

variable [DecidableEq ρ] [DecidableEq τ] (p : Platform ρ τ)

def perform {α : Type} (s : PersistentStateTrie ρ τ) (execution : Execution ρ α) :
    Except ApplyError α × PersistentStateTrie ρ τ :=
  (execution.result.mapError .thrown, execution.ops.foldl (PersistentStateTrie.managerStep p.H) s)

variable (e : Engine ρ τ) (call : ApplyCall) (block : ChainBlock) (locallyProposed : Bool)

def executeTxs :
    Nat → List Hex → Int → PersistentStateTrie ρ τ → Except ApplyError Int × PersistentStateTrie ρ τ
  | _, [], totalGasUsed, s => (.ok totalGasUsed, s)
  | i, raw :: rest, totalGasUsed, s =>
    match perform p s (p.evm.executeRawTxInBlock (e.txCall call block locallyProposed i raw) s) with
    | (.error err, s) => (.error err, s)
    | (.ok result, s) =>
      if blockGasLimit < totalGasUsed + result.gasUsed then
        (.error (.gasLimitExceeded (totalGasUsed + result.gasUsed) blockGasLimit), s)
      else executeTxs (i + 1) rest (totalGasUsed + result.gasUsed) s

def creditReward (totalGasUsed : Int) (s : PersistentStateTrie ρ τ) :
    Except ApplyError Int × PersistentStateTrie ρ τ :=
  if 0 < e.blockReward block then
    let credited := perform p s (p.evm.creditBalance (e.resolveValidatorAddress block.proposer) (e.blockReward block) s)
    (credited.1.map fun _ => totalGasUsed, credited.2)
  else (.ok totalGasUsed, s)

def executeBlock (s : PersistentStateTrie ρ τ) : Except ApplyError Int × PersistentStateTrie ρ τ :=
  match perform p s (p.evm.applyBlockContext (e.blockContext block) s) with
  | (.error err, s) => (.error err, s)
  | (.ok _, s) =>
    match executeTxs p e call block locallyProposed 0 block.txs 0 s with
    | (.error err, s) => (.error err, s)
    | (.ok totalGasUsed, s) =>
      match block.gasUsed with
      | some claimed =>
        if locallyProposed = false ∧ claimed ≠ totalGasUsed then (.error (.gasUsedMismatch claimed totalGasUsed), s)
        else creditReward p e block totalGasUsed s
      | none => creditReward p e block totalGasUsed s

section Inversion

variable {p e call block locallyProposed} {s s' : PersistentStateTrie ρ τ} {total : Int}

theorem executeTxs_cons_ok {i : Nat} {raw : Hex} {rest : List Hex} {totalGasUsed : Int}
    (executed : executeTxs p e call block locallyProposed i (raw :: rest) totalGasUsed s = (.ok total, s')) :
    ∃ result next, perform p s (p.evm.executeRawTxInBlock (e.txCall call block locallyProposed i raw) s) =
        (.ok result, next) ∧ ¬ blockGasLimit < totalGasUsed + result.gasUsed ∧
      executeTxs p e call block locallyProposed (i + 1) rest (totalGasUsed + result.gasUsed) next = (.ok total, s') := by
  rw [executeTxs] at executed
  split at executed
  · cases executed
  · rename_i result next performed
    split at executed
    · cases executed
    · rename_i within
      exact ⟨result, next, performed, within, executed⟩

theorem executeBlock_ok (executed : executeBlock p e call block locallyProposed s = (.ok total, s')) :
    ∃ opened done used, perform p s (p.evm.applyBlockContext (e.blockContext block) s) = (.ok (), opened) ∧
      executeTxs p e call block locallyProposed 0 block.txs 0 opened = (.ok used, done) ∧
      (∀ claimed ∈ block.gasUsed, locallyProposed = true ∨ claimed = used) ∧
      creditReward p e block used done = (.ok total, s') := by
  unfold executeBlock at executed
  split at executed
  · cases executed
  · rename_i opened context
    split at executed
    · cases executed
    · rename_i used done txs
      refine ⟨opened, done, used, context, txs, ?_⟩
      split at executed
      · rename_i claimed gasUsed
        split at executed
        · cases executed
        · rename_i accepted
          refine ⟨?_, executed⟩
          intro other member
          rw [gasUsed] at member
          cases member
          by_contra neither
          obtain ⟨foreign, differs⟩ := not_or.mp neither
          exact accepted ⟨by simpa using foreign, differs⟩
      · rename_i gasUsed
        refine ⟨?_, executed⟩
        intro other member
        rw [gasUsed] at member
        cases member

theorem executeBlock_of_ok {opened done : PersistentStateTrie ρ τ} {used : Int}
    (context : perform p s (p.evm.applyBlockContext (e.blockContext block) s) = (.ok (), opened))
    (txs : executeTxs p e call block locallyProposed 0 block.txs 0 opened = (.ok used, done))
    (claim : ∀ claimed ∈ block.gasUsed, locallyProposed = true ∨ claimed = used)
    (reward : creditReward p e block used done = (.ok total, s')) :
    executeBlock p e call block locallyProposed s = (.ok total, s') := by
  unfold executeBlock
  rw [context]
  dsimp only
  rw [txs]
  dsimp only
  split
  · rename_i claimed gasUsed
    rw [if_neg, reward]
    rintro ⟨foreign, differs⟩
    rcases claim claimed gasUsed with own | same
    · rw [own] at foreign
      cases foreign
    · exact differs same
  · exact reward

end Inversion

section Keeps

variable {p} {P : PersistentStateTrie ρ τ → Prop}
  (keeps : ∀ s (ops : List (ManagerOp ρ)), P s → Balanced ops → P (ops.foldl (PersistentStateTrie.managerStep p.H) s))

include keeps

variable {s : PersistentStateTrie ρ τ}

theorem perform_keeps {α : Type} {execution : Execution ρ α} {result : Except ApplyError α} {next : PersistentStateTrie ρ τ}
    (performed : perform p s execution = (result, next)) (holds : P s) : P next := by
  obtain ⟨-, rfl⟩ := Prod.mk.inj performed
  exact keeps s _ holds execution.balanced

theorem executeTxs_keeps (txs : List Hex) (i : Nat) (totalGasUsed : Int) (holds : P s) :
    P (executeTxs p e call block locallyProposed i txs totalGasUsed s).2 := by
  induction txs generalizing i totalGasUsed s with
  | nil => exact holds
  | cons raw rest ih =>
    unfold executeTxs
    split
    · rename_i outcome
      exact perform_keeps keeps outcome holds
    · rename_i outcome
      have performed := perform_keeps keeps outcome holds
      split
      · exact performed
      · exact ih _ _ performed

theorem creditReward_keeps (totalGasUsed : Int) (holds : P s) : P (creditReward p e block totalGasUsed s).2 := by
  unfold creditReward
  split
  · exact keeps s _ holds (Execution.balanced _)
  · exact holds

theorem executeBlock_keeps (holds : P s) : P (executeBlock p e call block locallyProposed s).2 := by
  unfold executeBlock
  split
  · rename_i outcome
    exact perform_keeps keeps outcome holds
  · rename_i outcome
    have executed := executeTxs_keeps e call block locallyProposed keeps block.txs 0 0 (perform_keeps keeps outcome holds)
    split
    · rename_i outcome'
      rw [outcome'] at executed
      exact executed
    · rename_i outcome'
      rw [outcome'] at executed
      split
      · split
        · exact executed
        · exact creditReward_keeps e block keeps _ executed
      · exact creditReward_keeps e block keeps _ executed

end Keeps

/-- The two commits, of the virtual machine's checkpoint and of the trie's, and the second sync. -/
def commitBlock (s : PersistentStateTrie ρ τ) : τ × PersistentStateTrie ρ τ :=
  let committed := ((s.commit p.H).2).commit p.H
  (committed.1, (committed.2.computeStateRoot p.H).2)

end Execution

variable (e : Engine ρ τ)

def checkStateRoot (block : ChainBlock) (stateRoot : Hex) : Except ApplyError Unit :=
  match truthy block.stateRoot with
  | some claimed =>
    if claimed ≠ stateRoot ∧ e.cfg.sigMode = .enforce then .error (.stateRootMismatch claimed stateRoot) else .ok ()
  | none => .ok ()

def sealBlock (block : ChainBlock) (locallyProposed : Bool) (stateRoot : Hex) (totalGasUsed : Int) :
    Except ApplyError ChainBlock := do
  e.checkStateRoot block stateRoot
  let stateRootSig ← stateRootSigFor e.cfg.sigMode e.nodeSigner e.signatureVerifier
    (e.resolveValidatorAddress block.proposer) block locallyProposed (some stateRoot)
  return { block with
    gasUsed := some totalGasUsed
    stateRootSig := stateRootSig
    finalized := false
    bftFinalized := some (locallyProposed && block.bftFinalized.getD false)
    stateRoot := some stateRoot }

def finalityDepth (e : Engine ρ τ) : Int := max 1 e.cfg.finalityDepth

def newlyFinal (tip : Int) : Option ChainBlock :=
  let newlyFinalBlock := tip - e.finalityDepth
  if newlyFinalBlock < 1 then none
  else (e.blockIndex.getBlockByNumber newlyFinalBlock).filter fun block => !block.finalized

def updateFinalityFlags (fails : Option String) : Except ApplyError Unit × Engine ρ τ :=
  match e.newlyFinal e.getHeight with
  | none => (.ok (), e)
  | some block =>
    match fails with
    | some message => (.error (.thrown message), e)
    | none => (.ok (), { e with blockIndex := e.blockIndex.updateBlock { block with finalized := true } })

def applyDuplicate (call : ApplyCall) (existing block : ChainBlock) (locallyProposed : Bool) :
    Except ApplyError Unit × Engine ρ τ :=
  if locallyProposed && block.bftFinalized.getD false && !existing.bftFinalized.getD false then
    match call.promoteFails with
    | some message => (.error (.thrown message), e)
    | none =>
      let updated := { existing with bftFinalized := some true }
      if (e.getTip.map ChainBlock.hash) = some updated.hash then
        (.ok (), { e with blockIndex := e.blockIndex.putBlock updated })
      else (.ok (), { e with blockIndex := e.blockIndex.updateBlock updated })
  else (.ok (), e)

section Apply

variable [DecidableEq ρ] [DecidableEq τ] (p : Platform ρ τ)

def rollback (e : Engine ρ τ) (s : PersistentStateTrie ρ τ) : Engine ρ τ :=
  { e with stateTrie := s.revert.revert }

variable (e : Engine ρ τ) (call : ApplyCall) (block : ChainBlock) (locallyProposed : Bool)

def finishBlock (totalGasUsed : Int) (s : PersistentStateTrie ρ τ) : Except ApplyError Unit × Engine ρ τ :=
  let committed := commitBlock p s
  match e.sealBlock block locallyProposed (p.rootHex committed.1) totalGasUsed with
  | .error err => (.error err, e.rollback committed.2)
  | .ok storedBlock =>
    match call.batchFails with
    | some message => (.error (.thrown message), e.rollback committed.2)
    | none =>
      let stored := { e with stateTrie := committed.2, blockIndex := e.blockIndex.putBlock storedBlock }
      stored.updateFinalityFlags call.finalityFails

def applyBlock : Except ApplyError Unit × Engine ρ τ :=
  if e.applyingBlock then (.error .reentrant, e)
  else match e.blockIndex.getBlockByHash block.hash with
    | some existing => e.applyDuplicate call existing block locallyProposed
    | none =>
      match e.validate p.host call.now block locallyProposed with
      | .error err => (.error err, e)
      | .ok _ =>
        match executeBlock p e call block locallyProposed e.stateTrie.checkpoint.checkpoint with
        | (.error err, s) => (.error err, e.rollback s)
        | (.ok totalGasUsed, s) => finishBlock p e call block locallyProposed totalGasUsed s

inductive Applied : Except ApplyError Unit × Engine ρ τ → Prop
  | reentrant (busy : e.applyingBlock = true) : Applied (.error .reentrant, e)
  | duplicate {existing : ChainBlock} (idle : e.applyingBlock = false)
      (found : e.blockIndex.getBlockByHash block.hash = some existing) :
      Applied (e.applyDuplicate call existing block locallyProposed)
  | rejected {err : ApplyError} (idle : e.applyingBlock = false)
      (fresh : e.blockIndex.getBlockByHash block.hash = none)
      (invalid : e.validate p.host call.now block locallyProposed = .error err) :
      Applied (.error err, e)
  | failed {err : ApplyError} {s : PersistentStateTrie ρ τ} (idle : e.applyingBlock = false)
      (fresh : e.blockIndex.getBlockByHash block.hash = none)
      (valid : e.validate p.host call.now block locallyProposed = .ok ())
      (executed : executeBlock p e call block locallyProposed e.stateTrie.checkpoint.checkpoint = (.error err, s)) :
      Applied (.error err, e.rollback s)
  | finished {totalGasUsed : Int} {s : PersistentStateTrie ρ τ} (idle : e.applyingBlock = false)
      (fresh : e.blockIndex.getBlockByHash block.hash = none)
      (valid : e.validate p.host call.now block locallyProposed = .ok ())
      (executed : executeBlock p e call block locallyProposed e.stateTrie.checkpoint.checkpoint = (.ok totalGasUsed, s)) :
      Applied (finishBlock p e call block locallyProposed totalGasUsed s)

theorem applyBlock_applied : Applied p e call block locallyProposed (applyBlock p e call block locallyProposed) := by
  unfold applyBlock
  split
  · rename_i busy
    exact .reentrant busy
  · rename_i notBusy
    have idle : e.applyingBlock = false := by simpa using notBusy
    split
    · rename_i existing found
      exact .duplicate idle found
    · rename_i fresh
      split
      · rename_i err invalid
        exact .rejected idle fresh invalid
      · rename_i valid
        split
        · rename_i err s executed
          exact .failed idle fresh valid executed
        · rename_i totalGasUsed s executed
          exact .finished idle fresh valid executed

end Apply

variable {e : Engine ρ τ} {block : ChainBlock} {locallyProposed : Bool}

theorem validate_link {host : Host} {now : Int} (valid : e.validate host now block locallyProposed = .ok ()) :
    validateBlockLink e.getTip block = true := by
  by_contra broken
  have invalid : validateBlockLink e.getTip block = false := by simpa using broken
  rw [validate, invalid] at valid
  cases valid

theorem sealBlock_eq {stateRoot : Hex} {totalGasUsed : Int} {stored : ChainBlock}
    (sealed : e.sealBlock block locallyProposed stateRoot totalGasUsed = .ok stored) :
    ∃ stateRootSig, stored = { block with
      gasUsed := some totalGasUsed
      stateRootSig := stateRootSig
      finalized := false
      bftFinalized := some (locallyProposed && block.bftFinalized.getD false)
      stateRoot := some stateRoot } := by
  unfold sealBlock at sealed
  cases rootOk : e.checkStateRoot block stateRoot with
  | error err =>
    rw [rootOk] at sealed
    cases sealed
  | ok _ =>
    rw [rootOk] at sealed
    cases sigOk : stateRootSigFor e.cfg.sigMode e.nodeSigner e.signatureVerifier
        (e.resolveValidatorAddress block.proposer) block locallyProposed (some stateRoot) with
    | error err =>
      simp only [Bind.bind, Except.bind, sigOk] at sealed
      cases sealed
    | ok sig =>
      simp only [Bind.bind, Except.bind, sigOk, Pure.pure, Except.pure, Except.ok.injEq] at sealed
      exact ⟨sig, sealed.symm⟩

theorem sealBlock_keeps {stateRoot : Hex} {totalGasUsed : Int} {stored : ChainBlock}
    (sealed : e.sealBlock block locallyProposed stateRoot totalGasUsed = .ok stored) :
    stored.number = block.number ∧ stored.hash = block.hash := by
  obtain ⟨_, rfl⟩ := sealBlock_eq sealed
  exact ⟨rfl, rfl⟩

end Engine

section Sample

def idleEvm : Evm (Option (FiniteMap Hex Bytes)) (FiniteMap Hex (AccountState (Option (FiniteMap Hex Bytes)))) where
  applyBlockContext _ _ := ⟨[], rfl, .ok ()⟩
  executeRawTxInBlock call _ := ⟨[], rfl, .ok ⟨call.raw, 21000⟩⟩
  creditBalance _ _ _ := ⟨[], rfl, .ok ()⟩

def plainPlatform : Platform (Option (FiniteMap Hex Bytes))
    (FiniteMap Hex (AccountState (Option (FiniteMap Hex Bytes)))) where
  H := plainHashes
  rootHex root := if root = ∅ then "0xempty" else "0xwritten"
  storageRootOf _ := none
  host := ⟨id, fun _ _ => true, fun text => some (hexValue text), fun _ => .ok [], id⟩
  evm := idleEvm

def sampleEngine : Engine (Option (FiniteMap Hex Bytes))
    (FiniteMap Hex (AccountState (Option (FiniteMap Hex Bytes)))) where
  cfg := ⟨"node-1", ["node-1", "node-2"], 3, none, false, none, none, false⟩
  blockIndex := .empty
  stateTrie := (PersistentStateTrie.new plainHashes emptyDatabase 10 10).recordRoot
  governance := none
  setSchedule := none
  validatorAddressMap := .empty
  nodeSigner := none
  signatureVerifier := none
  applyingBlock := false

def sampleCall : ApplyCall := ⟨1000000, fun _ => none, none, none, none⟩

def sampleBlock (number : Int) (parentHash : Hex) (proposer : String) (timestampMs : Int) : ChainBlock :=
  let payload : ChainBlock :=
    { number, hash := "", parentHash, proposer, timestampMs, txs := [], finalized := false }
  { payload with hash := hashBlockPayload plainPlatform.host payload }

def firstBlock : ChainBlock := sampleBlock 1 zeroHash "node-1" 1000

def secondBlock : ChainBlock := sampleBlock 2 firstBlock.hash "node-2" 2000

end Sample

end Palimesh.Chain
