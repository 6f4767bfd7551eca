import Palimesh.Settlement.Merkle
import Palimesh.Settlement.Witness

namespace Palimesh.Settlement

open Collections

inductive Pending
  /-- `_payOrCredit`: a failed payment is credited, then `sweepExpiredRewards` goes on to burn. -/
  | credit (payee : Address) (amount toBurn : Nat)
  | transfer
  | mint (epochId totalReward : Nat)
  | burn

inductive Step (β : Type)
  | done (s : PoSeManager β)
  | pay (s : PoSeManager β) (payee : Address) (amount : Nat) (pending : Pending)
  | token (s : PoSeManager β) (pending : Pending)

structure SampleProof (β : Type) where
  leaf : β
  merkleProof : List β
  leafIndex : Nat
deriving DecidableEq

structure Registration (β : Type) where
  nodeId : β
  pubkeyNode : Bytes
  serviceFlags : Nat
  serviceCommitment : β
  endpointCommitment : β
  metadataHash : β
  ownershipSig : Bytes
  endpointAttestation : Bytes
deriving DecidableEq

structure Submission (β : Type) where
  epochId : Nat
  merkleRoot : β
  summaryHash : β
  sampleProofs : List (SampleProof β)
  witnessBitmap : Nat
  witnessSignatures : List Bytes
  metadata : ReceiptBatchMetadata β
deriving DecidableEq

structure Reveal (β : Type) where
  challengeId : β
  targetNodeId : β
  faultType : Nat
  evidenceLeafHash : β
  salt : β
  evidenceData : Bytes
  challengerSig : Bytes
deriving DecidableEq

namespace EmissionSchedule

def miningSupplyCap : Nat := 750000000 * 10 ^ 18

def epochsPerYear : Nat := 8760

def targetNodeCount : Nat := 100

def annualRate (year : Nat) : Nat :=
  match year with
  | 0 => 500
  | 1 => 400
  | 2 => 300
  | 3 => 250
  | _ => 200

def getEpochEmission (epochId totalMinted activeNodeCount : Nat) : Nat :=
  if miningSupplyCap ≤ totalMinted then 0
  else
    let baseEmission := miningSupplyCap * annualRate (epochId / epochsPerYear) / (bpsDenominator * epochsPerYear)
    let emission :=
      if activeNodeCount < targetNodeCount then baseEmission * activeNodeCount / targetNodeCount else baseEmission
    min emission (miningSupplyCap - totalMinted)

end EmissionSchedule

def minBond : Nat := 2 * 10 ^ 16

def maxNodesPerOperator : Nat := 5

def unbondDelayEpochs : Nat := 7 * 24

def maxReceiptsPerBatch : Nat := 4096

def finalizeBatchBudget : Nat := 200

def requiredBond (existingNodeCount : Nat) : Nat := minBond * 2 ^ existingNodeCount % 2 ^ 256

namespace PoSeManager

variable {β : Type}

section

variable (s : PoSeManager β)

def afterPayment (toBurn : Nat) : Step β :=
  if 0 < toBurn ∧ s.emissionEnabled = true ∧ s.cocToken ≠ 0 then .token s .burn else .done s

def payOrCredit (payee : Address) (amount toBurn : Nat) : Step β :=
  if amount = 0 ∨ payee = 0 then s.afterPayment toBurn else .pay s payee amount (.credit payee amount toBurn)

def initializeWith (bondMin : Nat) (initialOwner : Address) : Result (PoSeManager β) := do
  revertIf (s.initialized = true) .alreadyInitialized
  revertIf (bondMin = 0) .bondTooLow
  revertIf (initialOwner = 0) .zeroAddress
  return { s with initialized := true, owner := initialOwner, challengeBondMin := bondMin }

variable (msg : Msg)

def transferOwnership (newOwner : Address) : Result (PoSeManager β) := do
  onlyOwner s msg
  revertIf (newOwner = 0) .zeroOwner
  return { s with owner := newOwner }

def enableEmission (token : Address) (genesisEpoch : Nat) : Result (PoSeManager β) := do
  onlyOwner s msg
  revertIf (s.emissionEnabled = true) .emissionAlreadyEnabled
  revertIf (token = 0) .zeroToken
  return { s with cocToken := token, genesisEpoch := genesisEpoch, emissionEnabled := true }

def setFoundationAddress (foundation : Address) : Result (PoSeManager β) := do
  onlyOwner s msg
  revertIf (foundation = 0) .zeroFoundation
  return { s with foundationAddress := foundation }

def setV1SunsetEpoch (newSunsetEpoch : Nat) : Result (PoSeManager β) := do
  onlyOwner s msg
  return { s with v1SunsetEpoch := newSunsetEpoch }

def setV2SunsetEpoch (newSunsetEpoch : Nat) : Result (PoSeManager β) := do
  onlyOwner s msg
  return { s with v2SunsetEpoch := newSunsetEpoch }

def setChallengeBondMin (newMin : Nat) : Result (PoSeManager β) := do
  onlyOwner s msg
  revertIf (newMin = 0) .bondTooLow
  return { s with challengeBondMin := newMin }

def setAllowEmptyWitnessSubmission (allowed : Bool) : Result (PoSeManager β) := do
  onlyOwner s msg
  return { s with allowEmptyWitnessSubmission := allowed }

def depositRewardPool : Result (PoSeManager β) := do
  revertIf (msg.value = 0) .insufficientBond
  let pool ← checkedAdd 256 s.rewardPoolBalance msg.value
  return { s with rewardPoolBalance := pool }

def depositInsurance : Result (PoSeManager β) := do
  revertIf (msg.value = 0) .insufficientBond
  let insurance ← checkedAdd 256 s.insuranceBalance msg.value
  return { s with insuranceBalance := insurance }

def withdrawPayments : Result (Step β) := do
  let amount := s.pendingWithdrawals.read msg.sender
  revertIf (amount = 0) .noPendingWithdrawal
  return .pay { s with pendingWithdrawals := s.pendingWithdrawals.set msg.sender 0 } msg.sender amount .transfer

end

section Epochs

variable [DecidableEq β] [Inhabited β] (C : Crypto β) (s : PoSeManager β) (env : Env β)

def initEpochNonce (msg : Msg) (epochId : Nat) : Result (PoSeManager β) := do
  onlyOwner s msg
  let epoch := s.epochs.read epochId
  revertIf (epoch.challengeNonce ≠ 0) .epochNonceAlreadySet
  let seed := C.toUint (C.keccak256 [.uint 256 epochId, .uint 256 env.prevrandao, .bytes32 env.histHash]) % 2 ^ 64
  return { s with epochs := s.epochs.set epochId { epoch with challengeNonce := seed } }

/-- One batch of the page: dispute-elapsed and not disputed ones become final. -/
def processBatch (state : InsertionMap β (BatchRecord β) × Nat) (batchId : β) :
    Result (InsertionMap β (BatchRecord β) × Nat) :=
  let batch := state.1.read batchId
  if batch.finalized = true ∨ batch.disputed = true ∨ env.currentEpoch ≤ batch.disputeDeadlineEpoch then .ok state
  else do
    let validCount ← checkedAdd 32 state.2 1
    return (state.1.set batchId { batch with finalized := true }, validCount)

def processBatches (epochId maxBatches : Nat) : Result (PoSeManager β) := do
  let epoch := s.epochs.read epochId
  let wanted ← checkedAdd 256 epoch.batchCursor maxBatches
  let last := min wanted epoch.batches.length
  if last = epoch.batchCursor then return s
  else
    let page := (epoch.batches.take last).drop epoch.batchCursor
    let walked ← page.foldlM (processBatch env) (s.batches, epoch.validBatchCount)
    return { s with
      batches := walked.1
      epochs := s.epochs.set epochId { epoch with validBatchCount := walked.2, batchCursor := last } }

def processEpochBatches (epochId maxBatches : Nat) : Result (PoSeManager β) := do
  revertIf ((s.epochs.read epochId).finalized = true) .epochAlreadyFinalized
  let disputeEnd ← checkedAdd 64 epochId disputeWindowEpochs
  revertIf (env.currentEpoch ≤ disputeEnd) .disputeWindowNotElapsed
  s.processBatches env epochId maxBatches

/-- The end of `finalizeEpochV2`, after the token's `mint` has returned. -/
def fundRewards (epochId totalReward : Nat) : Result (PoSeManager β) := do
  revertIf (s.rewardPoolBalance < totalReward) .rewardPoolInsufficient
  return { s with
    epochs := s.epochs.set epochId { s.epochs.read epochId with totalReward := totalReward }
    rewardPoolBalance := s.rewardPoolBalance - totalReward }

def epochEmission (epochId totalMinted : Nat) : Nat :=
  EmissionSchedule.getEpochEmission (if s.genesisEpoch ≤ epochId then epochId - s.genesisEpoch else 0) totalMinted
    s.activeNodeIds.length

def finalizeEpochV2 (msg : Msg) (epochId : Nat) (rewardRoot : β) (totalReward : Nat)
    : Result (Step β) := do
  onlyOwner s msg
  revertIf ((s.epochs.read epochId).finalized = true) .epochAlreadyFinalized
  let disputeEnd ← checkedAdd 64 epochId disputeWindowEpochs
  revertIf (env.currentEpoch ≤ disputeEnd) .disputeWindowNotElapsed
  revertIf (0 < totalReward ∧ rewardRoot = default) .invalidBatch
  revertIf (s.rewardPoolBalance < totalReward) .rewardPoolInsufficient
  let s ← s.processBatches env epochId finalizeBatchBudget
  let epoch := s.epochs.read epochId
  revertIf (epoch.batchCursor ≠ epoch.batches.length) .batchesNotProcessed
  let closed := { epoch with rewardRoot := rewardRoot, finalized := true, finalizedAt := env.timestamp }
  let s := { s with epochs := s.epochs.set epochId closed }
  if s.emissionEnabled = true ∧ s.cocToken ≠ 0 then
    match env.totalMinted with
    | none => .error .externalCallFailed
    | some totalMinted =>
      if 0 < s.epochEmission epochId totalMinted then return .token s (.mint epochId totalReward)
      else
        let s ← s.fundRewards epochId totalReward
        return .done s
  else
    let s ← s.fundRewards epochId totalReward
    return .done s

def rewardLeaf (epochId : Nat) (nodeId : β) (amount : Nat) : β :=
  C.keccak256 [.uint 64 epochId, .bytes32 nodeId, .uint 256 amount]

def claim (epochId : Nat) (nodeId : β) (amount : Nat) (merkleProof : List β) : Result (Step β) := do
  let epoch := s.epochs.read epochId
  revertIf (epoch.finalized = false) .invalidBatch
  revertIf (amount = 0) .invalidBatch
  revertIf (s.rewardClaimed.read (epochId, nodeId) = true) .alreadyClaimed
  let windowEnd ← checkedAdd 256 epoch.finalizedAt rewardClaimWindow
  revertIf (windowEnd < env.timestamp) .alreadyClaimed
  revertIf (MerkleProofLite.verify C merkleProof epoch.rewardRoot (rewardLeaf C epochId nodeId amount) = false)
    .invalidMerkleProof
  let claimed ← checkedAdd 256 epoch.claimedReward amount
  revertIf (epoch.totalReward < claimed) .rewardBudgetExceeded
  let operator := s.nodeOperator.read nodeId
  revertIf (operator = 0) .nodeNotFound
  return .pay { s with
    rewardClaimed := s.rewardClaimed.set (epochId, nodeId) true
    epochs := s.epochs.set epochId { epoch with claimedReward := claimed } } operator amount .transfer

def sweepExpiredRewards (epochId : Nat) : Result (Step β) := do
  let epoch := s.epochs.read epochId
  revertIf (epoch.finalized = false) .invalidBatch
  revertIf (epoch.swept = true) .alreadyClaimed
  let windowEnd ← checkedAdd 256 epoch.finalizedAt rewardClaimWindow
  revertIf (env.timestamp ≤ windowEnd) .invalidBatch
  let unclaimed := epoch.totalReward - epoch.claimedReward
  let s := { s with epochs := s.epochs.set epochId { epoch with swept := true } }
  if unclaimed = 0 then return .done s
  else
    let share ← checkedMul 256 unclaimed 1000
    let toFoundation := share / bpsDenominator
    return s.payOrCredit s.foundationAddress toFoundation (unclaimed - toFoundation)

end Epochs

section Nodes

variable [DecidableEq β] [Inhabited β] (C : Crypto β)

def pubkeyToAddress (pubkey : Bytes) : Result Address :=
  if pubkey.length = 65 then .ok (C.toUint (C.keccak256 [.bytes pubkey.tail]) % 2 ^ 160)
  else if pubkey.length = 64 then .ok (C.toUint (C.keccak256 [.bytes pubkey]) % 2 ^ 160)
  else .error .invalidNodeId

/-- `_verifyOwnership` and `_verifyEndpointAttestation`: the node's key signed the message. -/
def verifyNodeSignature (messageHash : β) (pubkeyNode sig : Bytes) : Result Unit := do
  let recovered := recoverSigner C (ethSignedHash C messageHash) sig
  revertIf (recovered = 0) .invalidOwnershipProof
  let nodeAddr ← pubkeyToAddress C pubkeyNode
  revertIf (recovered ≠ nodeAddr) .invalidOwnershipProof

variable (s : PoSeManager β)

def checkRegistration (msg : Msg) (r : Registration β) : Result Unit := do
  revertIf (msg.value < requiredBond (s.operatorNodeCount.read msg.sender)) .insufficientBond
  revertIf (maxNodesPerOperator ≤ s.operatorNodeCount.read msg.sender) .tooManyNodes
  revertIf (r.nodeId = default ∨ C.keccak256 [.bytes r.pubkeyNode] ≠ r.nodeId) .invalidNodeId
  revertIf ((s.nodes.read r.nodeId).active = true) .nodeAlreadyRegistered
  revertIf (s.endpointCommitmentUsed.read r.endpointCommitment = true) .endpointAlreadyRegistered
  verifyNodeSignature C (C.keccak256 [.text "coc-register:", .bytes32 r.nodeId, .account msg.sender]) r.pubkeyNode
    r.ownershipSig
  if 0 < r.endpointAttestation.length then
    verifyNodeSignature C (C.keccak256 [.text "coc-endpoint:", .bytes32 r.endpointCommitment, .bytes32 r.nodeId])
      r.pubkeyNode r.endpointAttestation
  else return ()

def registerNode (env : Env β) (msg : Msg) (r : Registration β) : Result (PoSeManager β) := do
  s.checkRegistration C msg r
  let unlockEpoch ← checkedAdd 64 env.currentEpoch unbondDelayEpochs
  let count ← checkedAdd 8 (s.operatorNodeCount.read msg.sender) 1
  return { s with
    endpointCommitmentUsed := s.endpointCommitmentUsed.set r.endpointCommitment true
    nodes := s.nodes.set r.nodeId
      { nodeId := r.nodeId
        pubkeyNode := r.pubkeyNode
        serviceFlags := r.serviceFlags
        serviceCommitment := r.serviceCommitment
        endpointCommitment := r.endpointCommitment
        bondAmount := msg.value
        metadataHash := r.metadataHash
        registeredAtEpoch := env.currentEpoch
        unlockEpoch := unlockEpoch
        active := true }
    nodeOperator := s.nodeOperator.set r.nodeId msg.sender
    operatorNodeCount := s.operatorNodeCount.set msg.sender count
    activeNodeIds := s.activeNodeIds ++ [r.nodeId]
    activeNodeIndex := s.activeNodeIndex.set r.nodeId (s.activeNodeIds.length + 1) }

def removeActiveNode (nodeId : β) : PoSeManager β :=
  let indexPlusOne := s.activeNodeIndex.read nodeId
  if indexPlusOne = 0 then s
  else
    let idx := indexPlusOne - 1
    let lastIdx := s.activeNodeIds.length - 1
    let lastNode := s.activeNodeIds.getD lastIdx default
    let moved := if idx ≠ lastIdx then s.activeNodeIndex.set lastNode (idx + 1) else s.activeNodeIndex
    { s with
      activeNodeIds := (if idx ≠ lastIdx then s.activeNodeIds.set idx lastNode else s.activeNodeIds).dropLast
      activeNodeIndex := moved.set nodeId 0 }

end Nodes

section Batches

variable [DecidableEq β] [Inhabited β] (C : Crypto β)

def batchIdOf (epochId : Nat) (merkleRoot summaryHash : β) (aggregator : Address) : β :=
  C.keccak256 [.uint 64 epochId, .bytes32 merkleRoot, .bytes32 summaryHash, .account aggregator]

variable (s : PoSeManager β)

def checkShape (env : Env β) (b : Submission β) : Result Unit := do
  revertIf (b.merkleRoot = default ∨ b.summaryHash = default) .invalidBatch
  revertIf (env.currentEpoch < b.epochId) .invalidBatch
  revertIf ((s.epochs.read b.epochId).finalized = true) .epochAlreadyFinalized
  revertIf (b.sampleProofs.length = 0 ∨ 2 ^ 16 - 1 < b.sampleProofs.length) .invalidBatch
  let numReceipts := b.metadata.leafHashes.length
  revertIf (numReceipts = 0) .metadataLengthMismatch
  revertIf (maxReceiptsPerBatch < numReceipts) .metadataLengthMismatch
  revertIf (b.metadata.challengeIds.length ≠ numReceipts ∨ b.metadata.nodeIds.length ≠ numReceipts ∨
    b.metadata.responseBodyHashes.length ≠ numReceipts ∨ b.metadata.resultCodes.length ≠ numReceipts)
    .metadataLengthMismatch

/-- The loop over the sample proofs: the leaves sampled so far, the commitment, the last index. -/
def checkSamples (batchId merkleRoot : β) : List (SampleProof β) → InsertionMap (β × β) Bool → β → Option Nat →
    Result (InsertionMap (β × β) Bool × β)
  | [], sampled, sampleCommitment, _ => .ok (sampled, sampleCommitment)
  | proof :: rest, sampled, sampleCommitment, lastLeafIndex => do
    revertIf (proof.leaf = default ∨ proof.merkleProof.length = 0) .invalidBatch
    revertIf (∃ last ∈ lastLeafIndex, proof.leafIndex ≤ last) .invalidBatch
    revertIf (sampled.read (batchId, proof.leaf) = true) .invalidBatch
    revertIf (MerkleProofLite.verify C proof.merkleProof merkleRoot proof.leaf = false) .invalidBatch
    checkSamples batchId merkleRoot rest (sampled.set (batchId, proof.leaf) true)
      (C.keccak256 [.bytes32 sampleCommitment, .uint 32 proof.leafIndex, .bytes32 proof.leaf]) (some proof.leafIndex)

def checkContents (msg : Msg) (b : Submission β) : Result (InsertionMap (β × β) Bool) := do
  revertIf (rebuildMerkleRoot C b.metadata.leafHashes ≠ b.merkleRoot) .merkleRootMismatch
  let batchId := batchIdOf C b.epochId b.merkleRoot b.summaryHash msg.sender
  revertIf ((s.batches.read batchId).merkleRoot ≠ default) .batchAlreadySubmitted
  revertIf (s.epochMerkleRootUsed.read (b.epochId, b.merkleRoot) = true) .batchAlreadySubmitted
  let checkedSamples ← checkSamples C batchId b.merkleRoot b.sampleProofs s.batchSampledLeaf default none
  let expectedSummary := C.keccak256 [.uint 64 b.epochId, .bytes32 b.merkleRoot, .bytes32 checkedSamples.2,
    .uint 32 (b.sampleProofs.length % 2 ^ 32)]
  revertIf (b.summaryHash ≠ expectedSummary) .invalidBatch
  return checkedSamples.1

def submitBatchV2WithMetadata (env : Env β) (msg : Msg) (b : Submission β) : Result (PoSeManager β) := do
  s.checkShape env b
  let s ← validateWitnessQuorumV2 C s env msg b.epochId b.witnessBitmap b.witnessSignatures b.metadata
  let sampled ← s.checkContents C msg b
  let batchId := batchIdOf C b.epochId b.merkleRoot b.summaryHash msg.sender
  let disputeDeadlineEpoch ← checkedAdd 64 env.currentEpoch disputeWindowEpochs
  let epoch := s.epochs.read b.epochId
  return { s with
    epochMerkleRootUsed := s.epochMerkleRootUsed.set (b.epochId, b.merkleRoot) true
    batchSampledLeaf := sampled
    batches := s.batches.set batchId
      { epochId := b.epochId
        merkleRoot := b.merkleRoot
        summaryHash := b.summaryHash
        aggregator := msg.sender
        submittedAtEpoch := env.currentEpoch
        disputeDeadlineEpoch := disputeDeadlineEpoch
        finalized := false
        disputed := false }
    epochs := s.epochs.set b.epochId { epoch with batches := epoch.batches ++ [batchId] } }

end Batches

section Challenges

variable [DecidableEq β] [Inhabited β] (C : Crypto β) (s : PoSeManager β) (env : Env β) (msg : Msg) (r : Reveal β)

def openChallenge (commitHash : β) : Result (PoSeManager β) := do
  revertIf (msg.value < s.challengeBondMin) .bondTooLow
  let counter ← checkedAdd 256 s.challengeCounter 1
  let revealDeadlineEpoch ← checkedAdd 64 env.currentEpoch revealWindowEpochs
  let challengeId := C.keccak256 [.account msg.sender, .uint 256 counter, .uint 256 env.blockNumber]
  return { s with
    challengeCounter := counter
    challenges := s.challenges.set challengeId
      { commitHash := commitHash
        challenger := msg.sender
        bond := msg.value
        commitEpoch := env.currentEpoch
        revealDeadlineEpoch := revealDeadlineEpoch
        revealed := false
        settled := false
        targetNodeId := default
        faultType := 0 } }

def leafHash (leaf : EvidenceLeafV2 β) : β :=
  C.keccak256 [.uint 64 leaf.epoch, .bytes32 leaf.nodeId, .bytes16 leaf.nonce, .bytes32 leaf.tipHash,
    .uint 64 leaf.tipHeight, .uint 32 leaf.latencyMs, .uint 8 leaf.resultCode, .uint 32 leaf.witnessBitmap]

/-- Whether the leaf's result code is one the fault type may be claimed for; type 1 never is. -/
def faultMatches (faultType resultCode : Nat) : Bool :=
  match faultType with
  | 1 => false
  | 2 => resultCode = 2
  | 3 => resultCode = 1
  | 4 => 3 ≤ resultCode ∧ resultCode ≤ 7
  | _ => true

def revealSignedHash : β :=
  ethSignedHash C (C.keccak256 [.text "coc-fault:", .bytes32 r.challengeId, .bytes32 r.targetNodeId,
    .uint 8 r.faultType, .bytes32 r.evidenceLeafHash, .bytes32 r.salt, .bytes32 (C.keccak256 [.bytes r.evidenceData])])

def checkReveal : Result Unit := do
  let record := s.challenges.read r.challengeId
  revertIf (record.challenger = 0) .challengeNotFound
  revertIf (record.revealed = true) .challengeNotFound
  revertIf (msg.sender ≠ record.challenger) .notChallengeOwner
  revertIf (record.revealDeadlineEpoch < env.currentEpoch) .revealWindowMissed
  revertIf (r.faultType = 0 ∨ 4 < r.faultType) .invalidFaultType
  revertIf (C.keccak256 [.bytes32 r.targetNodeId, .uint 8 r.faultType, .bytes32 r.evidenceLeafHash, .bytes32 r.salt] ≠
    record.commitHash) .commitHashMismatch
  let revealSigner := recoverSigner C (revealSignedHash C r) r.challengerSig
  revertIf (revealSigner = 0 ∨ revealSigner ≠ record.challenger) .invalidFaultProof

/-- The objective fault proof: the leaf is in a batch that can still be disputed, and shows the fault. -/
def checkEvidence (batchId : β) (merkleProof : List β) (leaf : EvidenceLeafV2 β)
    : Result Unit := do
  revertIf (leaf.nodeId ≠ r.targetNodeId) .invalidFaultProof
  revertIf (leafHash C leaf ≠ r.evidenceLeafHash) .invalidFaultProof
  let batch := s.batches.read batchId
  revertIf (batch.merkleRoot = default ∨ batch.disputed = true) .invalidFaultProof
  revertIf (batch.disputeDeadlineEpoch < env.currentEpoch) .invalidFaultProof
  revertIf (leaf.epoch ≠ batch.epochId) .invalidFaultProof
  revertIf (MerkleProofLite.verify C merkleProof batch.merkleRoot r.evidenceLeafHash = false) .invalidFaultProof
  revertIf (s.consumedFaultEvidence.read (C.keccak256 [.bytes32 batchId, .bytes32 r.targetNodeId, .uint 8 r.faultType,
    .bytes32 r.evidenceLeafHash]) = true) .invalidFaultProof
  revertIf (faultMatches r.faultType leaf.resultCode = false) .invalidFaultProof

def revealChallenge : Result (PoSeManager β) := do
  s.checkReveal C env msg r
  match C.decodeEvidence r.evidenceData with
  | none => .error .malformedCalldata
  | some (batchId, merkleProof, leaf) =>
    s.checkEvidence C env r batchId merkleProof leaf
    let epochPlusOne ← checkedAdd 64 leaf.epoch 1
    let record := s.challenges.read r.challengeId
    return { s with
      challenges := s.challenges.set r.challengeId
        { record with revealed := true, targetNodeId := r.targetNodeId, faultType := r.faultType }
      consumedFaultEvidence := s.consumedFaultEvidence.set (C.keccak256 [.bytes32 batchId, .bytes32 r.targetNodeId,
        .uint 8 r.faultType, .bytes32 r.evidenceLeafHash]) true
      challengeFaults := s.challengeFaults.set r.challengeId ⟨true, epochPlusOne⟩ }

def forfeitBond (bond : Nat) : Result (Step β) := do
  let insurance ← checkedAdd 256 s.insuranceBalance bond
  return .done { s with insuranceBalance := insurance }

variable (challengeId : β)

def slashEpoch : Nat :=
  let proofEpochPlusOne := (s.challengeFaults.read challengeId).epochPlusOne
  if proofEpochPlusOne ≠ 0 then proofEpochPlusOne - 1 else (s.challenges.read challengeId).commitEpoch

/-- What is left of the five per cent of the bond that an epoch may cost. -/
def slashAmountFor : Result Nat := do
  let record := s.challenges.read challengeId
  let node := s.nodes.read record.targetNodeId
  let scaled ← checkedMul 256 node.bondAmount 500
  let available := scaled / bpsDenominator - s.epochNodeSlashed.read (s.slashEpoch challengeId, record.targetNodeId)
  return min available node.bondAmount

def faultConfirmed : Bool :=
  let node := s.nodes.read (s.challenges.read challengeId).targetNodeId
  (s.challengeFaults.read challengeId).confirmed && node.active && decide (0 < node.bondAmount)

/-- Half of a slash stays in the contract, three tenths go to the challenger, the rest to insurance. -/
def distributeSlash (slashAmount : Nat) : Result (Step β) := do
  let record := s.challenges.read challengeId
  let node := s.nodes.read record.targetNodeId
  let key := (s.slashEpoch challengeId, record.targetNodeId)
  let bondAmount ← checkedSub node.bondAmount slashAmount
  let slashed ← checkedAdd 256 (s.epochNodeSlashed.read key) slashAmount
  let burnShare ← checkedMul 256 slashAmount 5000
  let challengerShare ← checkedMul 256 slashAmount 3000
  let afterBurn ← checkedSub slashAmount (burnShare / bpsDenominator)
  let insuranceAmount ← checkedSub afterBurn (challengerShare / bpsDenominator)
  let insurance ← checkedAdd 256 s.insuranceBalance insuranceAmount
  let active := if bondAmount = 0 then false else node.active
  let s := { s with
    nodes := s.nodes.set record.targetNodeId { node with bondAmount := bondAmount, active := active }
    epochNodeSlashed := s.epochNodeSlashed.set key slashed
    insuranceBalance := insurance }
  let s := if bondAmount = 0 then s.removeActiveNode record.targetNodeId else s
  let payout ← checkedAdd 256 (challengerShare / bpsDenominator) record.bond
  return s.payOrCredit record.challenger payout 0

def markSettled : PoSeManager β :=
  { s with challenges := s.challenges.set challengeId ({ s.challenges.read challengeId with settled := true }) }

def settleChallenge (challengeId : β) : Result (Step β) := do
  let record := s.challenges.read challengeId
  revertIf (record.challenger = 0) .challengeNotFound
  revertIf (record.settled = true) .challengeAlreadySettled
  let settled := s.markSettled challengeId
  if record.revealed = false then
    revertIf (env.currentEpoch ≤ record.revealDeadlineEpoch) .challengeNotRevealed
    settled.forfeitBond record.bond
  else
    let adjudicated ← checkedAdd 64 record.revealDeadlineEpoch adjudicationWindowEpochs
    revertIf (env.currentEpoch < adjudicated) .adjudicationWindowNotElapsed
    if settled.faultConfirmed challengeId = true then
      let slashAmount ← settled.slashAmountFor challengeId
      if 0 < slashAmount then settled.distributeSlash challengeId slashAmount
      else return settled.payOrCredit record.challenger record.bond 0
    else settled.forfeitBond record.bond

end Challenges

def resume [Inhabited β] (s : PoSeManager β) (pending : Pending) (ok : Bool) : Result (Step β) :=
  match pending, ok with
  | .credit _ _ toBurn, true => .ok (s.afterPayment toBurn)
  | .credit payee amount toBurn, false => do
    let credited ← checkedAdd 256 (s.pendingWithdrawals.read payee) amount
    return { s with pendingWithdrawals := s.pendingWithdrawals.set payee credited }.afterPayment toBurn
  | .transfer, true => .ok (.done s)
  | .transfer, false => .error .transferFailed
  | .mint epochId totalReward, true => do
    let s ← s.fundRewards epochId totalReward
    return .done s
  | .burn, true => .ok (.done s)
  | .mint _ _, false | .burn, false => .error .externalCallFailed

end PoSeManager

end Palimesh.Settlement
