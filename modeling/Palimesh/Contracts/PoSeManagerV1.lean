import Palimesh.Protocol.Custody
import Palimesh.Settlement.Manager

namespace Palimesh.Contracts.PoSeManagerV1

open Collections Protocol Protocol.Custody Protocol.Guarded Protocol.Reentrancy
open Settlement (Bytes Crypto NodeRecord BatchRecord SampleProof Registration MerkleProofLite.verify)

def epochSeconds : Nat := 3600

def disputeWindowEpochs : Nat := 2

def unbondDelayEpochs : Nat := 7 * 24

def minBond : Nat := 2 * 10 ^ 16

def maxNodesPerOperator : Nat := 5

def maxRewardPerNodeBps : Nat := 3000

def bpsDenominator : Nat := 10000

def requiredBond (existingNodeCount : Nat) : Nat := minBond * 2 ^ existingNodeCount % 2 ^ 256

structure SlashEvidence (β : Type) where
  nodeId : β
  evidenceHash : β
  reasonCode : Nat
  rawEvidence : Bytes
deriving DecidableEq

structure EpochReward (β : Type) where
  nodeId : β
  amount : Nat
deriving DecidableEq

structure Storage (β : Type) where
  initialized : Bool
  owner : Address
  slashers : InsertionMap Address Bool
  nodes : InsertionMap β (NodeRecord β)
  nodeOperator : InsertionMap β Address
  operatorNodeCount : InsertionMap Address Nat
  epochBatches : InsertionMap Nat (List β)
  batches : InsertionMap β (BatchRecord β)
  batchSampledLeaf : InsertionMap (β × β) Bool
  usedReplayKeys : InsertionMap β Bool
  epochFinalized : InsertionMap Nat Bool
  unbondRequested : InsertionMap β Bool
  endpointCommitmentUsed : InsertionMap β Bool
  rewardPoolBalance : Nat
  epochRewardsDistributed : InsertionMap Nat Bool
  pendingRewards : InsertionMap β Nat

def deployed {β : Type} : Storage β where
  initialized := false
  owner := 0
  slashers := .empty
  nodes := .empty
  nodeOperator := .empty
  operatorNodeCount := .empty
  epochBatches := .empty
  batches := .empty
  batchSampledLeaf := .empty
  usedReplayKeys := .empty
  epochFinalized := .empty
  unbondRequested := .empty
  endpointCommitmentUsed := .empty
  rewardPoolBalance := 0
  epochRewardsDistributed := .empty
  pendingRewards := .empty

inductive Revert
  | notOwner | missingRole | zeroOwner | invalidInitialization
  | invalidNodeId | nodeAlreadyRegistered | nodeNotFound | notNodeOperator | invalidBatch | batchAlreadySubmitted
  | batchAlreadyDisputed | batchAlreadyFinalized | invalidEpoch | disputeWindowClosed | epochAlreadyFinalized
  | disputeWindowNotElapsed | noFinalizableBatch | invalidSlashEvidence | evidenceAlreadyUsed | alreadyUnbonding
  | unlockNotReached | noBondToWithdraw | transferFailed | insufficientBond | tooManyNodes | invalidOwnershipProof
  | endpointAlreadyRegistered | nodeNotSlashable | invalidVValue
deriving DecidableEq

/-- Both payments of the contract have to go through. -/
inductive Pending
  | transfer

/-- The external functions that can change the contract; upgrades are not modelled. -/
inductive Call (β : Type)
  | init (initialOwner : Address)
  | transferOwnership (newOwner : Address)
  | setSlasher (account : Address) (enabled : Bool)
  | registerNode (registration : Registration β)
  | updateCommitment (nodeId newCommitment : β)
  | submitBatch (epochId : Nat) (merkleRoot summaryHash : β) (sampleProofs : List (SampleProof β))
  | challengeBatch (batchId receiptLeaf : β) (merkleProof : List β) (invalidityEvidence : Bytes)
  | finalizeEpoch (epochId : Nat)
  | slash (nodeId : β) (evidence : SlashEvidence β)
  | requestUnbond (nodeId : β)
  | withdraw (nodeId : β)
  | depositRewardPool
  | distributeRewards (epochId : Nat) (rewards : List (EpochReward β))
  | claimReward (nodeId : β)
deriving DecidableEq

def Call.payable {β : Type} : Call β → Bool
  | .registerNode _ | .depositRewardPool => true
  | _ => false

def currentEpoch (now : UInt64) : Nat := now.toNat / epochSeconds

def slashBps (reasonCode : Nat) : Nat :=
  if reasonCode = 1 then 2000
  else if reasonCode = 2 then 1500
  else if reasonCode = 3 then 500
  else if reasonCode = 4 then 3000
  else 1000

/-- The part of a bond that is slashed, at least one wei and at most all of it. -/
def slashAmountOf (bondAmount reasonCode : Nat) : Nat :=
  let share := bondAmount * slashBps reasonCode / bpsDenominator
  let atLeastOne := if share = 0 ∧ 0 < bondAmount then 1 else share
  if bondAmount < atLeastOne then bondAmount else atLeastOne

section Signatures

variable {β : Type} (C : Crypto β)

def pubkeyToAddress (pubkey : Bytes) : Result Revert Address :=
  if pubkey.length = 65 then .ok (C.toUint (C.keccak256 [.bytes pubkey.tail]) % 2 ^ 160)
  else if pubkey.length = 64 then .ok (C.toUint (C.keccak256 [.bytes pubkey]) % 2 ^ 160)
  else .error (.raised .invalidNodeId)

/-- `_verifyOwnership` and `_verifyEndpointAttestation`: the node's key signed the message. -/
def verifyNodeSignature (messageHash : β) (pubkeyNode sig : Bytes) : Result Revert Unit := do
  revertIf (sig.length ≠ 65) .invalidOwnershipProof
  let given := (sig.getD 64 0).toNat
  let v := if given < 27 then given + 27 else given
  let s := Settlement.uintOfBytes ((sig.drop 32).take 32)
  revertIf (v ≠ 27 ∧ v ≠ 28) .invalidVValue
  revertIf (Settlement.secp256k1nHalf < s) .invalidOwnershipProof
  let recovered := C.ecrecover (Settlement.ethSignedHash C messageHash) v (Settlement.uintOfBytes (sig.take 32)) s
  revertIf (recovered = 0) .invalidOwnershipProof
  let nodeAddr ← pubkeyToAddress C pubkeyNode
  revertIf (recovered ≠ nodeAddr) .invalidOwnershipProof

end Signatures

namespace Storage

variable {β : Type} (s : Storage β)

section Roles

def onlyOwner (msg : Msg) : Result Revert Unit := revertIf (msg.sender ≠ s.owner) .notOwner

def onlySlasher (msg : Msg) : Result Revert Unit := revertIf (s.slashers.read msg.sender = false) .missingRole

def init (initialOwner : Address) : Result Revert (Storage β) := do
  revertIf (s.initialized = true) .invalidInitialization
  revertIf (initialOwner = 0) .zeroOwner
  return { s with initialized := true, owner := initialOwner, slashers := s.slashers.set initialOwner true }

def transferOwnership (msg : Msg) (newOwner : Address) : Result Revert (Storage β) := do
  s.onlyOwner msg
  revertIf (newOwner = 0) .zeroOwner
  return { s with owner := newOwner }

def setSlasher (msg : Msg) (account : Address) (enabled : Bool) : Result Revert (Storage β) := do
  s.onlyOwner msg
  return { s with slashers := s.slashers.set account enabled }

end Roles

variable [DecidableEq β] [Inhabited β] (C : Crypto β)

section Batches

def checkSamples (batchId merkleRoot : β) : List (SampleProof β) → InsertionMap (β × β) Bool → β → Option Nat →
    Result Revert (InsertionMap (β × β) Bool × β)
  | [], sampled, commitment, _ => .ok (sampled, commitment)
  | proof :: rest, sampled, commitment, lastLeafIndex => do
    revertIf (proof.leaf = default) .invalidBatch
    revertIf (proof.merkleProof.length = 0) .invalidBatch
    revertIf (∃ last ∈ lastLeafIndex, proof.leafIndex ≤ last) .invalidBatch
    revertIf (sampled.read (batchId, proof.leaf) = true) .invalidBatch
    revertIf (MerkleProofLite.verify C proof.merkleProof merkleRoot proof.leaf = false) .invalidBatch
    checkSamples batchId merkleRoot rest (sampled.set (batchId, proof.leaf) true)
      (C.keccak256 [.bytes32 commitment, .uint 32 proof.leafIndex, .bytes32 proof.leaf]) (some proof.leafIndex)

variable (now : UInt64)

def submitBatch (msg : Msg) (epochId : Nat) (merkleRoot summaryHash : β) (sampleProofs : List (SampleProof β))
    : Result Revert (Storage β) := do
  revertIf (merkleRoot = default ∨ summaryHash = default) .invalidBatch
  revertIf (currentEpoch now < epochId) .invalidEpoch
  revertIf (s.epochFinalized.read epochId = true) .epochAlreadyFinalized
  revertIf (sampleProofs.length = 0) .invalidBatch
  revertIf (2 ^ 16 ≤ sampleProofs.length) .invalidBatch
  let batchId := C.keccak256 [.uint 64 epochId, .bytes32 merkleRoot, .bytes32 summaryHash, .account msg.sender]
  revertIf ((s.batches.read batchId).merkleRoot ≠ default) .batchAlreadySubmitted
  let (sampled, commitment) ← checkSamples C batchId merkleRoot sampleProofs s.batchSampledLeaf default none
  let expectedSummary := C.keccak256 [.uint 64 epochId, .bytes32 merkleRoot, .bytes32 commitment,
    .uint 32 sampleProofs.length]
  revertIf (summaryHash ≠ expectedSummary) .invalidBatch
  let disputeDeadlineEpoch ← checkedAdd 64 (currentEpoch now) disputeWindowEpochs
  return { s with
    batchSampledLeaf := sampled
    batches := s.batches.set batchId
      { epochId := epochId
        merkleRoot := merkleRoot
        summaryHash := summaryHash
        aggregator := msg.sender
        submittedAtEpoch := currentEpoch now
        disputeDeadlineEpoch := disputeDeadlineEpoch
        finalized := false
        disputed := false }
    epochBatches := s.epochBatches.set epochId (s.epochBatches.read epochId ++ [batchId]) }

def checkInvalidity (invalidityEvidence : Bytes) : Result Revert Unit :=
  match invalidityEvidence with
  | [] => .ok ()
  | reason :: _ => do
    revertIf (reason = 0) .invalidSlashEvidence
    revertIf (reason = 1 ∧ invalidityEvidence.length < 33) .invalidSlashEvidence
    revertIf (reason = 2 ∧ invalidityEvidence.length < 66) .invalidSlashEvidence

def challengeBatch (msg : Msg) (batchId receiptLeaf : β) (merkleProof : List β) (invalidityEvidence : Bytes)
    : Result Revert (Storage β) := do
  s.onlySlasher msg
  let batch := s.batches.read batchId
  revertIf (batch.merkleRoot = default) .invalidBatch
  revertIf (batch.finalized = true) .batchAlreadyFinalized
  revertIf (batch.disputed = true) .batchAlreadyDisputed
  revertIf (batch.disputeDeadlineEpoch < currentEpoch now) .disputeWindowClosed
  revertIf (receiptLeaf = default ∨ merkleProof.length = 0) .invalidBatch
  revertIf (MerkleProofLite.verify C merkleProof batch.merkleRoot receiptLeaf = false) .invalidBatch
  revertIf (s.batchSampledLeaf.read (batchId, receiptLeaf) = true) .invalidBatch
  checkInvalidity invalidityEvidence
  let replayKey := C.keccak256 [.text "challenge-batch", .bytes32 batchId, .bytes32 receiptLeaf]
  revertIf (s.usedReplayKeys.read replayKey = true) .evidenceAlreadyUsed
  return { s with
    usedReplayKeys := s.usedReplayKeys.set replayKey true
    batches := s.batches.set batchId { batch with disputed := true } }

def finalizeBatch (state : InsertionMap β (BatchRecord β) × Nat) (batchId : β) :
    Result Revert (InsertionMap β (BatchRecord β) × Nat) :=
  let batch := state.1.read batchId
  if batch.finalized = true ∨ batch.disputed = true then .ok state
  else do
    revertIf (currentEpoch now ≤ batch.disputeDeadlineEpoch) .disputeWindowNotElapsed
    let validCount ← checkedAdd 32 state.2 1
    return (state.1.set batchId { batch with finalized := true }, validCount)

def finalizeEpoch (epochId : Nat) : Result Revert (Storage β) := do
  revertIf (s.epochFinalized.read epochId = true) .epochAlreadyFinalized
  let windowEnd ← checkedAdd 64 epochId disputeWindowEpochs
  revertIf (currentEpoch now ≤ windowEnd) .disputeWindowNotElapsed
  let (batches, validCount) ← (s.epochBatches.read epochId).foldlM (finalizeBatch now) (s.batches, 0)
  revertIf (validCount = 0) .noFinalizableBatch
  return { s with batches := batches, epochFinalized := s.epochFinalized.set epochId true }

end Batches

section Nodes

variable (now : UInt64) (msg : Msg)

def checkRegistration (r : Registration β) : Result Revert Unit := do
  revertIf (msg.value < requiredBond (s.operatorNodeCount.read msg.sender)) .insufficientBond
  revertIf (maxNodesPerOperator ≤ s.operatorNodeCount.read msg.sender) .tooManyNodes
  revertIf (r.nodeId = default ∨ C.keccak256 [.bytes r.pubkeyNode] ≠ r.nodeId) .invalidNodeId
  revertIf ((s.nodes.read r.nodeId).active = true) .nodeAlreadyRegistered
  revertIf (s.endpointCommitmentUsed.read r.endpointCommitment = true) .endpointAlreadyRegistered
  verifyNodeSignature C (C.keccak256 [.text "coc-register:", .bytes32 r.nodeId, .account msg.sender]) r.pubkeyNode
    r.ownershipSig
  if 0 < r.endpointAttestation.length then
    verifyNodeSignature C (C.keccak256 [.text "coc-endpoint:", .bytes32 r.endpointCommitment, .bytes32 r.nodeId])
      r.pubkeyNode r.endpointAttestation
  else return ()

def registerNode (r : Registration β) : Result Revert (Storage β) := do
  s.checkRegistration C msg r
  let unlockEpoch ← checkedAdd 64 (currentEpoch now) (7 * 24)
  let count ← checkedAdd 8 (s.operatorNodeCount.read msg.sender) 1
  return { s with
    endpointCommitmentUsed := s.endpointCommitmentUsed.set r.endpointCommitment true
    nodes := s.nodes.set r.nodeId
      { nodeId := r.nodeId
        pubkeyNode := r.pubkeyNode
        serviceFlags := r.serviceFlags
        serviceCommitment := r.serviceCommitment
        endpointCommitment := r.endpointCommitment
        bondAmount := msg.value
        metadataHash := r.metadataHash
        registeredAtEpoch := currentEpoch now
        unlockEpoch := unlockEpoch
        active := true }
    nodeOperator := s.nodeOperator.set r.nodeId msg.sender
    operatorNodeCount := s.operatorNodeCount.set msg.sender count }

def updateCommitment (nodeId newCommitment : β) : Result Revert (Storage β) := do
  let node := s.nodes.read nodeId
  revertIf (node.active = false) .nodeNotFound
  revertIf (s.nodeOperator.read nodeId ≠ msg.sender) .notNodeOperator
  return { s with nodes := s.nodes.set nodeId { node with serviceCommitment := newCommitment } }

/-- `_validateSlashEvidence`; `word` reads 32 bytes as a node id. -/
def validateSlashEvidence (word : Bytes → β) (reasonCode : Nat) (rawEvidence : Bytes) (nodeId : β) :
    Result Revert Unit := do
  revertIf (rawEvidence.length < 64) .invalidSlashEvidence
  revertIf (word ((rawEvidence.drop 32).take 32) ≠ nodeId) .invalidSlashEvidence
  revertIf (reasonCode = 2 ∧ rawEvidence.length < 129) .invalidSlashEvidence

def slash (word : Bytes → β) (msg : Msg) (nodeId : β) (evidence : SlashEvidence β) : Result Revert (Storage β) := do
  s.onlySlasher msg
  let node := s.nodes.read nodeId
  revertIf (node.nodeId = default) .nodeNotFound
  revertIf (node.bondAmount = 0) .nodeNotSlashable
  revertIf (evidence.evidenceHash = default) .invalidSlashEvidence
  revertIf (evidence.nodeId ≠ nodeId) .invalidSlashEvidence
  revertIf (evidence.reasonCode = 0) .invalidSlashEvidence
  revertIf (evidence.evidenceHash ≠ C.keccak256 [.bytes evidence.rawEvidence]) .invalidSlashEvidence
  validateSlashEvidence word evidence.reasonCode evidence.rawEvidence nodeId
  let replayKey := C.keccak256 [.text "slash-evidence", .bytes32 nodeId, .uint 8 evidence.reasonCode,
    .bytes32 evidence.evidenceHash]
  revertIf (s.usedReplayKeys.read replayKey = true) .evidenceAlreadyUsed
  let _ ← checkedMul 256 node.bondAmount (slashBps evidence.reasonCode)
  let bondAmount ← checkedSub node.bondAmount (slashAmountOf node.bondAmount evidence.reasonCode)
  return { s with
    usedReplayKeys := s.usedReplayKeys.set replayKey true
    nodes := s.nodes.set nodeId { node with bondAmount := bondAmount, active := node.active && bondAmount ≠ 0 } }

def requestUnbond (nodeId : β) : Result Revert (Storage β) := do
  let node := s.nodes.read nodeId
  revertIf (node.active = false) .nodeNotFound
  revertIf (s.nodeOperator.read nodeId ≠ msg.sender) .notNodeOperator
  revertIf (s.unbondRequested.read nodeId = true) .alreadyUnbonding
  let unlockEpoch ← checkedAdd 64 (currentEpoch now) unbondDelayEpochs
  return { s with
    nodes := s.nodes.set nodeId { node with unlockEpoch := unlockEpoch, active := false }
    unbondRequested := s.unbondRequested.set nodeId true
    endpointCommitmentUsed := s.endpointCommitmentUsed.set node.endpointCommitment false
    operatorNodeCount := s.operatorNodeCount.set msg.sender (s.operatorNodeCount.read msg.sender - 1) }

def withdraw (nodeId : β) : Result Revert (Step (Storage β) Pending) := do
  let node := s.nodes.read nodeId
  revertIf (s.nodeOperator.read nodeId ≠ msg.sender) .notNodeOperator
  revertIf (s.unbondRequested.read nodeId = false) .nodeNotFound
  revertIf (currentEpoch now < node.unlockEpoch) .unlockNotReached
  revertIf (node.bondAmount = 0) .noBondToWithdraw
  return .pay { s with
    nodes := s.nodes.set nodeId { node with bondAmount := 0 }
    unbondRequested := s.unbondRequested.set nodeId false } msg.sender node.bondAmount .transfer

end Nodes

section Rewards

def depositRewardPool (msg : Msg) : Result Revert (Storage β) := do
  revertIf (msg.value = 0) .insufficientBond
  let rewardPoolBalance ← checkedAdd 256 s.rewardPoolBalance msg.value
  return { s with rewardPoolBalance := rewardPoolBalance }

def distributeOne (maxPerNode : Nat) (state : InsertionMap β Nat × Nat) (reward : EpochReward β) :
    Result Revert (InsertionMap β Nat × Nat) :=
  if (s.nodes.read reward.nodeId).active = false then .ok state
  else do
    let capped := if maxPerNode < reward.amount then maxPerNode else reward.amount
    let sum ← checkedAdd 256 state.2 capped
    let amt := if s.rewardPoolBalance < sum then s.rewardPoolBalance - state.2 else capped
    if amt = 0 then return state
    let pending ← checkedAdd 256 (state.1.read reward.nodeId) amt
    return (state.1.set reward.nodeId pending, state.2 + amt)

def distributeRewards (msg : Msg) (epochId : Nat) (rewards : List (EpochReward β)) : Result Revert (Storage β) := do
  s.onlySlasher msg
  revertIf (s.epochFinalized.read epochId = false) .invalidEpoch
  revertIf (s.epochRewardsDistributed.read epochId = true) .epochAlreadyFinalized
  let scaled ← checkedMul 256 s.rewardPoolBalance maxRewardPerNodeBps
  let (pendingRewards, totalDistributed) ←
    rewards.foldlM (s.distributeOne (scaled / bpsDenominator)) (s.pendingRewards, 0)
  let rewardPoolBalance ← checkedSub s.rewardPoolBalance totalDistributed
  return { s with
    pendingRewards := pendingRewards
    rewardPoolBalance := rewardPoolBalance
    epochRewardsDistributed := s.epochRewardsDistributed.set epochId true }

def claimReward (msg : Msg) (nodeId : β) : Result Revert (Step (Storage β) Pending) := do
  revertIf (s.nodeOperator.read nodeId ≠ msg.sender) .notNodeOperator
  let amount := s.pendingRewards.read nodeId
  revertIf (amount = 0) .noBondToWithdraw
  return .pay { s with pendingRewards := s.pendingRewards.set nodeId 0 } msg.sender amount .transfer

end Rewards

def dispatch (word : Bytes → β) (now : UInt64) (msg : Msg) : Call β → Result Revert (Step (Storage β) Pending)
  | .init initialOwner => (s.init initialOwner).map .done
  | .transferOwnership newOwner => (s.transferOwnership msg newOwner).map .done
  | .setSlasher account enabled => (s.setSlasher msg account enabled).map .done
  | .registerNode registration => (s.registerNode C now msg registration).map .done
  | .updateCommitment nodeId newCommitment => (s.updateCommitment msg nodeId newCommitment).map .done
  | .submitBatch epochId merkleRoot summaryHash sampleProofs =>
    (s.submitBatch C now msg epochId merkleRoot summaryHash sampleProofs).map .done
  | .challengeBatch batchId receiptLeaf merkleProof invalidityEvidence =>
    (s.challengeBatch C now msg batchId receiptLeaf merkleProof invalidityEvidence).map .done
  | .finalizeEpoch epochId => (s.finalizeEpoch now epochId).map .done
  | .slash nodeId evidence => (s.slash C word msg nodeId evidence).map .done
  | .requestUnbond nodeId => (s.requestUnbond now msg nodeId).map .done
  | .withdraw nodeId => s.withdraw now msg nodeId
  | .depositRewardPool => (s.depositRewardPool msg).map .done
  | .distributeRewards epochId rewards => (s.distributeRewards msg epochId rewards).map .done
  | .claimReward nodeId => s.claimReward msg nodeId

omit [DecidableEq β] [Inhabited β] in
def resume (_ : Pending) (ok : Bool) : Result Revert (Step (Storage β) Pending) :=
  if ok then .ok (.done s) else .error (.raised .transferFailed)

end Storage

variable {β : Type} [DecidableEq β] [Inhabited β] (C : Crypto β) (word : Bytes → β)

/-- The surroundings are the time, which a block header holds in 64 bits. -/
def contract : Contract (Storage β) (Call β) Pending UInt64 Revert where
  payable := Call.payable
  receives := false
  dispatch := fun s _ now msg call => s.dispatch C word now msg call
  resume := Storage.resume

/-- No ether comes in but with a call. -/
def setting : Setting (Storage β) (Call β) UInt64 where
  callable := fun w message => message.1.sender ≠ w.self ∧ message.1.sender ≠ 0
  later := fun now next => now ≤ next
  shifted := fun _ _ => False
  forced := False

instance : (setting : Setting (Storage β) (Call β) UInt64).Decides where
  callable := fun _ _ => inferInstanceAs (Decidable (_ ∧ _))
  later := fun now next => inferInstanceAs (Decidable (now ≤ next))
  shifted := fun _ _ => .isFalse id
  forced := .isFalse id

end Palimesh.Contracts.PoSeManagerV1
