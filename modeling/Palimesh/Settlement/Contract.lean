import Palimesh.Collections.Mapping
import Palimesh.Protocol.Guarded

namespace Palimesh.Settlement

open Collections

export Protocol.Guarded (bind_ok pure_ok map_ok)

abbrev Bytes := List UInt8

/-- Zero is `address(0)`. -/
abbrev Address := Nat

/-- One argument of `abi.encodePacked`, with its width in bits where that is fixed. -/
inductive Field (β : Type)
  | bytes32 (value : β)
  | bytes16 (value : Nat)
  | uint (bits value : Nat)
  | account (address : Address)
  | text (value : String)
  | bytes (value : Bytes)
deriving DecidableEq

/-- An evidence leaf and how the ABI decoder reads one are part of what the contract is given. -/
structure EvidenceLeafV2 (β : Type) where
  epoch : Nat
  nodeId : β
  nonce : Nat
  tipHash : β
  tipHeight : Nat
  latencyMs : Nat
  resultCode : Nat
  witnessBitmap : Nat
deriving DecidableEq

/-- Hashing of packed arguments, `uint256(bytes32)`, the recovery precompile and `abi.decode`. -/
structure Crypto (β : Type) where
  keccak256 : List (Field β) → β
  toUint : β → Nat
  ecrecover : β → Nat → Nat → Nat → Address
  decodeEvidence : Bytes → Option (β × List β × EvidenceLeafV2 β)

inductive Revert
  | notOwner | zeroOwner | zeroAddress | alreadyInitialized | nonPayable | arithmetic | malformedCalldata
  | zeroToken | zeroFoundation | emissionAlreadyEnabled
  | invalidNodeId | nodeAlreadyRegistered | nodeNotFound | insufficientBond | tooManyNodes
  | invalidOwnershipProof | endpointAlreadyRegistered
  | epochNonceAlreadySet | legacyBatchPathSunset
  | invalidBatch | batchAlreadySubmitted | epochAlreadyFinalized | disputeWindowNotElapsed | batchesNotProcessed
  | metadataLengthMismatch | merkleRootMismatch | badReceiptIndex
  | invalidWitnessQuorum | witnessNotActive | witnessOperatorDuplicate | witnessSigReplay
  | bondTooLow | challengeNotFound | notChallengeOwner | revealWindowMissed | invalidFaultType
  | commitHashMismatch | invalidFaultProof | challengeAlreadySettled | challengeNotRevealed
  | adjudicationWindowNotElapsed
  | rewardPoolInsufficient | alreadyClaimed | invalidMerkleProof | rewardBudgetExceeded
  | transferFailed | noPendingWithdrawal | externalCallFailed
deriving DecidableEq

abbrev Result (α : Type) := Except Revert α

def revertIf (bad : Prop) [Decidable bad] (err : Revert) : Result Unit := if bad then .error err else .ok ()

@[simp] theorem revertIf_ok {bad : Prop} [Decidable bad] {err : Revert} {u : Unit} :
    revertIf bad err = .ok u ↔ ¬ bad := by
  unfold revertIf
  split <;> simp_all

def checked (fits : Prop) [Decidable fits] (value : Nat) : Result Nat :=
  if fits then .ok value else .error .arithmetic

@[simp] theorem checked_ok {fits : Prop} [Decidable fits] {value result : Nat} :
    checked fits value = .ok result ↔ fits ∧ value = result := by
  unfold checked
  by_cases h : fits
  · simp [h]
  · simp [h]

def checkedAdd (bits a b : Nat) : Result Nat := checked (a + b < 2 ^ bits) (a + b)

def checkedMul (bits a b : Nat) : Result Nat := checked (a * b < 2 ^ bits) (a * b)

def checkedSub (a b : Nat) : Result Nat := checked (b ≤ a) (a - b)

@[simp] theorem checkedAdd_ok {bits a b c : Nat} : checkedAdd bits a b = .ok c ↔ a + b < 2 ^ bits ∧ a + b = c :=
  checked_ok

@[simp] theorem checkedMul_ok {bits a b c : Nat} : checkedMul bits a b = .ok c ↔ a * b < 2 ^ bits ∧ a * b = c :=
  checked_ok

@[simp] theorem checkedSub_ok {a b c : Nat} : checkedSub a b = .ok c ↔ b ≤ a ∧ a - b = c := checked_ok

structure NodeRecord (β : Type) where
  nodeId : β
  pubkeyNode : Bytes
  serviceFlags : Nat
  serviceCommitment : β
  endpointCommitment : β
  bondAmount : Nat
  metadataHash : β
  registeredAtEpoch : Nat
  unlockEpoch : Nat
  active : Bool
deriving Inhabited

structure BatchRecord (β : Type) where
  epochId : Nat
  merkleRoot : β
  summaryHash : β
  aggregator : Address
  submittedAtEpoch : Nat
  disputeDeadlineEpoch : Nat
  finalized : Bool
  disputed : Bool
deriving Inhabited

structure ChallengeRecord (β : Type) where
  commitHash : β
  challenger : Address
  bond : Nat
  commitEpoch : Nat
  revealDeadlineEpoch : Nat
  revealed : Bool
  settled : Bool
  targetNodeId : β
  faultType : Nat
deriving Inhabited

/-- The rows of `challengeFaultConfirmed` and `challengeFaultEpochPlusOne` of one challenge. -/
structure ChallengeFault where
  confirmed : Bool
  epochPlusOne : Nat
deriving Inhabited

structure EpochRecord (β : Type) where
  challengeNonce : Nat
  batches : List β
  batchCursor : Nat
  validBatchCount : Nat
  finalized : Bool
  finalizedAt : Nat
  rewardRoot : β
  totalReward : Nat
  claimedReward : Nat
  swept : Bool
deriving Inhabited

structure PoSeManager (β : Type) where
  balance : Nat
  owner : Address
  initialized : Bool
  nodes : InsertionMap β (NodeRecord β)
  nodeOperator : InsertionMap β Address
  operatorNodeCount : InsertionMap Address Nat
  endpointCommitmentUsed : InsertionMap β Bool
  activeNodeIds : List β
  activeNodeIndex : InsertionMap β Nat
  batches : InsertionMap β (BatchRecord β)
  batchSampledLeaf : InsertionMap (β × β) Bool
  epochMerkleRootUsed : InsertionMap (Nat × β) Bool
  epochs : InsertionMap Nat (EpochRecord β)
  rewardPoolBalance : Nat
  rewardClaimed : InsertionMap (Nat × β) Bool
  challenges : InsertionMap β (ChallengeRecord β)
  challengeFaults : InsertionMap β ChallengeFault
  epochNodeSlashed : InsertionMap (Nat × β) Nat
  consumedFaultEvidence : InsertionMap β Bool
  pendingWithdrawals : InsertionMap Address Nat
  challengeBondMin : Nat
  insuranceBalance : Nat
  allowEmptyWitnessSubmission : Bool
  challengeCounter : Nat
  cocToken : Address
  genesisEpoch : Nat
  emissionEnabled : Bool
  foundationAddress : Address
  witnessSigUsed : InsertionMap β Bool
  v1SunsetEpoch : Nat
  v2SunsetEpoch : Nat

/-- The proxy before `initialize`: every storage slot is zero. Ether may have been sent there. -/
def PoSeManager.deployed {β : Type} (balance : Nat) : PoSeManager β where
  balance := balance
  owner := 0
  initialized := false
  nodes := .empty
  nodeOperator := .empty
  operatorNodeCount := .empty
  endpointCommitmentUsed := .empty
  activeNodeIds := []
  activeNodeIndex := .empty
  batches := .empty
  batchSampledLeaf := .empty
  epochMerkleRootUsed := .empty
  epochs := .empty
  rewardPoolBalance := 0
  rewardClaimed := .empty
  challenges := .empty
  challengeFaults := .empty
  epochNodeSlashed := .empty
  consumedFaultEvidence := .empty
  pendingWithdrawals := .empty
  challengeBondMin := 0
  insuranceBalance := 0
  allowEmptyWitnessSubmission := false
  challengeCounter := 0
  cocToken := 0
  genesisEpoch := 0
  emissionEnabled := false
  foundationAddress := 0
  witnessSigUsed := .empty
  v1SunsetEpoch := 0
  v2SunsetEpoch := 0

/-- What a call reads of its surroundings: the block, the proxy's own address, and the answer of the token's
    `totalMinted()` (none when it fails). -/
structure Env (β : Type) where
  timestamp : Nat
  blockNumber : Nat
  chainId : Nat
  prevrandao : Nat
  -- `blockhash(block.number - 64)`, zero for the first blocks
  histHash : β
  self : Address
  totalMinted : Option Nat

structure Msg where
  sender : Address
  value : Nat

def epochSeconds : Nat := 3600

def disputeWindowEpochs : Nat := 2

def revealWindowEpochs : Nat := 2

def adjudicationWindowEpochs : Nat := 2

def rewardClaimWindow : Nat := 7 * 24 * 3600

def bpsDenominator : Nat := 10000

def Env.currentEpoch {β : Type} (env : Env β) : Nat := env.timestamp / epochSeconds % 2 ^ 64

variable {β : Type}

def onlyOwner (s : PoSeManager β) (msg : Msg) : Result Unit := revertIf (msg.sender ≠ s.owner) .notOwner

end Palimesh.Settlement
