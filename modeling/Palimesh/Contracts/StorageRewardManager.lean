import Palimesh.Protocol.Custody
import Palimesh.Settlement.Manager

namespace Palimesh.Contracts.StorageRewardManager

open Collections Protocol Protocol.Custody Protocol.Guarded Protocol.Reentrancy
open Settlement (Crypto MerkleProofLite.verify PoSeManager.rewardLeaf)

def epochSeconds : Nat := 3600

def storageRewardPool : Nat := 400000000 * 10 ^ 18

def maxEmissionPerEpoch : Nat := storageRewardPool / (2 * 8760)

def claimWindowEpochs : Nat := 30 * 24

def payNodeBps : Nat := 7000

def payTreasuryBps : Nat := 2000

def bpsDenom : Nat := 10000

structure EpochRecord (β : Type) where
  storageRewardRoot : β
  submitted : Bool
  submittedAtEpoch : Nat
  swept : Bool
  totalMesh : Nat
  claimedMesh : Nat
deriving Inhabited

structure Storage (β : Type) where
  initialized : Bool
  meshToken : Address
  poseRegistry : Address
  treasury : Address
  owner : Address
  relayers : InsertionMap Address Bool
  startEpoch : Nat
  emissionPerEpoch : Nat
  unlockedBaseline : Nat
  rateAnchorEpoch : Nat
  totalScheduled : Nat
  totalRewarded : Nat
  totalPaidToNodes : Nat
  totalToTreasury : Nat
  totalBurned : Nat
  epochs : InsertionMap Nat (EpochRecord β)
  rewardClaimed : InsertionMap (Nat × β) Bool

def deployed {β : Type} : Storage β where
  initialized := false
  meshToken := 0
  poseRegistry := 0
  treasury := 0
  owner := 0
  relayers := .empty
  startEpoch := 0
  emissionPerEpoch := 0
  unlockedBaseline := 0
  rateAnchorEpoch := 0
  totalScheduled := 0
  totalRewarded := 0
  totalPaidToNodes := 0
  totalToTreasury := 0
  totalBurned := 0
  epochs := .empty
  rewardClaimed := .empty

inductive Revert
  | invalidInitialization | notOwner | notRelayer | zeroAddress | zeroAmount | emissionAboveMax | epochAlreadySubmitted
  | exceedsUnlocked | epochNotSubmitted | alreadyClaimed | claimWindowClosed | invalidMerkleProof
  | claimExceedsEpochBudget | nodeNotRegistered | transferFailed | sweepWindowNotElapsed | alreadySwept
  /-- A call of another contract that reverted, or of an account without code. -/
  | calleeReverted
deriving DecidableEq

/-- A block's time, and what the node registries answer (`none` when the call reverts). -/
structure Env (β : Type) where
  timestamp : UInt64
  nodeOperator : Address → β → Option Address

/-- The calls of the token a function waits for, with what it does after them. -/
inductive Pending
  | mint (operator : Address) (amount : Nat)
  | pull (payer operator : Address) (toNode toTreasury toBurn : Nat)
  | payNode (operator : Address) (toNode toTreasury toBurn : Nat)
  | payTreasury (treasury : Address) (toTreasury toBurn : Nat)
  | burn (toBurn : Nat)

inductive Call (β : Type)
  | init (meshToken poseRegistry treasury : Address) (emissionPerEpoch : Nat) (initialOwner : Address)
  | transferOwnership (newOwner : Address)
  | setTreasury (newTreasury : Address)
  | setEmissionPerEpoch (newRate : Nat)
  | setRelayer (relayer : Address) (enabled : Bool)
  | submitStorageEpoch (epochId : Nat) (rewardRoot : β) (totalMesh : Nat)
  | claim (epochId : Nat) (nodeId : β) (amount : Nat) (merkleProof : List β)
  | sweepUnclaimed (epochId : Nat)
  | payForStorage (nodeId : β) (amount : Nat)
deriving DecidableEq

def currentEpoch (timestamp : UInt64) : Nat := timestamp.toNat / epochSeconds

namespace Storage

variable {β : Type} (s : Storage β)

section Admin

variable (msg : Msg)

def onlyOwner : Result Revert Unit := revertIf (msg.sender ≠ s.owner) .notOwner

def onlyRelayer : Result Revert Unit := revertIf (s.relayers.read msg.sender = false) .notRelayer

def init (now : UInt64) (meshToken poseRegistry treasury : Address) (emissionPerEpoch : Nat) (initialOwner : Address) :
    Result Revert (Storage β) := do
  revertIf (s.initialized = true) .invalidInitialization
  revertIf (meshToken = 0 ∨ poseRegistry = 0 ∨ treasury = 0 ∨ initialOwner = 0) .zeroAddress
  revertIf (emissionPerEpoch = 0) .zeroAmount
  revertIf (maxEmissionPerEpoch < emissionPerEpoch) .emissionAboveMax
  return { s with
    initialized := true
    meshToken := meshToken
    poseRegistry := poseRegistry
    treasury := treasury
    owner := initialOwner
    emissionPerEpoch := emissionPerEpoch
    startEpoch := currentEpoch now
    rateAnchorEpoch := currentEpoch now
    unlockedBaseline := 0 }

def transferOwnership (newOwner : Address) : Result Revert (Storage β) := do
  s.onlyOwner msg
  revertIf (newOwner = 0) .zeroAddress
  return { s with owner := newOwner }

def setTreasury (newTreasury : Address) : Result Revert (Storage β) := do
  s.onlyOwner msg
  revertIf (newTreasury = 0) .zeroAddress
  return { s with treasury := newTreasury }

def setRelayer (relayer : Address) (enabled : Bool) : Result Revert (Storage β) := do
  s.onlyOwner msg
  revertIf (relayer = 0) .zeroAddress
  return { s with relayers := s.relayers.set relayer enabled }

end Admin

section Release

def unlocked (now : UInt64) : Result Revert Nat :=
  if currentEpoch now < s.rateAnchorEpoch then .ok s.unlockedBaseline
  else do
    let elapsed ← checkedAdd 256 (currentEpoch now - s.rateAnchorEpoch) 1
    let released ← checkedMul 256 elapsed s.emissionPerEpoch
    checkedAdd 256 s.unlockedBaseline released

def unlockedToDate (now : UInt64) : Result Revert Nat := do
  let unlocked ← s.unlocked now
  return if storageRewardPool < unlocked then storageRewardPool else unlocked

def setEmissionPerEpoch (now : UInt64) (msg : Msg) (newRate : Nat) : Result Revert (Storage β) := do
  s.onlyOwner msg
  revertIf (newRate = 0) .zeroAmount
  revertIf (maxEmissionPerEpoch < newRate) .emissionAboveMax
  let unlockedBaseline ← s.unlockedToDate now
  let rateAnchorEpoch ← checkedAdd 64 (currentEpoch now) 1
  return { s with
    unlockedBaseline := unlockedBaseline
    rateAnchorEpoch := rateAnchorEpoch
    emissionPerEpoch := newRate }

end Release

section Epochs

variable [DecidableEq β] [Inhabited β] (C : Crypto β)

def submitStorageEpoch (now : UInt64) (msg : Msg) (epochId : Nat) (rewardRoot : β) (totalMesh : Nat) :
    Result Revert (Storage β) := do
  s.onlyRelayer msg
  let epoch := s.epochs.read epochId
  revertIf (epoch.submitted = true) .epochAlreadySubmitted
  revertIf (totalMesh = 0 ∨ rewardRoot = default) .zeroAmount
  let totalScheduled ← checkedAdd 256 s.totalScheduled totalMesh
  let unlockedToDate ← s.unlockedToDate now
  revertIf (unlockedToDate < totalScheduled) .exceedsUnlocked
  return { s with
    epochs := s.epochs.set epochId { epoch with
      storageRewardRoot := rewardRoot
      submitted := true
      submittedAtEpoch := currentEpoch now
      totalMesh := totalMesh }
    totalScheduled := totalScheduled }

def operatorOf (env : Env β) (nodeId : β) : Result Revert Address := do
  revertIf (s.poseRegistry = 0) .calleeReverted
  match env.nodeOperator s.poseRegistry nodeId with
  | none => .error (.raised .calleeReverted)
  | some operator => do
    revertIf (operator = 0) .nodeNotRegistered
    return operator

def claim (env : Env β) (epochId : Nat) (nodeId : β) (amount : Nat) (merkleProof : List β) :
    Result Revert (Step (Storage β) Pending) := do
  let epoch := s.epochs.read epochId
  revertIf (epoch.submitted = false) .epochNotSubmitted
  revertIf (amount = 0) .zeroAmount
  revertIf (merkleProof.length = 0) .invalidMerkleProof
  revertIf (s.rewardClaimed.read (epochId, nodeId) = true) .alreadyClaimed
  let windowEnd ← checkedAdd 64 epoch.submittedAtEpoch claimWindowEpochs
  revertIf (windowEnd < currentEpoch env.timestamp) .claimWindowClosed
  revertIf (MerkleProofLite.verify C merkleProof epoch.storageRewardRoot (PoSeManager.rewardLeaf C epochId nodeId amount) = false)
    .invalidMerkleProof
  let claimed ← checkedAdd 256 epoch.claimedMesh amount
  revertIf (epoch.totalMesh < claimed) .claimExceedsEpochBudget
  let operator ← s.operatorOf env nodeId
  let totalRewarded ← checkedAdd 256 s.totalRewarded amount
  return .call { s with
    rewardClaimed := s.rewardClaimed.set (epochId, nodeId) true
    epochs := s.epochs.set epochId { epoch with claimedMesh := claimed }
    totalRewarded := totalRewarded } (.mint operator amount)

def sweepUnclaimed (now : UInt64) (epochId : Nat) : Result Revert (Storage β) := do
  let epoch := s.epochs.read epochId
  revertIf (epoch.submitted = false) .epochNotSubmitted
  revertIf (epoch.swept = true) .alreadySwept
  let windowEnd ← checkedAdd 64 epoch.submittedAtEpoch claimWindowEpochs
  revertIf (currentEpoch now ≤ windowEnd) .sweepWindowNotElapsed
  let unclaimed ← checkedSub epoch.totalMesh epoch.claimedMesh
  let totalScheduled ← checkedSub s.totalScheduled unclaimed
  return { s with
    epochs := s.epochs.set epochId { epoch with swept := true }
    totalScheduled := totalScheduled }

end Epochs

section Payments

def payForStorage (env : Env β) (msg : Msg) (nodeId : β) (amount : Nat) :
    Result Revert (Step (Storage β) Pending) := do
  revertIf (amount = 0) .zeroAmount
  let operator ← s.operatorOf env nodeId
  let nodeShare ← checkedMul 256 amount payNodeBps
  let treasuryShare ← checkedMul 256 amount payTreasuryBps
  let afterNode ← checkedSub amount (nodeShare / bpsDenom)
  let toBurn ← checkedSub afterNode (treasuryShare / bpsDenom)
  return .call s (.pull msg.sender operator (nodeShare / bpsDenom) (treasuryShare / bpsDenom) toBurn)

def burnShare (toBurn : Nat) : Step (Storage β) Pending := if 0 < toBurn then .call s (.burn toBurn) else .done s

def payTreasuryShare (toTreasury toBurn : Nat) : Step (Storage β) Pending :=
  if 0 < toTreasury then .call s (.payTreasury s.treasury toTreasury toBurn) else s.burnShare toBurn

def payNodeShare (operator : Address) (toNode toTreasury toBurn : Nat) : Step (Storage β) Pending :=
  if 0 < toNode then .call s (.payNode operator toNode toTreasury toBurn) else s.payTreasuryShare toTreasury toBurn

/-- A call of the token that reverts, or does not return true, undoes the whole call. -/
def resume (pending : Pending) (ok : Bool) : Result Revert (Step (Storage β) Pending) :=
  if ok = false then .error (.raised .transferFailed)
  else
    match pending with
    | .mint _ _ | .burn _ => .ok (.done s)
    | .payTreasury _ _ toBurn => .ok (s.burnShare toBurn)
    | .payNode _ _ toTreasury toBurn => .ok (s.payTreasuryShare toTreasury toBurn)
    | .pull _ operator toNode toTreasury toBurn => do
      let totalPaidToNodes ← checkedAdd 256 s.totalPaidToNodes toNode
      let totalToTreasury ← checkedAdd 256 s.totalToTreasury toTreasury
      let totalBurned ← checkedAdd 256 s.totalBurned toBurn
      let accounted := { s with
        totalPaidToNodes := totalPaidToNodes
        totalToTreasury := totalToTreasury
        totalBurned := totalBurned }
      return accounted.payNodeShare operator toNode toTreasury toBurn

end Payments

variable [DecidableEq β] [Inhabited β]

def dispatch (C : Crypto β) (env : Env β) (msg : Msg) : Call β → Result Revert (Step (Storage β) Pending)
  | .init meshToken poseRegistry treasury emissionPerEpoch initialOwner =>
    (s.init env.timestamp meshToken poseRegistry treasury emissionPerEpoch initialOwner).map .done
  | .transferOwnership newOwner => (s.transferOwnership msg newOwner).map .done
  | .setTreasury newTreasury => (s.setTreasury msg newTreasury).map .done
  | .setEmissionPerEpoch newRate => (s.setEmissionPerEpoch env.timestamp msg newRate).map .done
  | .setRelayer relayer enabled => (s.setRelayer msg relayer enabled).map .done
  | .submitStorageEpoch epochId rewardRoot totalMesh =>
    (s.submitStorageEpoch env.timestamp msg epochId rewardRoot totalMesh).map .done
  | .claim epochId nodeId amount merkleProof => s.claim C env epochId nodeId amount merkleProof
  | .sweepUnclaimed epochId => (s.sweepUnclaimed env.timestamp epochId).map .done
  | .payForStorage nodeId amount => s.payForStorage env msg nodeId amount

end Storage

variable {β : Type} [DecidableEq β] [Inhabited β]

def contract (C : Crypto β) : Contract (Storage β) (Call β) Pending (Env β) Revert where
  payable := fun _ => false
  receives := false
  dispatch := fun s _ env msg call => s.dispatch C env msg call
  resume := Storage.resume

/-- The registries may change their answers at any moment, the time only from block to block. -/
def setting : Setting (Storage β) (Call β) (Env β) where
  callable := fun _ message => message.1.sender ≠ 0
  later := fun env next => env.timestamp ≤ next.timestamp
  shifted := fun env next => env.timestamp = next.timestamp
  forced := True

instance : (setting : Setting (Storage β) (Call β) (Env β)).Decides where
  callable := fun _ _ => inferInstanceAs (Decidable (¬ _))
  later := fun env next => inferInstanceAs (Decidable (env.timestamp ≤ next.timestamp))
  shifted := fun env next => inferInstanceAs (Decidable (env.timestamp = next.timestamp))
  forced := .isTrue trivial

end Palimesh.Contracts.StorageRewardManager
