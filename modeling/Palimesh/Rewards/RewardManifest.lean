import Palimesh.Aggregator.RewardTree

namespace Palimesh.Rewards

open Collections Aggregator Settlement

/-- The integers that a number of the runtime holds exactly, and prints as they are. -/
abbrev SafeInteger := { n : Nat // n < 2 ^ 53 }

/-- Amounts are kept as decimal strings, which are given here by their values. -/
structure RewardLeafEntry where
  nodeId : Text
  amount : Int
deriving DecidableEq

structure RewardManifest where
  epochId : SafeInteger
  rewardRoot : Text
  totalReward : Int
  leaves : List RewardLeafEntry
  proofs : InsertionMap Text (List Text)
  settled : Option Bool
  sourceTotalReward : Option Int
  settlementBudgetWei : Option Int
  settledAtMs : Option Nat

/-- How strings compare in the locale of the process. -/
structure Collation where
  le : Text → Text → Bool
  total : ∀ a b, le a b = true ∨ le b a = true
  trans : ∀ a b c, le a b = true → le b c = true → le a c = true

structure ScaledLeaf where
  nodeId : Text
  amount : Int
  rawAmount : Int

section Scaling

def Collation.ranks (collation : Collation) (a b : ScaledLeaf) : Bool :=
  if a.rawAmount = b.rawAmount then collation.le a.nodeId b.nodeId else decide (b.rawAmount < a.rawAmount)

def ScaledLeaf.increment (leaf : ScaledLeaf) : ScaledLeaf := { leaf with amount := leaf.amount + 1 }

def scaleLeaf (budgetWei sourceTotalReward : Int) (leaf : RewardLeafEntry) : ScaledLeaf where
  nodeId := leaf.nodeId
  amount := if leaf.amount ≤ 0 then 0 else (leaf.amount * budgetWei).tdiv sourceTotalReward
  rawAmount := leaf.amount

/-- One more for each of the ranked leaves, which come with their positions, until nothing is left over. -/
def addRemainder : List (ScaledLeaf × Nat) → Int → List ScaledLeaf → List ScaledLeaf
  | [], _, leaves => leaves
  | (leaf, i) :: ranked, remainder, leaves =>
    if leaf.rawAmount ≤ 0 then addRemainder ranked remainder leaves
    else
      let raised := leaves.modify i ScaledLeaf.increment
      if remainder - 1 = 0 then raised else addRemainder ranked (remainder - 1) raised

variable (collation : Collation)

def scaleLeaves (manifest : RewardManifest) (budgetWei sourceTotalReward : Int) : List ScaledLeaf :=
  if budgetWei ≤ 0 ∨ sourceTotalReward ≤ 0 ∨ manifest.leaves.length = 0 then
    manifest.leaves.map fun leaf => ⟨leaf.nodeId, 0, leaf.amount⟩
  else
    let leaves := manifest.leaves.map (scaleLeaf budgetWei sourceTotalReward)
    let distributed := (leaves.map ScaledLeaf.amount).sum
    let remainder := budgetWei - distributed
    if 0 < remainder then
      let ranked := leaves.zipIdx.mergeSort fun a b => collation.ranks a.1 b.1
      addRemainder ranked remainder leaves
    else leaves

def toBytes32NodeId (nodeId : Text) : Text :=
  let normalized := lowerCase nodeId
  if normalized.length = 42 then toHex32 (padStart 64 (normalized.drop 2)) else normalized

def rewardLeaves (manifest : RewardManifest) (scaledLeaves : List ScaledLeaf) : List RewardLeaf :=
  (scaledLeaves.filter fun leaf => decide (0 < leaf.amount)).map fun leaf =>
    ⟨manifest.epochId.1, toBytes32NodeId leaf.nodeId, leaf.amount⟩

def createSettledRewardManifest (keccak : Bytes → BitVec 256) (now : Nat) (manifest : RewardManifest) (budgetWei : Int) :
    Except String RewardManifest := do
  let sourceTotalReward := manifest.totalReward
  let effectiveBudget := if budgetWei < sourceTotalReward then budgetWei else sourceTotalReward
  let scaledLeaves := scaleLeaves collation manifest effectiveBudget sourceTotalReward
  let leaves := rewardLeaves manifest scaledLeaves
  let tree ← buildRewardTree keccak leaves
  return { manifest with
    rewardRoot := tree.root
    totalReward := effectiveBudget
    leaves := leaves.map fun leaf => ⟨leaf.nodeId, leaf.amount⟩
    proofs := tree.proofs
    settled := some true
    sourceTotalReward := some manifest.totalReward
    settlementBudgetWei := some budgetWei
    settledAtMs := some now }

end Scaling

section Lookup

structure RewardClaimView where
  epochId : SafeInteger
  nodeId : Text
  amount : Int
  proof : List Text
  rewardRoot : Text
  totalReward : Int
  settled : Bool

def normalizeManifestNodeId (nodeId : Text) : Text := lowerCase nodeId

def candidateManifestNodeIds (nodeId : Text) : List Text :=
  let normalized := normalizeManifestNodeId nodeId
  if normalized.length = 66 then [normalized, toHex32 (normalized.drop (normalized.length - 40))]
  else if normalized.length = 42 then [normalized, toHex32 (padStart 64 (normalized.drop 2))]
  else [normalized]

def manifestKey (epochId : SafeInteger) (candidate : Text) : Text := (toString epochId.1).toList ++ ':' :: candidate

def lookupRewardClaim (manifest : RewardManifest) (nodeId : Text) : Option RewardClaimView :=
  let normalizedNodeIds := candidateManifestNodeIds nodeId
  match manifest.leaves.find? fun entry => normalizedNodeIds.contains (normalizeManifestNodeId entry.nodeId) with
  | none => none
  | some leaf =>
    normalizedNodeIds.findSome? fun candidate =>
      (manifest.proofs.get? (manifestKey manifest.epochId candidate)).map fun proof =>
        { epochId := manifest.epochId
          nodeId := candidate
          amount := leaf.amount
          proof := proof
          rewardRoot := manifest.rewardRoot
          totalReward := manifest.totalReward
          settled := decide (manifest.settled = some true) }

end Lookup

end Palimesh.Rewards
