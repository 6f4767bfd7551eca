import Palimesh.Aggregator.RewardTree
import Palimesh.Contracts.StorageClaims
import Palimesh.Settlement.RewardClaims

namespace Palimesh.Contracts

open Aggregator Collections Protocol Protocol.Reentrancy StorageRewardManager List
open Settlement (MerkleProofLite.verify PoSeManager.rewardLeaf PoSeManager Claim ClaimBook claimsAt rewardClaimWindow)
open StorageRewardManager (claimWindowEpochs currentEpoch)

def rewardTotal (leaves : List RewardLeaf) : Nat := (leaves.map fun leaf => leaf.amount.toNat).sum

def Listed (tree : RewardTree) (leaves : List RewardLeaf) (claim : Claim (BitVec 256)) : Prop :=
  tree.Lists leaves claim.nodeId claim.amount claim.merkleProof

/-- The claims made in an epoch are rewards of the tree, each made once; a claim is taken if and only if it is one
    of the others and in the window, and it can then be completed. -/
structure Exact (tree : RewardTree) (leaves : List RewardLeaf) (made : List (Claim (BitVec 256))) (inWindow : Prop)
    (taken completes : Claim (BitVec 256) → Prop) : Prop where
  once : (made.map Claim.nodeId).Nodup
  listed : ∀ claim ∈ made, Listed tree leaves claim
  refuses : ∀ claim, taken claim → inWindow ∧ Listed tree leaves claim ∧ claim.nodeId ∉ made.map Claim.nodeId
  accepts : ∀ claim, inWindow → Listed tree leaves claim → claim.nodeId ∉ made.map Claim.nodeId → completes claim

variable {chain : Chain} {epochId : Nat} {leaves : List RewardLeaf} {tree : RewardTree} {isOpen : Bool} {claimed : Nat}
  {marked : BitVec 256 → Bool} {claims : List (Claim (BitVec 256))}

theorem RewardTree.Lists.mem {nodeId : BitVec 256} {amount : Nat} {merkleProof : List (BitVec 256)}
    (lists : tree.Lists leaves nodeId amount merkleProof) :
    (nodeId, amount) ∈ leaves.map fun leaf => (bytes32 leaf.nodeId, leaf.amount.toNat) := by
  obtain ⟨leaf, member, rfl, same, -⟩ := lists
  refine mem_map.mpr ⟨leaf, member, ?_⟩
  rw [same, Int.toNat_natCast]

theorem rewarded_within {s : Storage (BitVec 256)} {now : UInt64} {amount : Nat} (sound : StorageRewardManager.Sound s now)
    (submitted : (s.epochs.read epochId).submitted = true)
    (inWindow : currentEpoch now ≤ (s.epochs.read epochId).submittedAtEpoch + claimWindowEpochs)
    (budget : (s.epochs.read epochId).claimedMesh + amount ≤ (s.epochs.read epochId).totalMesh) :
    s.totalRewarded + amount ≤ storageRewardPool ∧ (s.epochs.read epochId).totalMesh ≤ storageRewardPool := by
  have unswept : (s.epochs.read epochId).swept = false := by
    cases swept : (s.epochs.read epochId).swept with
    | true => exact absurd ((sound.epochs epochId).late swept) (not_lt.mpr inWindow)
    | false => rfl
  have part := s.epochs.le_total unclaimed_default epochId
  have whole := s.epochs.le_total unswept_default epochId
  have rewarded := sound.rewarded
  have scheduled := sound.scheduled
  have released := sound.released
  have capped : s.released now ≤ storageRewardPool := min_le_left _ _
  rw [EpochRecord.unclaimed, if_pos ⟨submitted, unswept⟩] at part
  rw [EpochRecord.unswept, if_pos ⟨submitted, unswept⟩] at whole
  omega

section Claims

variable (rewards : ValidRewards epochId leaves) (built : buildRewardTree chain.keccak leaves = .ok tree)
  (binding : Binding chain tree)

section Book

variable (book : ClaimBook chain.crypto epochId (bytes32 tree.root) isOpen claimed marked claims)
include book

theorem within_total (listed : ∀ claim ∈ claims, Listed tree leaves claim) {claim : Claim (BitVec 256)}
    (lists : Listed tree leaves claim) (fresh : claim.nodeId ∉ claims.map Claim.nodeId) : claimed + claim.amount ≤ rewardTotal leaves := by
  have unmarked : marked claim.nodeId = false := by
    rw [← Bool.not_eq_true]
    exact mt (book.marked claim.nodeId).mp fresh
  have bound := book.within (fun claim member => RewardTree.Lists.mem (listed claim member)) (RewardTree.Lists.mem lists) unmarked
  rw [map_map] at bound
  exact bound

include rewards built binding

theorem ValidRewards.listed : ∀ claim ∈ claims, Listed tree leaves claim := by
  intro claim member
  obtain ⟨-, small, proved⟩ := book.proved claim member
  exact (rewards.verify_iff built binding small).mp proved

end Book

include rewards built binding

theorem Exact.of_book {inWindow : Prop} {taken completes : Claim (BitVec 256) → Prop} {root : BitVec 256}
    (book : ClaimBook chain.crypto epochId root isOpen claimed marked claims) (rooted : root = bytes32 tree.root)
    (refuses : ∀ claim, taken claim → inWindow ∧ claim.amount < 2 ^ 256 ∧ marked claim.nodeId = false ∧
      MerkleProofLite.verify chain.crypto claim.merkleProof root
        (PoSeManager.rewardLeaf chain.crypto epochId claim.nodeId claim.amount) = true)
    (accepts : ∀ claim, inWindow → claim.amount ≠ 0 → claim.merkleProof ≠ [] → marked claim.nodeId = false →
      MerkleProofLite.verify chain.crypto claim.merkleProof root
        (PoSeManager.rewardLeaf chain.crypto epochId claim.nodeId claim.amount) = true →
      claimed + claim.amount ≤ rewardTotal leaves → (∃ leaf ∈ leaves, bytes32 leaf.nodeId = claim.nodeId) →
      completes claim) : Exact tree leaves claims inWindow taken completes := by
  subst rooted
  have listed := ValidRewards.listed rewards built binding book
  refine ⟨book.once, listed, ?_, ?_⟩
  · intro claim took
    obtain ⟨inTime, small, unmarked, proved⟩ := refuses claim took
    refine ⟨inTime, (rewards.verify_iff built binding small).mp proved, fun again => ?_⟩
    have marked := (book.marked claim.nodeId).mpr again
    exact absurd (unmarked.symm.trans marked) (by decide)
  · intro claim inTime lists fresh
    have budget := within_total book listed lists fresh
    obtain ⟨leaf, member, same, equal, proof, found, texts⟩ := lists
    obtain ⟨proof', found', long, proved⟩ := rewards.lists built member
    obtain rfl := Option.some.inj (found.symm.trans found')
    have positive := (rewards.each leaf member).positive
    refine accepts claim inTime (by omega) ?_ ?_ ?_ budget ⟨leaf, member, same⟩
    · rw [← texts]
      exact mt map_eq_nil_iff.mp long
    · exact Bool.not_eq_true _ ▸ mt (book.marked claim.nodeId).mp fresh
    · rwa [texts, same, equal, Int.toNat_natCast] at proved

section Manager

/-- The epoch was finalized with the root of the tree and the sum of its rewards, and its nodes have
    operators. -/
structure FinalizedWith (tree : RewardTree) (leaves : List RewardLeaf) (epochId : Nat)
    (w : Settlement.World (BitVec 256)) : Prop where
  finalized : (w.state.epochs.read epochId).finalized = true
  root : (w.state.epochs.read epochId).rewardRoot = bytes32 tree.root
  total : (w.state.epochs.read epochId).totalReward = rewardTotal leaves
  uint : rewardTotal leaves < 2 ^ 256
  registered : ∀ leaf ∈ leaves, w.state.nodeOperator.read (bytes32 leaf.nodeId) ≠ 0
  time : w.env.timestamp + rewardClaimWindow < 2 ^ 256

def managerClaim (epochId : Nat) (sender : Settlement.Address) (claim : Claim (BitVec 256)) :
    Settlement.Msg × Settlement.Call (BitVec 256) :=
  (⟨sender, 0⟩, .claim epochId claim.nodeId claim.amount claim.merkleProof)

def ManagerExact (chain : Chain) (tree : RewardTree) (leaves : List RewardLeaf) (epochId : Nat)
    (w : Settlement.World (BitVec 256)) (sender : Settlement.Address) : Prop :=
  Exact tree leaves (claimsAt epochId (Settlement.claimsMade w.history))
    (w.env.timestamp ≤ (w.state.epochs.read epochId).finalizedAt + rewardClaimWindow)
    (fun claim => ∃ outcome,
      (Settlement.manager chain.crypto).execute w (managerClaim epochId sender claim) = .ok outcome)
    fun claim => ∃ settled,
      (Settlement.manager chain.crypto).Settles w (managerClaim epochId sender claim) settled ∧
        Settlement.claimsMade settled.history = (epochId, claim) :: Settlement.claimsMade w.history

theorem manager_exact {env : Settlement.Env (BitVec 256)} {balance : Nat}
    {m : Machine (Settlement.World (BitVec 256)) Settlement.Pending}
    (reached : Settlement.Reachable chain.crypto env balance m) (epoch : FinalizedWith tree leaves epochId m.state)
    (sender : Settlement.Address) :
    ManagerExact chain tree leaves epochId m.state sender := by
  have booked := Settlement.booked_of_reachable reached
  have covers := Settlement.covers_of_reachable reached
  refine .of_book rewards built binding (booked.book epochId) epoch.root ?_ ?_
  · rintro claim ⟨outcome, executed⟩
    have claimable := Settlement.World.claim_of_execute executed
    exact ⟨claimable.inWindow, lt_of_le_of_lt (Nat.le_add_left _ _) claimable.sum, claimable.unclaimed,
      claimable.proved⟩
  · rintro claim inWindow nonzero - unmarked proved budget ⟨leaf, member, same⟩
    refine Settlement.World.claim_settles covers sender
      ⟨epoch.finalized, nonzero, unmarked, ?_, inWindow, proved, ?_, ?_, ?_⟩
    · exact lt_of_le_of_lt (Nat.add_le_add_right (booked.past epochId) _) epoch.time
    · exact lt_of_le_of_lt budget epoch.uint
    · rwa [epoch.total]
    · rw [← same]
      exact epoch.registered leaf member

end Manager

section Storage

open StorageRewardManager Custody

abbrev StorageWorld := Custody.World (StorageRewardManager.Storage (BitVec 256)) (StorageRewardManager.Call (BitVec 256))
  (StorageRewardManager.Env (BitVec 256))

structure SubmittedWith (tree : RewardTree) (leaves : List RewardLeaf) (epochId : Nat) (w : StorageWorld) : Prop where
  submitted : (w.state.epochs.read epochId).submitted = true
  root : (w.state.epochs.read epochId).storageRewardRoot = bytes32 tree.root
  total : (w.state.epochs.read epochId).totalMesh = rewardTotal leaves
  registered : ∀ leaf ∈ leaves, ∃ operator, w.state.operatorOf w.env (bytes32 leaf.nodeId) = .ok operator

def storageClaim (epochId : Nat) (sender : Custody.Address) (claim : Claim (BitVec 256)) :
    Custody.Msg × StorageRewardManager.Call (BitVec 256) :=
  (⟨sender, 0⟩, .claim epochId claim.nodeId claim.amount claim.merkleProof)

def StorageExact (chain : Chain) (tree : RewardTree) (leaves : List RewardLeaf) (epochId : Nat) (w : StorageWorld)
    (sender : Custody.Address) : Prop :=
  Exact tree leaves (claimsAt epochId (StorageRewardManager.claimsMade w.history))
    (currentEpoch w.env.timestamp ≤ (w.state.epochs.read epochId).submittedAtEpoch + claimWindowEpochs)
    (fun claim => ∃ outcome, (contract chain.crypto).component.execute w (storageClaim epochId sender claim) = .ok outcome)
    fun claim => ∃ settled, (contract chain.crypto).component.Settles w (storageClaim epochId sender claim) settled ∧
      StorageRewardManager.claimsMade settled.history = (epochId, claim) :: StorageRewardManager.claimsMade w.history

theorem storage_exact {env : StorageRewardManager.Env (BitVec 256)} {balance : Nat} {self : Custody.Address}
    {m : Machine StorageWorld StorageRewardManager.Pending}
    (reached : Custody.Reachable (contract chain.crypto) setting (.fresh deployed balance self env) m)
    (epoch : SubmittedWith tree leaves epochId m.state) (sender : Custody.Address) :
    StorageExact chain tree leaves epochId m.state sender := by
  have booked := booked_of_reachable reached
  have initially : World.Sound (.fresh deployed balance self env : StorageWorld) := deployed_sound env.timestamp
  have sound := ((manager_advances chain.crypto).reaches initially reached).1
  refine .of_book rewards built binding (booked.book epochId) epoch.root ?_ ?_
  · rintro claim ⟨outcome, executed⟩
    obtain ⟨operator, claimable⟩ := claim_of_execute ⟨sender, 0⟩ executed
    exact ⟨claimable.inWindow, lt_of_le_of_lt (Nat.le_add_left _ _) claimable.sum, claimable.unclaimed,
      claimable.proved⟩
  · rintro claim inWindow nonzero long unmarked proved budget ⟨leaf, member, same⟩
    rw [← epoch.total] at budget
    obtain ⟨rewarded, whole⟩ := rewarded_within sound epoch.submitted inWindow budget
    obtain ⟨operator, answered⟩ := epoch.registered leaf member
    rw [same] at answered
    have pool : storageRewardPool < 2 ^ 256 := by decide
    have past : (m.state.state.epochs.read epochId).submittedAtEpoch ≤ currentEpoch m.state.env.timestamp :=
      booked.past epochId
    have early := m.state.env.timestamp.toNat_lt
    refine claim_settles sender
      ⟨epoch.submitted, nonzero, long, unmarked, ?_, inWindow, proved, ?_, budget, answered, ?_⟩
    · unfold currentEpoch epochSeconds at past
      unfold claimWindowEpochs
      omega
    · exact lt_of_le_of_lt (le_trans budget whole) pool
    · exact lt_of_le_of_lt rewarded pool

end Storage

end Claims

/-- Of an epoch that has the root and the sum of a reward tree both contracts pay every reward once, on the
    tree's proof and within the window, and nothing else. -/
theorem rewardClaims_exact (rewards : ValidRewards epochId leaves)
    (built : buildRewardTree chain.keccak leaves = .ok tree) (binding : Binding chain tree) :
    (∀ {env balance m}, Settlement.Reachable chain.crypto env balance m → FinalizedWith tree leaves epochId m.state →
      ∀ sender, ManagerExact chain tree leaves epochId m.state sender) ∧
    ∀ {env balance self m},
      Custody.Reachable (contract chain.crypto) setting
        (.fresh deployed balance self env) m →
      SubmittedWith tree leaves epochId m.state → ∀ sender, StorageExact chain tree leaves epochId m.state sender :=
  ⟨fun reached epoch => manager_exact rewards built binding reached epoch,
    fun reached epoch => storage_exact rewards built binding reached epoch⟩

section Sample

def sampleReward : RewardLeaf := ⟨0, toHex32 (replicate 63 '0' ++ ['1']), 50⟩

def rewardChain : Chain where
  keccak := fun data => if data = rewardBytes 0 1 50 then 2 else if data = pairBytes 2 2 then 3 else 1
  ecrecover := fun _ _ _ _ => 1
  decodeEvidence := fun _ => none

theorem sampleReward_valid : ValidRewards 0 [sampleReward] where
  small := by decide
  each := by
    intro leaf member
    obtain rfl := mem_singleton.mp member
    exact ⟨rfl, IsHex32.of_all (by decide) (by decide) (by decide), by decide, by decide⟩
  distinct := nodup_singleton _

theorem rewardChain_injective {a b : Settlement.Bytes} (same : rewardChain.keccak a = rewardChain.keccak b)
    (known : rewardChain.keccak a ≠ 1) : a = b := by
  unfold rewardChain at same known
  dsimp only at same known
  split at known
  · rename_i leaf
    rw [if_pos leaf] at same
    split at same
    · rename_i other
      exact leaf.trans other.symm
    · split at same <;> simp at same
  · rename_i notLeaf
    rw [if_neg notLeaf] at same
    split at known
    · rename_i root
      rw [if_pos root] at same
      split at same
      · simp at same
      · split at same
        · rename_i other
          exact root.trans other.symm
        · simp at same
    · exact absurd rfl known

theorem sampleReward_level (height : Nat) :
    (MerkleTree.levelUp (Settlement.pairHash rewardChain.crypto))^[height] [2] =
      [if height = 0 then 2 else if height = 1 then 3 else 1] := by
  induction height with
  | zero => rfl
  | succ height ih =>
    rw [Function.iterate_succ_apply', ih, MerkleTree.levelUp]
    rcases height with _ | _ | height
    · decide +kernel
    · decide +kernel
    · have one : Settlement.pairHash rewardChain.crypto 1 1 = 1 := by decide +kernel
      simpa using one

theorem sampleReward_binding {tree : RewardTree} (words : tree.leafHashes.map bytes32 = [2]) (root : bytes32 tree.root = 3) :
    Binding rewardChain tree where
  unique := by
    rintro node a b ⟨rounds, more, member, top⟩ hashedA hashedB
    rw [words, sampleReward_level, mem_singleton] at member
    rw [words, root, sampleReward_level, cons.injEq] at top
    have low : more + rounds = 1 := by
      by_contra high
      rw [if_neg high] at top
      split at top <;> simp at top
    have known : node ≠ 1 := by
      rw [member]
      rcases (by omega : rounds = 0 ∨ rounds = 1) with rfl | rfl
      · decide
      · decide
    exact rewardChain_injective (hashedA.trans hashedB.symm) (hashedA ▸ known)
  nonzero := by
    intro data
    unfold rewardChain
    dsimp only
    split
    · decide
    · split
      · decide
      · decide

def finalizeRun : List (Event (Settlement.Msg × Settlement.Call (BitVec 256)) (Settlement.Outside (BitVec 256))) :=
  [.call (⟨1, 0⟩, .initializeWith 5 1),
    .call (⟨7, Settlement.minBond⟩, .registerNode ⟨1, replicate 64 0, 0, 0, 0, 0, replicate 65 0, []⟩),
    .call (⟨2, 100⟩, .depositRewardPool),
    .outside (.tick ⟨10800, 10800, 1, 0, 0, 1000, none⟩),
    .call (⟨1, 0⟩, .finalizeEpochV2 0 3 50)]

def finalizedMachine : Machine (Settlement.World (BitVec 256)) Settlement.Pending :=
  finalizeRun.foldl (Machine.step (Settlement.manager rewardChain.crypto))
    ⟨⟨.deployed 0, ⟨0, 0, 1, 0, 0, 1000, none⟩, []⟩, []⟩

def storageRun : List (Event (Custody.Msg × StorageRewardManager.Call (BitVec 256))
    (Custody.Outside (StorageRewardManager.Env (BitVec 256)))) :=
  [.call (⟨1, 0⟩, .init 2 3 4 60 1),
    .call (⟨1, 0⟩, .setRelayer 5 true),
    .call (⟨5, 0⟩, .submitStorageEpoch 0 3 50),
    .call (⟨9, 0⟩, .claim 0 1 50 [2])]

def storageMachine : Machine StorageWorld StorageRewardManager.Pending :=
  storageRun.foldl (Machine.step (StorageRewardManager.contract rewardChain.crypto).component)
    ⟨.fresh StorageRewardManager.deployed 0 1000 ⟨0, fun _ _ => some 7⟩, []⟩

theorem finalizedMachine_with {tree : RewardTree} (root : bytes32 tree.root = 3) :
    FinalizedWith tree [sampleReward] 0 finalizedMachine.state where
  finalized := by decide +kernel
  root := by
    rw [root]
    decide +kernel
  total := by decide +kernel
  uint := by decide +kernel
  registered := by decide +kernel
  time := by decide +kernel

theorem storageMachine_with {tree : RewardTree} (root : bytes32 tree.root = 3) :
    SubmittedWith tree [sampleReward] 0 storageMachine.state where
  submitted := by decide +kernel
  root := by
    rw [root]
    decide +kernel
  total := by decide +kernel
  registered := by
    intro leaf member
    obtain rfl := mem_singleton.mp member
    exact ⟨7, by decide +kernel⟩

theorem sampleClaims_exact : ∃ tree, buildRewardTree rewardChain.keccak [sampleReward] = .ok tree ∧
    Binding rewardChain tree ∧ Listed tree [sampleReward] ⟨1, 50, [2]⟩ ∧
    claimsAt 0 (Settlement.claimsMade finalizedMachine.state.history) = [] ∧
    ManagerExact rewardChain tree [sampleReward] 0 finalizedMachine.state 9 ∧
    (claimsAt 0 (claimsMade storageMachine.state.history)).map Claim.nodeId = [1] ∧
    StorageExact rewardChain tree [sampleReward] 0 storageMachine.state 9 := by
  obtain ⟨proofs, built, -⟩ := sampleReward_valid.builds rewardChain (cons_ne_nil _ _)
  have sorted : sortLeaves [sampleReward] = [sampleReward] := mergeSort_singleton _
  have words : (leafTexts rewardChain [sampleReward]).map bytes32 = [2] := by
    rw [bytes32_leafTexts, sorted]
    decide +kernel
  have root : bytes32 (buildMerkleRoot rewardChain.keccak (leafTexts rewardChain [sampleReward])) = 3 := by
    rw [bytes32_buildMerkleRoot rewardChain isHex32_leafTexts (by simp [leafTexts, sorted]), words]
    decide +kernel
  have binding : Binding rewardChain ⟨_, _, proofs⟩ := sampleReward_binding words root
  obtain ⟨manager, storage⟩ := rewardClaims_exact sampleReward_valid built binding
  refine ⟨_, built, binding, ?_, by decide +kernel, ?_, by decide +kernel, ?_⟩
  · refine (sampleReward_valid.verify_iff built binding (by decide)).mp ?_
    rw [root]
    decide +kernel
  · exact manager (Reaches.run .start (by decide +kernel : Admitted _ _ _ finalizeRun)) (finalizedMachine_with root) 9
  · exact storage (Reaches.run .start (by decide +kernel : Admitted _ _ _ storageRun)) (storageMachine_with root) 9

end Sample

end Palimesh.Contracts
