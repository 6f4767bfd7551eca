import Palimesh.Aggregator.MerkleAgreement
import Palimesh.Settlement.Manager

namespace Palimesh.Aggregator

open Collections Settlement List InsertionMap MerkleTree Positional PoSeManager MerkleProofLite
open Protocol.Guarded (mapM_of_ok)

structure RewardLeaf where
  epochId : Int
  nodeId : Text
  amount : Int

structure RewardTree where
  root : Text
  leafHashes : List Text
  proofs : InsertionMap Text (List Text)

section Source

variable (keccak : Bytes → BitVec 256)

def copyInto (size : Nat) (bytes : Bytes) : Bytes := (bytes ++ List.replicate size 0).take size

def hashRewardLeaf (leaf : RewardLeaf) : Except String Text := do
  let epochBuf ← u64Buffer leaf.epochId
  let amountBuf := copyInto 32 (bufferFromHex (padStart 64 (toString16 leaf.amount)))
  return toHex32 (keccak256Hex keccak (epochBuf ++ hexToBuffer leaf.nodeId ++ amountBuf))

def proofKey (leaf : RewardLeaf) : Text := (toString leaf.epochId).toList ++ ':' :: lowerCase leaf.nodeId

def setProof (leafHashes : List Text) (proofs : InsertionMap Text (List Text)) (entry : RewardLeaf × Nat) :
    Except String (InsertionMap Text (List Text)) := do
  let proof ← buildMerkleProof keccak leafHashes entry.2
  return proofs.set (proofKey entry.1) proof

def sortLeaves (leaves : List RewardLeaf) : List RewardLeaf :=
  leaves.mergeSort fun a b => textLe (lowerCase a.nodeId) (lowerCase b.nodeId)

def buildRewardTree (leaves : List RewardLeaf) : Except String RewardTree :=
  if leaves.length = 0 then .ok ⟨toHex32 (List.replicate 64 '0'), [], .empty⟩
  else do
    let sorted := sortLeaves leaves
    let leafHashes ← sorted.mapM (hashRewardLeaf keccak)
    let proofs ← sorted.zipIdx.foldlM (setProof keccak leafHashes) .empty
    return ⟨buildMerkleRoot keccak leafHashes, leafHashes, proofs⟩

end Source

/-- A leaf that stands for a reward of the epoch: thirty-two bytes of node id, in either case, and a
    positive amount that fits. -/
structure RewardLeaf.Valid (epochId : Nat) (leaf : RewardLeaf) : Prop where
  epoch : leaf.epochId = epochId
  hex : IsHex32 (lowerCase leaf.nodeId)
  positive : 0 < leaf.amount
  bounded : leaf.amount < 2 ^ 256

structure ValidRewards (epochId : Nat) (leaves : List RewardLeaf) : Prop where
  small : epochId < 2 ^ 64
  each : ∀ leaf ∈ leaves, leaf.Valid epochId
  distinct : (leaves.map fun leaf => bytes32 leaf.nodeId).Nodup

variable {chain : Chain} {epochId : Nat} {leaf : RewardLeaf} {leaves : List RewardLeaf}

variable {a b nodeId : BitVec 256} {amount : Nat}

section Encoding

@[simp] theorem length_bigEndian (width n : Nat) : (bigEndian width n).length = width := by
  rw [bigEndian, length_map, length_digits]

theorem bigEndian_injective {width a b : Nat} (smallA : a < 256 ^ width) (smallB : b < 256 ^ width)
    (same : bigEndian width a = bigEndian width b) : a = b := by
  have bounded : ∀ n, ∀ d ∈ Positional.digits 256 width n, d < 256 := fun n => digits_lt (by decide)
  have digits := congrArg (List.map UInt8.toNat) same
  rw [bigEndian, bigEndian, toNat_ofNat_map (bounded a), toNat_ofNat_map (bounded b)] at digits
  have values := congrArg (Positional.value 256) digits
  rwa [value_digits, value_digits, Nat.mod_eq_of_lt smallA, Nat.mod_eq_of_lt smallB] at values

theorem bigEndian_word_injective (same : bigEndian 32 a.toNat = bigEndian 32 b.toNat) : a = b :=
  BitVec.eq_of_toNat_eq (bigEndian_injective a.isLt b.isLt same)

def pairBytes (first second : BitVec 256) : Bytes := bigEndian 32 first.toNat ++ bigEndian 32 second.toNat

def rewardBytes (epochId : Nat) (nodeId : BitVec 256) (amount : Nat) : Bytes :=
  bigEndian 8 epochId ++ bigEndian 32 nodeId.toNat ++ bigEndian 32 amount

theorem pairBytes_injective {c d : BitVec 256} (same : pairBytes a b = pairBytes c d) : a = c ∧ b = d := by
  obtain ⟨first, second⟩ := append_inj same (by simp)
  exact ⟨bigEndian_word_injective first, bigEndian_word_injective second⟩

theorem rewardBytes_injective {nodeId' : BitVec 256} {amount' : Nat} (small : amount < 2 ^ 256)
    (small' : amount' < 2 ^ 256) (same : rewardBytes epochId nodeId amount = rewardBytes epochId nodeId' amount') :
    nodeId = nodeId' ∧ amount = amount' := by
  obtain ⟨front, last⟩ := append_inj same (by simp)
  obtain ⟨-, middle⟩ := append_inj front (by simp)
  exact ⟨bigEndian_word_injective middle, bigEndian_injective small small' last⟩

theorem pairBytes_ne_rewardBytes (first second nodeId : BitVec 256) (amount : Nat) :
    pairBytes first second ≠ rewardBytes epochId nodeId amount := by
  intro same
  have lengths := congrArg List.length same
  simp [pairBytes, rewardBytes] at lengths

theorem pairHash_bytes (chain : Chain) (l r : BitVec 256) : ∃ first second,
    pairHash chain.crypto l r = chain.keccak (pairBytes first second) ∧
      ((first = l ∧ second = r) ∨ (first = r ∧ second = l)) := by
  rw [pairHash_eq]
  split
  · exact ⟨l, r, by simp [encodePacked, encodeField, pairBytes], .inl ⟨rfl, rfl⟩⟩
  · exact ⟨r, l, by simp [encodePacked, encodeField, pairBytes], .inr ⟨rfl, rfl⟩⟩

theorem rewardLeaf_eq (chain : Chain) (nodeId : BitVec 256) (amount : Nat) :
    rewardLeaf chain.crypto epochId nodeId amount = chain.keccak (rewardBytes epochId nodeId amount) := by
  simp [rewardLeaf, Chain.crypto, encodePacked, encodeField, rewardBytes]

def RewardLeaf.word (chain : Chain) (leaf : RewardLeaf) : BitVec 256 :=
  PoSeManager.rewardLeaf chain.crypto leaf.epochId.toNat (bytes32 leaf.nodeId) leaf.amount.toNat

theorem RewardLeaf.Valid.nodeId_bytes (valid : leaf.Valid epochId) :
    hexToBuffer leaf.nodeId = bigEndian 32 (bytes32 leaf.nodeId).toNat := by
  rw [← hexToBuffer_lowerCase, valid.hex.hexToBuffer_eq, bytes32_lowerCase]

def RewardLeaf.digest (chain : Chain) (leaf : RewardLeaf) : BitVec 256 :=
  chain.keccak (bigEndian 8 leaf.epochId.toNat ++ hexToBuffer leaf.nodeId ++
    copyInto 32 (bufferFromHex (padStart 64 (toString16 leaf.amount))))

theorem hashRewardLeaf_digest (epoch : leaf.epochId = epochId) (small : epochId < 2 ^ 64) :
    hashRewardLeaf chain.keccak leaf = .ok (toHex32 (wordDigits (leaf.digest chain))) := by
  have buffer : u64Buffer leaf.epochId = .ok (bigEndian 8 leaf.epochId.toNat) := by
    rw [u64Buffer, uintBuffer, if_pos (by omega)]
  rw [hashRewardLeaf, buffer]
  rfl

theorem RewardLeaf.Valid.digest_eq (valid : leaf.Valid epochId) : leaf.digest chain = leaf.word chain := by
  have positive := valid.positive
  have bounded := valid.bounded
  have amount : copyInto 32 (bufferFromHex (padStart 64 (toString16 leaf.amount))) = bigEndian 32 leaf.amount.toNat := by
    have absolute : leaf.amount.natAbs = leaf.amount.toNat := by omega
    rw [toString16, if_neg (by omega), absolute, bufferFromHex_number (by omega), copyInto]
    exact take_left' (length_bigEndian _ _)
  rw [RewardLeaf.digest, RewardLeaf.word, rewardLeaf_eq, amount, valid.nodeId_bytes]
  rfl

theorem RewardLeaf.Valid.hash (valid : leaf.Valid epochId) (small : epochId < 2 ^ 64) :
    hashRewardLeaf chain.keccak leaf = .ok (toHex32 (wordDigits (leaf.word chain))) := by
  rw [hashRewardLeaf_digest valid.epoch small, valid.digest_eq]

end Encoding

section Tree

variable (rewards : ValidRewards epochId leaves)

theorem proofKey_injective {a b : RewardLeaf} (validA : a.Valid epochId) (validB : b.Valid epochId)
    (same : proofKey a = proofKey b) : bytes32 a.nodeId = bytes32 b.nodeId := by
  unfold proofKey at same
  rw [validA.epoch, validB.epoch] at same
  have lower : lowerCase a.nodeId = lowerCase b.nodeId := (List.cons.inj (append_cancel_left same)).2
  rw [← bytes32_lowerCase, lower, bytes32_lowerCase]

theorem setProof_collects {leafHashes : List Text} {entries : List (RewardLeaf × Nat)}
    (keys : (entries.map fun entry => proofKey entry.1).Nodup)
    (each : ∀ entry ∈ entries, ∃ proof, buildMerkleProof chain.keccak leafHashes entry.2 = .ok proof)
    (start : InsertionMap Text (List Text)) :
    ∃ proofs, entries.foldlM (setProof chain.keccak leafHashes) start = .ok proofs ∧
      (∀ entry ∈ entries, ∃ proof, buildMerkleProof chain.keccak leafHashes entry.2 = .ok proof ∧
        proofs.get? (proofKey entry.1) = some proof) ∧
      ∀ key ∉ entries.map fun entry => proofKey entry.1, proofs.get? key = start.get? key := by
  induction entries generalizing start with
  | nil => exact ⟨start, rfl, by simp, fun _ _ => rfl⟩
  | cons entry entries ih =>
    obtain ⟨first, rest⟩ := List.forall_mem_cons.mp each
    obtain ⟨proof, built⟩ := first
    obtain ⟨fresh, others⟩ := List.nodup_cons.mp keys
    obtain ⟨proofs, folded, found, kept⟩ := ih others rest (start.set (proofKey entry.1) proof)
    have step : setProof chain.keccak leafHashes start entry = .ok (start.set (proofKey entry.1) proof) := by
      rw [setProof, built]
      rfl
    refine ⟨proofs, ?_, List.forall_mem_cons.mpr ⟨⟨proof, built, ?_⟩, found⟩, ?_⟩
    · rw [foldlM_cons, step]
      exact folded
    · rw [kept _ fresh, get?_set, if_pos rfl]
    · intro key absent
      rw [map_cons, mem_cons, not_or] at absent
      rw [kept key absent.2, get?_set, if_neg absent.1]

theorem perm_sortLeaves (leaves : List RewardLeaf) : (sortLeaves leaves).Perm leaves := mergeSort_perm _ _

def hashTexts (hash : RewardLeaf → BitVec 256) (leaves : List RewardLeaf) : List Text :=
  (sortLeaves leaves).map fun leaf => toHex32 (wordDigits (hash leaf))

def leafTexts (chain : Chain) (leaves : List RewardLeaf) : List Text :=
  (sortLeaves leaves).map fun leaf => toHex32 (wordDigits (leaf.word chain))

theorem bytes32_leafTexts (chain : Chain) (leaves : List RewardLeaf) :
    (leafTexts chain leaves).map bytes32 = (sortLeaves leaves).map (RewardLeaf.word chain) := by
  rw [leafTexts, map_map]
  exact map_congr_left fun leaf _ => bytes32_word _

variable {hash : RewardLeaf → BitVec 256}

theorem isHex32_hashTexts : ∀ text ∈ hashTexts hash leaves, IsHex32 text := by
  intro text member
  obtain ⟨leaf, -, rfl⟩ := List.mem_map.mp member
  exact isHex32_word _

theorem isHex32_leafTexts : ∀ text ∈ leafTexts chain leaves, IsHex32 text := fun text member => isHex32_hashTexts text member

theorem verify_hashTexts {i : Nat} {leaf : RewardLeaf}
    (here : (sortLeaves leaves)[i]? = some leaf) :
    ∃ proof, buildMerkleProof chain.keccak (hashTexts hash leaves) i = .ok proof ∧ proof ≠ [] ∧
      verify chain.crypto (proof.map bytes32)
        (bytes32 (buildMerkleRoot chain.keccak (hashTexts hash leaves))) (hash leaf) = true := by
  have inside : i < (hashTexts hash leaves).length := by
    rw [hashTexts, length_map]
    exact (List.getElem?_eq_some_iff.mp here).1
  obtain ⟨proof, made, long, accepted⟩ := verify_buildMerkleProof chain isHex32_hashTexts inside
  have shown : bytes32 ((hashTexts hash leaves).getD i []) = hash leaf := by
    have there : (hashTexts hash leaves)[i]? = some (toHex32 (wordDigits (hash leaf))) := by
      rw [hashTexts, getElem?_map, here]
      rfl
    rw [getD_eq_getElem?_getD, there]
    exact bytes32_word _
  exact ⟨proof, made, long, shown ▸ accepted⟩

theorem buildRewardTree_proves (nonempty : leaves ≠ [])
    (keys : (leaves.map proofKey).Nodup)
    (hashes : ∀ leaf ∈ leaves, hashRewardLeaf chain.keccak leaf = .ok (toHex32 (wordDigits (hash leaf)))) : ∃ proofs,
    buildRewardTree chain.keccak leaves =
        .ok ⟨buildMerkleRoot chain.keccak (hashTexts hash leaves), hashTexts hash leaves, proofs⟩ ∧
      (∀ leaf ∈ leaves, ∃ proof, proofs.get? (proofKey leaf) = some proof ∧ proof ≠ [] ∧
        verify chain.crypto (proof.map bytes32)
          (bytes32 (buildMerkleRoot chain.keccak (hashTexts hash leaves))) (hash leaf) = true) ∧
      ∀ key ∉ leaves.map proofKey, proofs.get? key = none := by
  have same : ((sortLeaves leaves).zipIdx.map fun entry => proofKey entry.1) = (sortLeaves leaves).map proofKey := by
    conv => rhs; rw [← zipIdx_map_fst 0 (sortLeaves leaves)]
    rw [map_map]
    rfl
  have keys : ((sortLeaves leaves).zipIdx.map fun entry => proofKey entry.1).Nodup := by
    rw [same]
    exact ((perm_sortLeaves leaves).map proofKey).nodup_iff.mpr keys
  have each : ∀ entry ∈ (sortLeaves leaves).zipIdx, ∃ proof,
      buildMerkleProof chain.keccak (hashTexts hash leaves) entry.2 = .ok proof := by
    intro entry member
    obtain ⟨proof, made, -⟩ := verify_hashTexts (List.mem_zipIdx_iff_getElem?.mp member)
    exact ⟨proof, made⟩
  obtain ⟨proofs, folded, found, others⟩ := setProof_collects keys each .empty
  have hashed : (sortLeaves leaves).mapM (hashRewardLeaf chain.keccak) = .ok (hashTexts hash leaves) :=
    mapM_of_ok fun leaf member => hashes leaf ((perm_sortLeaves leaves).mem_iff.mp member)
  refine ⟨proofs, ?_, fun leaf member => ?_, fun key absent => ?_⟩
  · unfold buildRewardTree
    rw [if_neg (mt List.length_eq_zero_iff.mp nonempty)]
    simp only [bind_ok, pure_ok]
    exact ⟨_, hashed, proofs, folded, rfl⟩
  · obtain ⟨i, here⟩ := getElem?_of_mem ((perm_sortLeaves leaves).mem_iff.mpr member)
    obtain ⟨proof, made, long, accepted⟩ := verify_hashTexts here
    obtain ⟨proof', made', got⟩ := found (leaf, i) (List.mem_zipIdx_iff_getElem?.mpr here)
    obtain rfl := Except.ok.inj (made.symm.trans made')
    exact ⟨proof, got, long, accepted⟩
  · rw [others key, get?_empty]
    rw [same]
    exact fun member => absent (((perm_sortLeaves leaves).map proofKey).mem_iff.mp member)

include rewards

theorem ValidRewards.sorted : ValidRewards epochId (sortLeaves leaves) where
  small := rewards.small
  each := fun leaf member => rewards.each leaf ((perm_sortLeaves leaves).mem_iff.mp member)
  distinct := ((perm_sortLeaves leaves).map _).nodup_iff.mpr rewards.distinct

theorem ValidRewards.keys : (leaves.map proofKey).Nodup := by
  have distinct := rewards.distinct
  have each := rewards.each
  clear rewards
  induction leaves with
  | nil => exact nodup_nil
  | cons leaf leaves ih =>
    obtain ⟨fresh, rest⟩ := List.nodup_cons.mp distinct
    obtain ⟨valid, others⟩ := List.forall_mem_cons.mp each
    refine List.nodup_cons.mpr ⟨fun member => fresh ?_, ih rest others⟩
    obtain ⟨other, inside, same⟩ := List.mem_map.mp member
    exact List.mem_map.mpr ⟨other, inside, proofKey_injective (others other inside) valid same⟩

theorem ValidRewards.builds (chain : Chain) (nonempty : leaves ≠ []) : ∃ proofs,
    buildRewardTree chain.keccak leaves =
        .ok ⟨buildMerkleRoot chain.keccak (leafTexts chain leaves), leafTexts chain leaves, proofs⟩ ∧
      ∀ leaf ∈ leaves, ∃ proof, proofs.get? (proofKey leaf) = some proof ∧ proof ≠ [] ∧
        verify chain.crypto (proof.map bytes32)
          (bytes32 (buildMerkleRoot chain.keccak (leafTexts chain leaves))) (leaf.word chain) = true := by
  obtain ⟨proofs, built, proves, -⟩ := buildRewardTree_proves nonempty rewards.keys
    fun leaf member => (rewards.each leaf member).hash rewards.small
  exact ⟨proofs, built, proves⟩

end Tree

section Binding

/-- What is asked of the hash: no node of the tree is the hash of two things, and nothing hashes to
    zero. -/
structure Binding (chain : Chain) (tree : RewardTree) : Prop where
  unique : ∀ {node : BitVec 256} {a b : Bytes},
    MerkleTree.Inside (pairHash chain.crypto) (tree.leafHashes.map bytes32) (bytes32 tree.root) node →
    chain.keccak a = node → chain.keccak b = node → a = b
  nonzero : ∀ data, chain.keccak data ≠ 0

def RewardTree.Lists (tree : RewardTree) (leaves : List RewardLeaf) (nodeId : BitVec 256) (amount : Nat)
    (merkleProof : List (BitVec 256)) : Prop :=
  ∃ leaf ∈ leaves, bytes32 leaf.nodeId = nodeId ∧ leaf.amount = amount ∧
    ∃ proof, tree.proofs.get? (proofKey leaf) = some proof ∧ proof.map bytes32 = merkleProof

variable {tree : RewardTree}

theorem RewardLeaf.Valid.word_eq (valid : leaf.Valid epochId) : leaf.word chain =
    chain.keccak (rewardBytes epochId (bytes32 leaf.nodeId) leaf.amount.toNat) := by
  rw [RewardLeaf.word, valid.epoch, Int.toNat_natCast, rewardLeaf_eq]

theorem Binding.reward_ne_pair (binding : Binding chain tree) {l r : BitVec 256}
    (inside : MerkleTree.Inside (pairHash chain.crypto) (tree.leafHashes.map bytes32) (bytes32 tree.root)
      (pairHash chain.crypto l r)) : chain.keccak (rewardBytes epochId nodeId amount) ≠ pairHash chain.crypto l r := by
  intro same
  obtain ⟨first, second, hashed, -⟩ := pairHash_bytes chain l r
  exact pairBytes_ne_rewardBytes first second nodeId amount (binding.unique inside hashed.symm same)

theorem Binding.pairs (binding : Binding chain tree) {c d : BitVec 256}
    (inside : MerkleTree.Inside (pairHash chain.crypto) (tree.leafHashes.map bytes32) (bytes32 tree.root)
      (pairHash chain.crypto c d)) (same : pairHash chain.crypto a b = pairHash chain.crypto c d) :
    (a = c ∧ b = d) ∨ (a = d ∧ b = c) := by
  obtain ⟨first, second, left, order⟩ := pairHash_bytes chain a b
  obtain ⟨third, fourth, right, order'⟩ := pairHash_bytes chain c d
  obtain ⟨rfl, rfl⟩ := pairBytes_injective (binding.unique inside (left.symm.trans same) right.symm)
  rcases order with ⟨rfl, rfl⟩ | ⟨rfl, rfl⟩ <;> rcases order' with ⟨rfl, rfl⟩ | ⟨rfl, rfl⟩ <;> simp

theorem climb_hashed (chain : Chain) (data : Bytes) (siblings : List (BitVec 256)) :
    ∃ bytes, MerkleTree.climb (pairHash chain.crypto) (chain.keccak data) siblings = chain.keccak bytes := by
  induction siblings using List.reverseRecOn with
  | nil => exact ⟨data, rfl⟩
  | append_singleton siblings last _ =>
    obtain ⟨first, second, hashed, -⟩ :=
      pairHash_bytes chain (MerkleTree.climb (pairHash chain.crypto) (chain.keccak data) siblings) last
    exact ⟨pairBytes first second, by rw [climb_append, hashed]⟩

variable (rewards : ValidRewards epochId leaves) (built : buildRewardTree chain.keccak leaves = .ok tree)
  (binding : Binding chain tree)

include rewards built

theorem ValidRewards.lists {leaf : RewardLeaf} (member : leaf ∈ leaves) : ∃ proof,
    tree.proofs.get? (proofKey leaf) = some proof ∧ proof ≠ [] ∧
      verify chain.crypto (proof.map bytes32) (bytes32 tree.root)
        (rewardLeaf chain.crypto epochId (bytes32 leaf.nodeId) leaf.amount.toNat) = true := by
  obtain ⟨proofs, same, found⟩ := rewards.builds chain (ne_nil_of_mem member)
  obtain rfl := Except.ok.inj (same.symm.trans built)
  obtain ⟨proof, got, long, accepted⟩ := found leaf member
  rw [rewardLeaf_eq, ← (rewards.each leaf member).word_eq]
  exact ⟨proof, got, long, accepted⟩

theorem ValidRewards.mem_leafHashes (nonempty : leaves ≠ []) {word : BitVec 256}
    (member : word ∈ tree.leafHashes.map bytes32) : ∃ leaf ∈ leaves,
      chain.keccak (rewardBytes epochId (bytes32 leaf.nodeId) leaf.amount.toNat) = word := by
  obtain ⟨proofs, same, -⟩ := rewards.builds chain nonempty
  obtain rfl := Except.ok.inj (same.symm.trans built)
  rw [bytes32_leafTexts] at member
  obtain ⟨leaf, listed, rfl⟩ := List.mem_map.mp member
  exact ⟨leaf, (perm_sortLeaves leaves).mem_iff.mp listed, (rewards.sorted.each leaf listed).word_eq.symm⟩

include binding

theorem ValidRewards.separates (nonempty : leaves ≠ []) : ∃ height,
    (MerkleTree.levelUp (pairHash chain.crypto))^[height] (tree.leafHashes.map bytes32) = [bytes32 tree.root] ∧
      MerkleTree.Separates (pairHash chain.crypto) (tree.leafHashes.map bytes32) height := by
  obtain ⟨proofs, same, -⟩ := rewards.builds chain nonempty
  obtain rfl := Except.ok.inj (same.symm.trans built)
  have words := bytes32_leafTexts chain leaves
  have several : leafTexts chain leaves ≠ [] := by
    intro none
    rw [leafTexts, map_eq_nil_iff] at none
    have same := perm_sortLeaves leaves
    rw [none] at same
    exact nonempty same.nil_eq.symm
  have isRoot : MerkleTree.root (pairHash chain.crypto) ((leafTexts chain leaves).map bytes32) =
      some (bytes32 (buildMerkleRoot chain.keccak (leafTexts chain leaves))) := by
    rw [bytes32_buildMerkleRoot chain isHex32_leafTexts several]
    exact rebuildMerkleRoot_root chain.crypto (by simpa using several)
  obtain ⟨height, top⟩ := iterate_of_root _ isRoot
  refine ⟨height, top, ?_, ?_, ?_⟩
  · intro rounds a b c d low member same
    exact binding.pairs (inside_of_iterate _ top low member) same
  · intro word member a b same
    obtain ⟨leaf, -, hashed⟩ := rewards.mem_leafHashes built nonempty member
    have here := inside_of_iterate _ top (Nat.zero_le height) (show word ∈ (MerkleTree.levelUp _)^[0] _ from member)
    exact binding.reward_ne_pair (same ▸ here) (hashed.trans same)
  · rw [words]
    refine List.Nodup.map_on ?_ (List.Nodup.of_map _ rewards.sorted.distinct)
    intro first inFirst second inSecond same
    have validFirst := rewards.sorted.each first inFirst
    have validSecond := rewards.sorted.each second inSecond
    have member : first.word chain ∈ (leafTexts chain leaves).map bytes32 := by
      rw [words]
      exact mem_map_of_mem inFirst
    have here := inside_of_iterate _ top (Nat.zero_le height) (show first.word chain ∈ (MerkleTree.levelUp _)^[0] _ from member)
    have bytes := binding.unique here validFirst.word_eq.symm (validSecond.word_eq.symm.trans same.symm)
    have boundedFirst := validFirst.bounded
    have boundedSecond := validSecond.bounded
    obtain ⟨nodes, -⟩ := rewardBytes_injective (by omega) (by omega) bytes
    exact inj_on_of_nodup_map rewards.sorted.distinct inFirst inSecond nodes

/-- The contracts accept the rewards of the tree with their proofs, and nothing else. -/
theorem ValidRewards.verify_iff {merkleProof : List (BitVec 256)}
    (small : amount < 2 ^ 256) :
    verify chain.crypto merkleProof (bytes32 tree.root)
        (rewardLeaf chain.crypto epochId nodeId amount) = true ↔
      tree.Lists leaves nodeId amount merkleProof := by
  constructor
  · intro accepted
    have climbed := (verify_iff_climb chain _ _ _).mp accepted
    rw [rewardLeaf_eq] at climbed
    by_cases nonempty : leaves = []
    · -- The root of no leaves is zero, which nothing hashes to.
      obtain ⟨bytes, hashed⟩ := climb_hashed chain (rewardBytes epochId nodeId amount) merkleProof
      subst nonempty
      obtain rfl := Except.ok.inj built
      exact absurd (hashed.symm.trans climbed) (binding.nonzero bytes)
    · obtain ⟨height, top, separates⟩ := rewards.separates built binding nonempty
      have outer : ∀ rounds < height, chain.keccak (rewardBytes epochId nodeId amount) ∉
          (MerkleTree.levelUp (pairHash chain.crypto))^[rounds + 1] (tree.leafHashes.map bytes32) := by
        intro rounds low member
        have pair := member
        rw [Function.iterate_succ_apply'] at pair
        obtain ⟨l, -, r, -, same⟩ := mem_levelUp _ pair
        exact binding.reward_ne_pair (same ▸ inside_of_iterate _ top low member) same
      have reaches : ∀ {siblings : List (BitVec 256)},
          MerkleTree.climb (pairHash chain.crypto) (chain.keccak (rewardBytes epochId nodeId amount)) siblings =
            bytes32 tree.root →
          MerkleTree.climb (pairHash chain.crypto) (chain.keccak (rewardBytes epochId nodeId amount)) siblings ∈
            (MerkleTree.levelUp (pairHash chain.crypto))^[height] (tree.leafHashes.map bytes32) := by
        intro siblings same
        rw [top, same]
        exact mem_singleton_self _
      obtain ⟨-, position, start, -⟩ := separates.position outer (Nat.le_refl height) (reaches climbed)
      have member := mem_of_getElem? start
      have here := inside_of_iterate _ top (Nat.zero_le height) (show _ ∈ (MerkleTree.levelUp _)^[0] _ from member)
      obtain ⟨leaf, listed, same⟩ := rewards.mem_leafHashes built nonempty member
      have valid := rewards.each leaf listed
      have bounded := valid.bounded
      have positive := valid.positive
      obtain ⟨rfl, rfl⟩ := rewardBytes_injective small (by omega) (binding.unique here rfl same)
      obtain ⟨proof, got, -, accepted⟩ := rewards.lists built listed
      have climbs := (verify_iff_climb chain _ _ _).mp accepted
      rw [rewardLeaf_eq] at climbs
      exact ⟨leaf, listed, rfl, by omega, proof, got,
        separates.climb_unique outer (Nat.le_refl height) (reaches climbs) (reaches climbed)⟩
  · rintro ⟨leaf, member, rfl, amounts, proof, got, rfl⟩
    obtain ⟨listed, same, -, accepted⟩ := rewards.lists built member
    rw [got] at same
    cases same
    rwa [amounts, Int.toNat_natCast] at accepted

end Binding

end Palimesh.Aggregator
