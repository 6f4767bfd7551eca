import Palimesh.Aggregator.Batch
import Palimesh.Settlement.Merkle

namespace Palimesh.Aggregator

open Collections Settlement List MerkleTree MerkleProofLite

def encodeField : Settlement.Field (BitVec 256) → Bytes
  | .bytes32 word => bigEndian 32 word.toNat
  | .bytes16 value => bigEndian 16 value
  | .uint bits value => bigEndian (bits / 8) value
  | .account address => bigEndian 20 address
  | .text value => value.toUTF8.toList
  | .bytes value => value

def encodePacked (fields : List (Settlement.Field (BitVec 256))) : Bytes := fields.flatMap encodeField

/-- What the aggregator and the contract share is the hash function; the rest is the contract's. -/
structure Chain where
  keccak : Bytes → BitVec 256
  ecrecover : BitVec 256 → Nat → Nat → Nat → Address
  decodeEvidence : Bytes → Option (BitVec 256 × List (BitVec 256) × Settlement.EvidenceLeafV2 (BitVec 256))

def Chain.crypto (chain : Chain) : Crypto (BitVec 256) where
  keccak256 := fun fields => chain.keccak (encodePacked fields)
  toUint := BitVec.toNat
  ecrecover := chain.ecrecover
  decodeEvidence := chain.decodeEvidence

variable (chain : Chain)

/-- Equal words hash alike in either order, so it does not matter on which side equality falls. -/
theorem pairHash_eq (l r : BitVec 256) : pairHash chain.crypto l r =
    if l.toNat ≤ r.toNat then chain.keccak (encodePacked [.bytes32 l, .bytes32 r])
    else chain.keccak (encodePacked [.bytes32 r, .bytes32 l]) := by
  show (if l.toNat < r.toNat then _ else _) = _
  rcases Nat.lt_trichotomy l.toNat r.toNat with less | same | greater
  · rw [if_pos less, if_pos (Nat.le_of_lt less)]
    rfl
  · obtain rfl := BitVec.eq_of_toNat_eq same
    simp [Chain.crypto]
  · rw [if_neg (Nat.not_lt_of_gt greater), if_neg (Nat.not_le_of_gt greater)]
    rfl

theorem pairHash_comm (l r : BitVec 256) : pairHash chain.crypto l r = pairHash chain.crypto r l := by
  rw [pairHash_eq, pairHash_eq]
  rcases Nat.lt_trichotomy l.toNat r.toNat with less | same | greater
  · rw [if_pos (Nat.le_of_lt less), if_neg (Nat.not_le_of_gt less)]
  · rw [BitVec.eq_of_toNat_eq same]
  · rw [if_neg (Nat.not_le_of_gt greater), if_pos (Nat.le_of_lt greater)]

theorem hashWith_eq_pairHash : hashWith chain.crypto = pairHash chain.crypto := by
  funext computed proofElement
  rw [pairHash_eq]
  rfl

theorem verify_iff_climb (proof : List (BitVec 256)) (root leaf : BitVec 256) :
    verify chain.crypto proof root leaf = true ↔
      MerkleTree.climb (pairHash chain.crypto) leaf proof = root := by
  rw [verify, decide_eq_true_iff, hashWith_eq_pairHash]
  rfl

theorem isHex32_parentHash (a b : Text) : IsHex32 (parentHash chain.keccak a b) := isHex32_word _

theorem bytes32_parentHash (a b : Text) (isA : IsHex32 a) (isB : IsHex32 b) :
    bytes32 (parentHash chain.keccak a b) = pairHash chain.crypto (bytes32 a) (bytes32 b) := by
  rw [pairHash_eq, parentHash]
  by_cases ordered : textLe a b = true
  · rw [if_pos ordered, if_pos ((isA.textLe_iff isB).mp ordered)]
    simp [keccak256Hex, bytes32_word, isA.hexToBytes_eq, isB.hexToBytes_eq, isA.hexToBuffer_eq, isB.hexToBuffer_eq,
      encodePacked, encodeField]
  · rw [if_neg ordered, if_neg (mt (isA.textLe_iff isB).mpr ordered)]
    simp [keccak256Hex, bytes32_word, isA.hexToBytes_eq, isB.hexToBytes_eq, isA.hexToBuffer_eq, isB.hexToBuffer_eq,
      encodePacked, encodeField]

theorem climbLevels_buildMerkleRoot {leaves : List Text} (several : 1 < leaves.length) :
    MerkleTree.climbLevels (parentHash chain.keccak) (leaves.length + 1) leaves =
      [buildMerkleRoot chain.keccak leaves] := by
  have nonempty : leaves ≠ [] := List.length_pos_iff.mp (by omega)
  obtain ⟨top, only⟩ := List.length_eq_one_iff.mp (length_climbLevels (parentHash chain.keccak) nonempty
    (show leaves.length ≤ leaves.length + 1 + 1 by omega))
  have last := getLast_levels (parentHash chain.keccak) (leaves.length + 1) leaves
  match leaves, several with
  | first :: second :: rest, _ =>
    have unfolded : buildMerkleRoot chain.keccak (first :: second :: rest) =
      ((buildMerkleLayers chain.keccak (first :: second :: rest)).getLastD []).headD [] := rfl
    rw [unfolded, buildMerkleLayers, getLastD_eq_getLast?, last, only]
    rfl

theorem climbLevels_root {leaves : List (BitVec 256)} (several : 1 < leaves.length) :
    MerkleTree.root (pairHash chain.crypto) leaves =
      (MerkleTree.climbLevels (pairHash chain.crypto) (leaves.length + 1) leaves).head? := by
  rw [MerkleTree.root, MerkleTree.climbLevels, if_neg (by omega)]

section Trees

variable {leaves : List Text} (all : ∀ leaf ∈ leaves, IsHex32 leaf)

include all

theorem isHex32_buildMerkleRoot : IsHex32 (buildMerkleRoot chain.keccak leaves) := by
  match leaves with
  | [] => exact isHex32_word _
  | [leaf] => exact isHex32_parentHash chain leaf leaf
  | first :: second :: rest =>
    have top := climbLevels_buildMerkleRoot chain (show 1 < (first :: second :: rest).length by simp)
    have good := forall_climbLevels (fun a b _ _ => isHex32_parentHash chain a b)
      ((first :: second :: rest).length + 1) all
    rw [top] at good
    exact good _ (by simp)

theorem map_climbLevels_leaves (fuel : Nat) :
    (MerkleTree.climbLevels (parentHash chain.keccak) fuel leaves).map bytes32 =
      MerkleTree.climbLevels (pairHash chain.crypto) fuel (leaves.map bytes32) :=
  map_climbLevels (bytes32_parentHash chain) (fun a b _ _ => isHex32_parentHash chain a b) fuel all

theorem bytes32_buildMerkleRoot (nonempty : leaves ≠ []) :
    bytes32 (buildMerkleRoot chain.keccak leaves) = rebuildMerkleRoot chain.crypto (leaves.map bytes32) := by
  have rebuilt := rebuildMerkleRoot_root chain.crypto (show leaves.map bytes32 ≠ [] by simpa using nonempty)
  apply Option.some.inj
  rw [← rebuilt]
  by_cases several : 1 < leaves.length
  · rw [climbLevels_root chain (by simpa using several), length_map, ← map_climbLevels_leaves chain all,
      climbLevels_buildMerkleRoot chain several]
    rfl
  · obtain ⟨leaf, rfl⟩ := List.length_eq_one_iff.mp
      (show leaves.length = 1 by have := List.length_pos_iff.mpr nonempty; omega)
    have isLeaf := all leaf (by simp)
    rw [buildMerkleRoot, bytes32_parentHash chain _ _ isLeaf isLeaf]
    simp [MerkleTree.root, MerkleTree.levelUp, MerkleTree.climbLevels]

theorem map_path_leaves (index : Nat) :
    (MerkleTree.path [] (buildMerkleLayers chain.keccak leaves) index).map bytes32 =
      MerkleTree.path (bytes32 []) (MerkleTree.levels (pairHash chain.crypto) (leaves.length + 1) (leaves.map bytes32))
        index := by
  rw [map_path, buildMerkleLayers,
    map_levels (bytes32_parentHash chain) (fun a b _ _ => isHex32_parentHash chain a b) _ all]

theorem verify_buildMerkleProof {index : Nat} (inside : index < leaves.length) :
    ∃ proof, buildMerkleProof chain.keccak leaves index = .ok proof ∧ proof ≠ [] ∧
      verify chain.crypto (proof.map bytes32) (bytes32 (buildMerkleRoot chain.keccak leaves))
        (bytes32 (leaves.getD index [])) = true := by
  have checks : ∀ shorter : Except String (List Text),
      (if leaves.length = 0 then .error "empty leaves"
        else if (index : Int) < 0 ∨ (leaves.length : Int) ≤ index then .error "invalid index" else shorter) = shorter := by
    intro shorter
    rw [if_neg (by omega), if_neg (by omega)]
  simp only [verify_iff_climb, buildMerkleProof, checks]
  match leaves, all, inside with
  | [leaf], all, inside =>
    obtain rfl : index = 0 := by simpa using inside
    have isLeaf := all leaf (by simp)
    exact ⟨[leaf], rfl, by simp, (bytes32_parentHash chain _ _ isLeaf isLeaf).symm⟩
  | first :: second :: rest, all, inside =>
    refine ⟨_, rfl, ?_, ?_⟩
    · obtain ⟨above, others, unfolded⟩ := exists_cons_of_ne_nil (levels_ne_nil
        (parentHash chain.keccak) (first :: second :: rest).length
        (MerkleTree.levelUp (parentHash chain.keccak) (first :: second :: rest)))
      rw [buildMerkleLayers, MerkleTree.levels, if_neg (by simp), unfolded, MerkleTree.path]
      exact cons_ne_nil _ _
    · have several : 1 < (first :: second :: rest).length := by simp
      have here : ((first :: second :: rest).map bytes32)[index]? =
          some (bytes32 ((first :: second :: rest).getD index [])) := by
        rw [getElem?_map, getD_eq_getElem?_getD, getElem?_eq_getElem inside]
        rfl
      have climbed := climb_path (pairHash chain.crypto) (pairHash_comm chain) (bytes32 [])
        ((first :: second :: rest).length + 1) _ _ _ here (by rw [length_map]; omega)
      rw [← map_climbLevels_leaves chain all, climbLevels_buildMerkleRoot chain several,
        ← map_path_leaves chain all] at climbed
      exact (List.cons.inj climbed).1.symm

end Trees

end Palimesh.Aggregator
