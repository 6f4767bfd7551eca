import Palimesh.Settlement.Attestation

namespace Palimesh.Settlement

open Collections Protocol.Reentrancy PoSeManager

variable {β : Type} {C : Crypto β}

theorem pairHash_eq (free : CollisionFree C) {a b c d : β} (same : pairHash C a b = pairHash C c d) :
    (a = c ∧ b = d) ∨ (a = d ∧ b = c) := by
  obtain ⟨_, _, left, order⟩ := pairHash_fields (C := C) a b
  exact same_pair free (left.symm.trans same) order

/-- No leaf can be taken for a pair of nodes, and none is there twice. -/
structure Separated (C : Crypto β) (leaves : List β) : Prop where
  bare : ∀ leaf ∈ leaves, ∀ first second, leaf ≠ C.keccak256 [.bytes32 first, .bytes32 second]
  distinct : leaves.Nodup

theorem Separated.evidence (free : CollisionFree C) {evidence : List (EvidenceLeafV2 β)} (distinct : evidence.Nodup) :
    Separated C (evidence.map (leafHash C)) where
  bare := by
    intro leaf member first second
    obtain ⟨shown, -, rfl⟩ := List.mem_map.mp member
    exact leafHash_ne_pair free shown first second
  distinct := distinct.map (leafHash_injective free)

theorem Separated.ne_pairHash {leaves : List β} (separated : Separated C leaves) :
    ∀ leaf ∈ leaves, ∀ a b, leaf ≠ pairHash C a b := by
  intro leaf member a b same
  obtain ⟨first, second, paired, -⟩ := pairHash_fields (C := C) a b
  exact separated.bare leaf member first second (same.trans paired)

variable [DecidableEq β] [Inhabited β]

theorem submitBatchV2WithMetadata_root {s s' : PoSeManager β} {env : Env β} {msg : Msg} {b : Submission β}
    (accepted : s.submitBatchV2WithMetadata C env msg b = .ok s') :
    MerkleTree.root (pairHash C) b.metadata.leafHashes = some b.merkleRoot := by
  simp only [submitBatchV2WithMetadata, checkShape, checkContents, bind_ok,
    revertIf_ok, pure_ok] at accepted
  obtain ⟨-, ⟨-, -, -, -, -, -, -, -, -, counted, -⟩, -, -, -, ⟨-, rebuilt, -⟩, -⟩ := accepted
  have nonempty : b.metadata.leafHashes ≠ [] := fun empty => counted (by rw [empty]; rfl)
  rw [rebuildMerkleRoot_root C nonempty, not_not.mp rebuilt]

section Sample

def receiptLeaf (n : Nat) : EvidenceLeafV2 Term := { faultLeaf with nodeId := List.replicate n .hash }

def receiptHash (n : Nat) : Term := PoSeManager.leafHash hashing (receiptLeaf n)

def ownerBatch (epochId : Nat) (leaves : List Term) (leaf : Term) (merkleProof : List Term) : Submission Term where
  epochId := epochId
  merkleRoot := rebuildMerkleRoot hashing leaves
  summaryHash := symbolicHash [.uint 64 epochId, .bytes32 (rebuildMerkleRoot hashing leaves),
    .bytes32 (symbolicHash [.bytes32 [], .uint 32 0, .bytes32 leaf]), .uint 32 1]
  sampleProofs := [⟨leaf, merkleProof, 0⟩]
  witnessBitmap := 0
  witnessSignatures := []
  metadata := ⟨leaves.map fun _ => [], leaves.map fun _ => [], leaves.map fun _ => [], leaves, leaves.map fun _ => 0, []⟩

def innerLeft : Term := pairHash hashing (receiptHash 1) (receiptHash 2)

def innerRight : Term := pairHash hashing (receiptHash 3) (receiptHash 3)

def threeLeaves : Submission Term :=
  ownerBatch 0 [receiptHash 1, receiptHash 2, receiptHash 3] (receiptHash 1) [receiptHash 2, innerRight]

def fourLeaves : Submission Term :=
  ownerBatch 1 [receiptHash 1, receiptHash 2, receiptHash 3, receiptHash 3] (receiptHash 1) [receiptHash 2, innerRight]

def innerLeaves : Submission Term := ownerBatch 2 [innerLeft, innerRight] innerLeft [innerRight]

def reorderedLeaves : Submission Term :=
  ownerBatch 1 [receiptHash 2, receiptHash 1, receiptHash 3] (receiptHash 1) [receiptHash 2, innerRight]

def ownerState : PoSeManager Term := { PoSeManager.deployed 0 with initialized := true, owner := 1, challengeBondMin := 5 }

def bindingRun : List (Event (Msg × Call Term) (Outside Term)) :=
  [.call (⟨1, 0⟩, .initializeWith 5 1),
    .outside (.tick (termEnv 10800)),
    .call (⟨1, 0⟩, .submitBatchV2WithMetadata threeLeaves),
    .call (⟨1, 0⟩, .submitBatchV2WithMetadata fourLeaves),
    .call (⟨1, 0⟩, .submitBatchV2WithMetadata innerLeaves)]

def bindingMachine : Machine (World Term) Pending :=
  bindingRun.foldl (Machine.step (manager hashing)) ⟨⟨.deployed 0, termEnv 0, []⟩, []⟩

end Sample

end Palimesh.Settlement
