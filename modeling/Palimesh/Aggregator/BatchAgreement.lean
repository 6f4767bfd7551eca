import Palimesh.Aggregator.MerkleAgreement
import Palimesh.Settlement.Records

namespace Palimesh.Aggregator

open Collections Settlement List PoSeManager
open Protocol.Guarded (mapM_of_ok)

theorem mapM_ok {α δ ε : Type} {f : α → Except ε δ} {xs : List α} {ys : List δ} (mapped : xs.mapM f = .ok ys) :
    ys.length = xs.length ∧ ∀ y ∈ ys, ∃ x ∈ xs, f x = .ok y := by
  induction xs generalizing ys with
  | nil =>
    cases mapped
    exact ⟨rfl, by simp⟩
  | cons x xs ih =>
    simp only [mapM_cons, bind_ok, pure_ok] at mapped
    obtain ⟨y, first, rest, others, rfl⟩ := mapped
    obtain ⟨lengths, sources⟩ := ih others
    refine ⟨by rw [length_cons, length_cons, lengths], ?_⟩
    intro z member
    rcases List.mem_cons.mp member with rfl | later
    · exact ⟨x, by simp, first⟩
    · obtain ⟨w, inside, same⟩ := sources z later
      exact ⟨w, by simp [inside], same⟩

theorem uintBuffer_ok {width : Nat} {value : Int} {bytes : Bytes} : uintBuffer width value = .ok bytes ↔
    (0 ≤ value ∧ value < 256 ^ width) ∧ bigEndian width value.toNat = bytes := by
  unfold uintBuffer
  by_cases fits : 0 ≤ value ∧ value < 256 ^ width
  · simp [fits]
  · simp [fits]

theorem isHex32_keccak (keccak : Bytes → BitVec 256) (data : Bytes) : IsHex32 (toHex32 (keccak256Hex keccak data)) :=
  isHex32_word _

theorem hashEvidenceLeafV2_hex {keccak : Bytes → BitVec 256} {receipt : VerifiedReceiptV2} {leaf : Text}
    (hashed : hashEvidenceLeafV2 keccak receipt = .ok leaf) : IsHex32 leaf := by
  simp only [hashEvidenceLeafV2, bind_ok, pure_ok] at hashed
  obtain ⟨_, -, _, -, _, -, _, -, _, -, _, -, rfl⟩ := hashed
  exact isHex32_keccak keccak _

section Picking

variable (keccak : Bytes → BitVec 256) {epochId : Int}

theorem pickLoop_spec {max : WithTop ℚ} {leafCount : Nat} (positive : 0 < leafCount) :
    ∀ {fuel : Nat} {selected result : List Nat} {cursor : Nat}, selected.Nodup → (∀ i ∈ selected, i < leafCount) →
    pickLoop keccak max leafCount epochId fuel selected cursor = some result →
    result.Nodup ∧ (∀ i ∈ result, i < leafCount) ∧ ¬ ((result.length : ℚ) : WithTop ℚ) < max := by
  intro fuel
  induction fuel with
  | zero =>
    intro selected result cursor nodup bounded picked
    unfold pickLoop at picked
    split at picked
    · cases picked
    · rename_i enough
      cases picked
      exact ⟨nodup, bounded, enough⟩
  | succ fuel ih =>
    intro selected result cursor nodup bounded picked
    unfold pickLoop at picked
    split at picked
    · refine ih ?_ ?_ picked
      · split
        · exact nodup
        · rename_i fresh
          exact List.nodup_append.mpr ⟨nodup, nodup_singleton _, by
            intro a inside b new
            rw [List.mem_singleton.mp new]
            exact fun same => fresh (same ▸ inside)⟩
      · split
        · exact bounded
        · intro i member
          rcases List.mem_append.mp member with old | new
          · exact bounded i old
          · rw [List.mem_singleton.mp new]
            exact Nat.mod_lt _ positive
    · rename_i enough
      cases picked
      exact ⟨nodup, bounded, enough⟩

variable {config : Config}

theorem pickSampleIndexes_spec {fuel leafCount : Nat} {indexes : List Nat} (positive : 0 < leafCount)
    (size : 1 ≤ config.sampleSize) (picked : pickSampleIndexes keccak config fuel leafCount epochId = some indexes) :
    indexes.Pairwise (· < ·) ∧ (∀ i ∈ indexes, i < leafCount) ∧ indexes ≠ [] ∧ indexes.length ≤ leafCount := by
  rw [pickSampleIndexes, Option.map_eq_some_iff] at picked
  obtain ⟨selected, looped, rfl⟩ := picked
  obtain ⟨nodup, bounded, enough⟩ := pickLoop_spec keccak positive nodup_nil (by simp) looped
  have sorted := pairwise_insertionSort (· ≤ ·) selected
  have distinct : (selected.insertionSort (· ≤ ·)).Nodup := (perm_insertionSort _ selected).nodup_iff.mpr nodup
  have inside : ∀ i ∈ selected.insertionSort (· ≤ ·), i < leafCount := by
    intro i member
    exact bounded i ((mem_insertionSort _).mp member)
  refine ⟨?_, inside, ?_, ?_⟩
  · exact sorted.imp₂ (fun _ _ le ne => Nat.lt_of_le_of_ne le ne) distinct
  · intro empty
    have none : selected.length = 0 := by
      rw [← length_insertionSort (· ≤ ·) selected, empty]
      rfl
    apply enough
    have zero : (((0 : Nat) : ℚ) : WithTop ℚ) < 1 := by
      exact WithTop.coe_lt_coe.mpr (by decide)
    rw [none, lt_min_iff]
    exact ⟨lt_of_lt_of_le zero size, WithTop.coe_lt_coe.mpr (Nat.cast_lt.mpr positive)⟩
  · have subset : selected ⊆ List.range leafCount := fun i member => List.mem_range.mpr (bounded i member)
    have short := (subperm_of_subset nodup subset).length_le
    rw [length_range] at short
    rw [length_insertionSort]
    exact short

end Picking

variable {proofs : List SampleProof}

section Samples

variable (chain : Chain)

def SampleProof.submitted (proof : SampleProof) : Settlement.SampleProof (BitVec 256) :=
  ⟨bytes32 proof.leaf, proof.merkleProof.map bytes32, proof.leafIndex⟩

structure SampleProof.Accepted (root : BitVec 256) (proof : SampleProof) : Prop where
  hex : IsHex32 proof.leaf
  nonzero : bytes32 proof.leaf ≠ default
  proven : proof.merkleProof ≠ []
  verified : MerkleProofLite.verify chain.crypto (proof.merkleProof.map bytes32) root (bytes32 proof.leaf) = true

theorem rolling_eq {rolling : Text} {proof : SampleProof} {leafIndex : Bytes} (isRolling : IsHex32 rolling)
    (isLeaf : IsHex32 proof.leaf) (written : u32Buffer proof.leafIndex = .ok leafIndex) :
    bytes32 (toHex32 (keccak256Hex chain.keccak (hexToBuffer rolling ++ leafIndex ++ hexToBuffer proof.leaf))) =
      chain.crypto.keccak256 [.bytes32 (bytes32 rolling), .uint 32 proof.leafIndex, .bytes32 (bytes32 proof.leaf)] := by
  obtain ⟨-, rfl⟩ := uintBuffer_ok.mp written
  simp [keccak256Hex, bytes32_word, isRolling.hexToBuffer_eq, isLeaf.hexToBuffer_eq, Chain.crypto, encodePacked,
    encodeField]

theorem checkSamples_accepts {batchId root : BitVec 256}
    {sampled : InsertionMap (BitVec 256 × BitVec 256) Bool} {rolling final : Text} {last : Option Nat}
    (accepted : ∀ proof ∈ proofs, proof.Accepted chain root)
    (ordered : proofs.Pairwise fun p q => p.leafIndex < q.leafIndex ∧ bytes32 p.leaf ≠ bytes32 q.leaf)
    (unsampled : ∀ proof ∈ proofs, sampled.read (batchId, bytes32 proof.leaf) = false)
    (above : ∀ index ∈ last, ∀ proof ∈ proofs, index < proof.leafIndex) (isRolling : IsHex32 rolling)
    (folded : proofs.foldlM (rollSample chain.keccak) rolling = .ok final) :
    IsHex32 final ∧ ∃ marked, checkSamples chain.crypto batchId root (proofs.map SampleProof.submitted) sampled
      (bytes32 rolling) last = .ok (marked, bytes32 final) := by
  induction proofs generalizing sampled rolling last with
  | nil =>
    cases folded
    exact ⟨isRolling, sampled, rfl⟩
  | cons proof proofs ih =>
    obtain ⟨first, others⟩ := List.forall_mem_cons.mp accepted
    obtain ⟨before, rest⟩ := List.pairwise_cons.mp ordered
    simp only [foldlM_cons, bind_ok, rollSample, pure_ok] at folded
    obtain ⟨next, ⟨leafIndex, written, rfl⟩, folded⟩ := folded
    have fresh : ∀ other ∈ proofs,
        (sampled.set (batchId, bytes32 proof.leaf) true).read (batchId, bytes32 other.leaf) = false := by
      intro other member
      rw [InsertionMap.read_set_other]
      · exact unsampled other (by simp [member])
      · intro same
        exact (before other member).2 (Prod.mk.inj same).2.symm
    have later : ∀ index ∈ some proof.leafIndex, ∀ other ∈ proofs, index < other.leafIndex := by
      rintro index is other member
      cases is
      exact (before other member).1
    obtain ⟨isFinal, marked, looped⟩ := ih others rest fresh later (isHex32_keccak chain.keccak _) folded
    refine ⟨isFinal, marked, ?_⟩
    rw [rolling_eq chain isRolling first.hex written] at looped
    have noLeaf : ¬ (bytes32 proof.leaf = default ∨ (proof.merkleProof.map bytes32).length = 0) := by
      rintro (zero | empty)
      · exact first.nonzero zero
      · rw [length_map] at empty
        exact first.proven (eq_nil_of_length_eq_zero empty)
    have ascending : ¬ ∃ index ∈ last, proof.leafIndex ≤ index := by
      rintro ⟨index, is, le⟩
      exact Nat.not_le_of_lt (above index is proof (by simp)) le
    simp only [map_cons, SampleProof.submitted, checkSamples, bind_ok, revertIf_ok]
    refine ⟨(), noLeaf, (), ascending, (), ?_, (), ?_, looped⟩
    · rw [unsampled proof (by simp)]
      exact Bool.false_ne_true
    · rw [first.verified]
      exact fun contrary => Bool.noConfusion contrary

def proofAt (leafHashes : List Text) (leafIndex : Nat) : SampleProof :=
  ⟨leafHashes.getD leafIndex [], leafIndex,
    (buildMerkleProof chain.keccak leafHashes leafIndex).toOption.getD []⟩

variable {leafHashes : List Text}

theorem proofAt_spec (all : ∀ leaf ∈ leafHashes, IsHex32 leaf) (nonzero : ∀ leaf ∈ leafHashes, bytes32 leaf ≠ 0)
    {index : Nat} (inside : index < leafHashes.length) :
    sampleProofOf chain.keccak leafHashes index = .ok (proofAt chain leafHashes index) ∧
      (proofAt chain leafHashes index).Accepted chain (bytes32 (buildMerkleRoot chain.keccak leafHashes)) := by
  obtain ⟨proof, built, proven, verified⟩ := verify_buildMerkleProof chain all inside
  have member : leafHashes.getD index [] ∈ leafHashes := by
    rw [getD_eq_getElem?_getD, getElem?_eq_getElem inside]
    exact getElem_mem inside
  have shown : (proofAt chain leafHashes index).merkleProof = proof := by
    rw [proofAt, built]
    rfl
  refine ⟨?_, ⟨all _ member, nonzero _ member, by rw [shown]; exact proven, by rw [shown]; exact verified⟩⟩
  rw [sampleProofOf, proofAt, built]
  rfl

theorem proofAt_ordered (all : ∀ leaf ∈ leafHashes, IsHex32 leaf) (distinct : leafHashes.Nodup) {indexes : List Nat}
    (ascending : indexes.Pairwise (· < ·)) (inside : ∀ i ∈ indexes, i < leafHashes.length) :
    (indexes.map (proofAt chain leafHashes)).Pairwise fun p q =>
      p.leafIndex < q.leafIndex ∧ bytes32 p.leaf ≠ bytes32 q.leaf := by
  rw [pairwise_map]
  refine ascending.imp_of_mem fun {i j} inI inJ less => ⟨less, fun same => ?_⟩
  have hereI := getElem?_eq_getElem (inside i inI)
  have hereJ := getElem?_eq_getElem (inside j inJ)
  simp only [proofAt, getD_eq_getElem?_getD, hereI, hereJ, Option.getD_some] at same
  have equal := IsHex32.bytes32_injective (all _ (getElem_mem (inside i inI)))
    (all _ (getElem_mem (inside j inJ))) same
  exact Nat.ne_of_lt less ((List.Nodup.getElem_inj_iff distinct).mp equal)

end Samples

section Submission

variable (chain : Chain)

def ReceiptBatchV2.submission (batch : ReceiptBatchV2) : Submission (BitVec 256) where
  epochId := batch.epochId.toNat
  merkleRoot := bytes32 batch.merkleRoot
  summaryHash := bytes32 batch.summaryHash
  sampleProofs := batch.sampleProofs.map SampleProof.submitted
  witnessBitmap := batch.witnessBitmap.toNat
  witnessSignatures := batch.witnessSignatures.map hexToBuffer
  metadata :=
    { challengeIds := batch.metadata.challengeIds.map bytes32
      nodeIds := batch.metadata.nodeIds.map bytes32
      responseBodyHashes := batch.metadata.responseBodyHashes.map bytes32
      leafHashes := batch.metadata.leafHashes.map bytes32
      resultCodes := batch.metadata.resultCodes
      witnessReceiptIndex := batch.metadata.witnessReceiptIndex }

variable {receipts : List VerifiedReceiptV2} {batch : ReceiptBatchV2}

structure Built (config : Config) (fuel : Nat) (epochId : Int) (receipts : List VerifiedReceiptV2)
    (batch : ReceiptBatchV2) (indexes : List Nat) : Prop where
  nonempty : receipts.length ≠ 0
  epoch : batch.epochId = epochId
  leaves : batch.leafHashes.length = receipts.length
  hex : ∀ leaf ∈ batch.leafHashes, IsHex32 leaf
  root : batch.merkleRoot = buildMerkleRoot chain.keccak batch.leafHashes
  picked : pickSampleIndexes chain.keccak config fuel batch.leafHashes.length epochId = some indexes
  proofs : indexes.mapM (sampleProofOf chain.keccak batch.leafHashes) = .ok batch.sampleProofs
  summary : buildSummaryHash chain.keccak epochId batch.merkleRoot batch.sampleProofs = .ok batch.summaryHash
  bitmap : batch.witnessBitmap = (combineBitmaps receipts).toInt
  metadata : batch.metadata = buildMetadata receipts batch.leafHashes (combineBitmaps receipts)

theorem exists_built {fuel : Nat} (built : buildBatch chain.keccak config fuel epochId receipts = some (.ok batch)) :
    ∃ indexes, Built chain config fuel epochId receipts batch indexes := by
  unfold buildBatch at built
  split at built
  · cases built
  · rename_i nonempty
    split at built
    · cases built
    · rename_i leafHashes hashed
      obtain ⟨indexes, picked, assembled⟩ := Option.map_eq_some_iff.mp built
      obtain ⟨lengths, sources⟩ := mapM_ok hashed
      simp only [assembleBatch, bind_ok, pure_ok] at assembled
      obtain ⟨proofs, proven, summary, summed, signatures, -, rfl⟩ := assembled
      exact ⟨indexes, nonempty, rfl, lengths, fun leaf member => hashEvidenceLeafV2_hex (sources leaf member).choose_spec.2,
        rfl, picked, proven, summed, rfl, rfl⟩

theorem bytes32_summary {merkleRoot commitment : Text} {count : Nat} {epoch counted : Bytes}
    (isRoot : IsHex32 merkleRoot) (isCommitment : IsHex32 commitment) (written : u64Buffer epochId = .ok epoch)
    (sized : u32Buffer count = .ok counted) :
    bytes32 (toHex32 (keccak256Hex chain.keccak (epoch ++ hexToBuffer merkleRoot ++ hexToBuffer commitment ++ counted))) =
      chain.crypto.keccak256 [.uint 64 epochId.toNat, .bytes32 (bytes32 merkleRoot), .bytes32 (bytes32 commitment),
        .uint 32 (count % 2 ^ 32)] := by
  obtain ⟨-, rfl⟩ := uintBuffer_ok.mp written
  obtain ⟨⟨-, small⟩, rfl⟩ := uintBuffer_ok.mp sized
  have fits : count % 2 ^ 32 = count := Nat.mod_eq_of_lt (by omega)
  rw [fits]
  simp [keccak256Hex, bytes32_word, isRoot.hexToBuffer_eq, isCommitment.hexToBuffer_eq, Chain.crypto, encodePacked,
    encodeField]

theorem isHex32_zeros : IsHex32 (toHex32 (List.replicate 64 '0')) := .of_all rfl rfl (by decide)

theorem bytes32_zeros : bytes32 (toHex32 (List.replicate 64 '0')) = default := by decide +kernel

/-- A built batch passes in any state of the chain, unless it or its root was submitted already. -/
theorem checkContents_accepts {fuel : Nat}
    (built : buildBatch chain.keccak config fuel epochId receipts = some (.ok batch))
    (distinct : batch.leafHashes.Nodup) (nonzero : ∀ leaf ∈ batch.leafHashes, bytes32 leaf ≠ 0)
    (size : 1 ≤ config.sampleSize) {s : PoSeManager (BitVec 256)} (recorded : SamplesRecorded s) {msg : Msg}
    (fresh : (s.batches.read (batchIdOf chain.crypto batch.submission.epochId batch.submission.merkleRoot
      batch.submission.summaryHash msg.sender)).merkleRoot = default)
    (unused : s.epochMerkleRootUsed.read (batch.submission.epochId, batch.submission.merkleRoot) = false) :
    ∃ sampled, s.checkContents chain.crypto msg batch.submission = .ok sampled := by
  obtain ⟨indexes, known⟩ := exists_built chain built
  have all := known.hex
  have positive : 0 < batch.leafHashes.length := by have := known.nonempty; have := known.leaves; omega
  obtain ⟨ascending, inside, -, -⟩ := pickSampleIndexes_spec chain.keccak positive size known.picked
  have summed := known.summary
  simp only [buildSummaryHash, bind_ok, pure_ok] at summed
  obtain ⟨commitment, rolled, epoch, written, counted, sized, summary⟩ := summed
  have proofs : batch.sampleProofs = indexes.map (proofAt chain batch.leafHashes) := Except.ok.inj
    (known.proofs.symm.trans (mapM_of_ok fun i member => (proofAt_spec chain all nonzero (inside i member)).1))
  rw [proofs] at rolled
  have isRoot : IsHex32 batch.merkleRoot := by
    rw [known.root]
    exact isHex32_buildMerkleRoot chain all
  have unsampled : ∀ batchId, (s.batches.read batchId).merkleRoot = default →
      ∀ proof ∈ indexes.map (proofAt chain batch.leafHashes),
        s.batchSampledLeaf.read (batchId, bytes32 proof.leaf) = false := by
    intro batchId new proof _
    exact Bool.eq_false_iff.mpr fun marked => recorded batchId _ marked new
  obtain ⟨isCommitment, marked, looped⟩ := checkSamples_accepts chain
    (fun proof member => by
      obtain ⟨i, inIndexes, rfl⟩ := List.mem_map.mp member
      exact (proofAt_spec chain all nonzero (inside i inIndexes)).2)
    (proofAt_ordered chain all distinct ascending inside) (unsampled _ fresh)
    (show ∀ index ∈ (none : Option Nat), ∀ proof ∈ _, index < SampleProof.leafIndex proof by simp) isHex32_zeros rolled
  rw [bytes32_zeros, ← known.root, ← proofs] at looped
  have rootEq : bytes32 batch.merkleRoot = rebuildMerkleRoot chain.crypto batch.submission.metadata.leafHashes := by
    rw [known.root, bytes32_buildMerkleRoot chain all (List.length_pos_iff.mp positive)]
    simp only [ReceiptBatchV2.submission, known.metadata, buildMetadata]
  have summaryEq := bytes32_summary chain isRoot isCommitment written sized
  rw [summary] at summaryEq
  refine ⟨marked, ?_⟩
  simp only [checkContents, bind_ok, revertIf_ok, pure_ok]
  refine ⟨(), not_not.mpr rootEq.symm, (), not_not.mpr fresh, (), by rw [unused]; exact Bool.false_ne_true,
    (marked, bytes32 commitment), looped, (), not_not.mpr ?_, rfl⟩
  simpa [ReceiptBatchV2.submission, known.epoch] using summaryEq

theorem checkShape_accepts {fuel : Nat}
    (built : buildBatch chain.keccak config fuel epochId receipts = some (.ok batch))
    (few : receipts.length ≤ maxReceiptsPerBatch) (size : 1 ≤ config.sampleSize) {s : PoSeManager (BitVec 256)}
    {env : Env (BitVec 256)} (root : bytes32 batch.merkleRoot ≠ 0) (summary : bytes32 batch.summaryHash ≠ 0)
    (begun : epochId ≤ env.currentEpoch) (unfinalized : (s.epochs.read batch.submission.epochId).finalized = false) :
    s.checkShape env batch.submission = .ok () := by
  obtain ⟨indexes, known⟩ := exists_built chain built
  have positive : 0 < batch.leafHashes.length := by have := known.nonempty; have := known.leaves; omega
  obtain ⟨-, -, some_, short⟩ := pickSampleIndexes_spec chain.keccak positive size known.picked
  have samples : batch.sampleProofs.length = indexes.length := (mapM_ok known.proofs).1
  have sampled := List.length_pos_iff.mpr some_
  have receiptCount := known.leaves
  have sameEpoch := known.epoch
  unfold maxReceiptsPerBatch at few
  simp only [checkShape, bind_ok, revertIf_ok]
  refine ⟨(), ?_, (), ?_, (), ?_, (), ?_, (), ?_, (), ?_, ?_⟩
  · rintro (zero | zero)
    · exact root zero
    · exact summary zero
  · simp only [ReceiptBatchV2.submission]
    omega
  · rw [unfinalized]
    exact Bool.false_ne_true
  · simp only [ReceiptBatchV2.submission, length_map]
    omega
  · simp only [ReceiptBatchV2.submission, known.metadata, buildMetadata, length_map]
    omega
  · simp only [ReceiptBatchV2.submission, known.metadata, buildMetadata, length_map, maxReceiptsPerBatch]
    omega
  · simp only [ReceiptBatchV2.submission, known.metadata, buildMetadata, length_map]
    omega

end Submission

section Bitmaps

theorem getLsbD_foldl_bitmaps (receipts : List VerifiedReceiptV2) (start : BitVec 32) (bit : Nat) :
    (receipts.foldl (fun combined receipt => combined ||| bitmapBits receipt.witnessBitmap) start).getLsbD bit =
      (start.getLsbD bit || receipts.any fun receipt => (bitmapBits receipt.witnessBitmap).getLsbD bit) := by
  induction receipts generalizing start with
  | nil => simp
  | cons receipt receipts ih =>
    rw [foldl_cons, ih, BitVec.getLsbD_or, any_cons, Bool.or_assoc]

theorem getLsbD_combineBitmaps (receipts : List VerifiedReceiptV2) (bit : Nat) :
    (combineBitmaps receipts).getLsbD bit =
      receipts.any fun receipt => (bitmapBits receipt.witnessBitmap).getLsbD bit := by
  rw [combineBitmaps, getLsbD_foldl_bitmaps]
  simp

theorem bitmapBits_low {bitmap : Int} (low : 0 ≤ bitmap ∧ bitmap < 2 ^ 31) : (bitmapBits bitmap).getLsbD 31 = false := by
  have small : (bitmapBits bitmap).toNat < 2 ^ 31 := by
    rw [bitmapBits, BitVec.toNat_ofInt]
    omega
  exact Nat.testBit_lt_two_pow small

theorem combineBitmaps_nonneg {receipts : List VerifiedReceiptV2}
    (low : ∀ receipt ∈ receipts, 0 ≤ receipt.witnessBitmap ∧ receipt.witnessBitmap < 2 ^ 31) :
    0 ≤ (combineBitmaps receipts).toInt := by
  have clear : (combineBitmaps receipts).getLsbD 31 = false := by
    rw [getLsbD_combineBitmaps, any_eq_false]
    intro receipt member
    rw [bitmapBits_low (low receipt member)]
    exact Bool.false_ne_true
  have msb : (combineBitmaps receipts).msb = false := clear
  rw [BitVec.msb_eq_toInt] at msb
  exact Int.not_lt.mp (of_decide_eq_false msb)

theorem collectWitnessSignature_ok {receipts : List VerifiedReceiptV2} {bit : Nat}
    (few : receipts.length ≤ maxReceiptsPerBatch) (small : bit < 32)
    (attested : ∀ receipt ∈ receipts, (bitmapBits receipt.witnessBitmap).getLsbD bit = true →
      ∃ witness ∈ receipt.witnesses, witness.witnessIndex = bit)
    (set : (combineBitmaps receipts).getLsbD bit = true) :
    ∃ signature, collectWitnessSignature receipts (buildMetadata receipts leafHashes (combineBitmaps receipts)) bit =
      .ok signature := by
  have found : (receipts.findIdx? fun receipt => (bitmapBits receipt.witnessBitmap).getLsbD bit).isSome = true := by
    rw [findIdx?_isSome]
    rwa [getLsbD_combineBitmaps] at set
  obtain ⟨index, first⟩ := Option.isSome_iff_exists.mp found
  obtain ⟨inside, holds, -⟩ := List.findIdx?_eq_some_iff_getElem.mp first
  obtain ⟨witness, listed, same⟩ := attested _ (getElem_mem inside) holds
  have read : (buildMetadata receipts leafHashes (combineBitmaps receipts)).witnessReceiptIndex.getD bit 0 = index := by
    have here : (List.range 32)[bit]? = some bit := by simp [small]
    rw [buildMetadata, getD_eq_getElem?_getD, getElem?_map, here]
    simp [receiptIndexOf, set, first]
  have used : index ≠ witnessIndexUnused := by
    unfold maxReceiptsPerBatch at few
    unfold witnessIndexUnused
    omega
  have attestation : (receipts[index].witnesses.find? fun w => decide (w.witnessIndex = (bit : Int))).isSome = true := by
    rw [find?_isSome]
    exact ⟨witness, listed, decide_eq_true same⟩
  obtain ⟨chosen, picked⟩ := Option.isSome_iff_exists.mp attestation
  refine ⟨chosen.signature, ?_⟩
  simp only [collectWitnessSignature, read, if_neg used, getElem?_eq_getElem inside, picked]

end Bitmaps

section Returns

variable (chain : Chain)

theorem mapM_exists {α δ ε : Type} {f : α → Except ε δ} {xs : List α} (each : ∀ x ∈ xs, ∃ y, f x = .ok y) :
    ∃ ys, xs.mapM f = .ok ys := by
  induction xs with
  | nil => exact ⟨[], rfl⟩
  | cons x xs ih =>
    obtain ⟨⟨y, first⟩, rest⟩ := List.forall_mem_cons.mp each
    obtain ⟨ys, others⟩ := ih rest
    refine ⟨y :: ys, ?_⟩
    rw [mapM_cons, first, others]
    rfl

theorem buildSampleCommitment_ok (small : ∀ proof ∈ proofs, proof.leafIndex < 256 ^ 4)
    (rolling : Text) : ∃ commitment, proofs.foldlM (rollSample chain.keccak) rolling = .ok commitment := by
  induction proofs generalizing rolling with
  | nil => exact ⟨rolling, rfl⟩
  | cons proof proofs ih =>
    obtain ⟨first, rest⟩ := List.forall_mem_cons.mp small
    have written : u32Buffer proof.leafIndex = .ok (bigEndian 4 proof.leafIndex) :=
      uintBuffer_ok.mpr ⟨by omega, rfl⟩
    obtain ⟨commitment, rolled⟩ := ih rest
      (toHex32 (keccak256Hex chain.keccak (hexToBuffer rolling ++ bigEndian 4 proof.leafIndex ++ hexToBuffer proof.leaf)))
    refine ⟨commitment, ?_⟩
    rw [foldlM_cons, rollSample, written]
    exact rolled

theorem buildBatch_returns {fuel : Nat} {receipts : List VerifiedReceiptV2} {indexes : List Nat}
    (nonempty : receipts ≠ []) (few : receipts.length ≤ maxReceiptsPerBatch) (size : 1 ≤ config.sampleSize)
    (hashed : receipts.mapM (hashEvidenceLeafV2 chain.keccak) = .ok leafHashes)
    (picked : pickSampleIndexes chain.keccak config fuel leafHashes.length epochId = some indexes)
    (epoch : 0 ≤ epochId ∧ epochId < 2 ^ 64)
    (attested : ∀ receipt ∈ receipts, ∀ bit < 32, (bitmapBits receipt.witnessBitmap).getLsbD bit = true →
      ∃ witness ∈ receipt.witnesses, witness.witnessIndex = bit) :
    ∃ batch, buildBatch chain.keccak config fuel epochId receipts = some (.ok batch) := by
  obtain ⟨lengths, sources⟩ := mapM_ok hashed
  have all : ∀ leaf ∈ leafHashes, IsHex32 leaf := fun leaf member =>
    hashEvidenceLeafV2_hex (sources leaf member).choose_spec.2
  have positive := List.length_pos_iff.mpr nonempty
  obtain ⟨-, inside, -, short⟩ := pickSampleIndexes_spec chain.keccak (by omega) size picked
  have proven : indexes.mapM (sampleProofOf chain.keccak leafHashes) = .ok (indexes.map (proofAt chain leafHashes)) := by
    refine mapM_of_ok fun i member => ?_
    obtain ⟨proof, built, -⟩ := verify_buildMerkleProof chain all (inside i member)
    rw [sampleProofOf, proofAt, built]
    rfl
  unfold maxReceiptsPerBatch at few
  have low : ∀ proof ∈ indexes.map (proofAt chain leafHashes), proof.leafIndex < 256 ^ 4 := by
    intro proof member
    obtain ⟨i, inIndexes, rfl⟩ := List.mem_map.mp member
    have := inside i inIndexes
    show i < 256 ^ 4
    omega
  obtain ⟨commitment, rolled⟩ := buildSampleCommitment_ok chain low (toHex32 (List.replicate 64 '0'))
  have written : u64Buffer epochId = .ok (bigEndian 8 epochId.toNat) := uintBuffer_ok.mpr ⟨by omega, rfl⟩
  have sized : u32Buffer (indexes.map (proofAt chain leafHashes)).length =
      .ok (bigEndian 4 (indexes.map (proofAt chain leafHashes)).length) :=
    uintBuffer_ok.mpr ⟨by rw [length_map]; omega, rfl⟩
  obtain ⟨signatures, collected⟩ : ∃ signatures, collectWitnessSignatures receipts (combineBitmaps receipts)
      (buildMetadata receipts leafHashes (combineBitmaps receipts)) = .ok signatures := by
    refine mapM_exists fun bit member => ?_
    obtain ⟨range, set⟩ := List.mem_filter.mp member
    have small := List.mem_range.mp range
    exact collectWitnessSignature_ok few small (fun receipt inReceipts => attested receipt inReceipts bit small) set
  obtain ⟨summary, summed⟩ : ∃ summary, buildSummaryHash chain.keccak epochId (buildMerkleRoot chain.keccak leafHashes)
      (indexes.map (proofAt chain leafHashes)) = .ok summary := by
    simp only [buildSummaryHash, buildSampleCommitment, bind_ok, pure_ok]
    exact ⟨_, commitment, rolled, _, written, _, sized, rfl⟩
  obtain ⟨batch, assembled⟩ : ∃ batch, assembleBatch chain.keccak epochId receipts leafHashes indexes = .ok batch := by
    simp only [assembleBatch, bind_ok, pure_ok]
    exact ⟨_, _, proven, summary, summed, signatures, collected, rfl⟩
  refine ⟨batch, ?_⟩
  rw [buildBatch, if_neg (by omega), hashed]
  simp only [picked, Option.map_some, assembled]

end Returns

def sampleChain : Chain where
  keccak := fun data => BitVec.ofNat 256 (uintOfBytes data % (2 ^ 256 - 1) + 1)
  ecrecover := fun _ _ _ _ => 0
  decodeEvidence := fun _ => none

def sampleReceipt (latencyMs : Int) : VerifiedReceiptV2 where
  challengeId := toHex32 (List.replicate 64 '1')
  nodeId := toHex32 (List.replicate 64 '2')
  responseBodyHash := toHex32 (List.replicate 64 '3')
  witnesses := [⟨1, toHex32 ['a', 'b'], none, some (toHex32 ['c', 'd'])⟩]
  witnessBitmap := 2
  evidenceLeaf :=
    ⟨7, toHex32 (List.replicate 64 '2'), toHex32 (List.replicate 32 '4'), toHex32 (List.replicate 64 '5'), 9, latencyMs,
      .timeout, 2⟩

def sampleReceipts : List VerifiedReceiptV2 := [sampleReceipt 10, sampleReceipt 20, sampleReceipt 30]

def sampleResult : Option (Except String ReceiptBatchV2) := buildBatch sampleChain.keccak ⟨2⟩ 8 7 sampleReceipts

def returned : Option (Except String ReceiptBatchV2) → Option ReceiptBatchV2
  | some (.ok batch) => some batch
  | _ => none

theorem eq_of_returned {result : Option (Except String ReceiptBatchV2)} (is : returned result = some batch) :
    result = some (.ok batch) := by
  match result, is with
  | some (.ok _), rfl => rfl

end Palimesh.Aggregator
