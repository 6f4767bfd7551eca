import Palimesh.Aggregator.Hex
import Palimesh.Collections.MerkleTree

namespace Palimesh.Aggregator

open Collections Settlement

inductive ResultCode
  | ok | timeout | invalidSig | storageProofFail | relayWitnessFail | tipMismatch | nonceMismatch | witnessQuorumFail
  | invalidStorageAudit
deriving DecidableEq

def ResultCode.code : ResultCode → Nat
  | .ok => 0
  | .timeout => 1
  | .invalidSig => 2
  | .storageProofFail => 3
  | .relayWitnessFail => 4
  | .tipMismatch => 5
  | .nonceMismatch => 6
  | .witnessQuorumFail => 7
  | .invalidStorageAudit => 8

structure EvidenceLeafV2 where
  epoch : Int
  nodeId : Text
  nonce : Text
  tipHash : Text
  tipHeight : Int
  latencyMs : Int
  resultCode : ResultCode
  witnessBitmap : Int

structure WitnessAttestation where
  witnessIndex : Int
  witnessSig : Text
  witnessSigV2 : Option Text
  witnessSigV3 : Option Text

structure VerifiedReceiptV2 where
  challengeId : Text
  nodeId : Text
  responseBodyHash : Text
  witnesses : List WitnessAttestation
  witnessBitmap : Int
  evidenceLeaf : EvidenceLeafV2

structure SampleProof where
  leaf : Text
  leafIndex : Nat
  merkleProof : List Text

structure ReceiptBatchMetadata where
  challengeIds : List Text
  nodeIds : List Text
  responseBodyHashes : List Text
  leafHashes : List Text
  resultCodes : List Nat
  witnessReceiptIndex : List Nat

structure ReceiptBatchV2 where
  epochId : Int
  merkleRoot : Text
  summaryHash : Text
  leafHashes : List Text
  sampleProofs : List SampleProof
  witnessBitmap : Int
  metadata : ReceiptBatchMetadata
  witnessSignatures : List Text

/-- A number that is compared with a size only; it may be infinite. -/
structure Config where
  sampleSize : WithTop ℚ

def uintBuffer (width : Nat) (value : Int) : Except String Bytes :=
  if 0 ≤ value ∧ value < 256 ^ width then .ok (bigEndian width value.toNat) else .error "ERR_OUT_OF_RANGE"

def u64Buffer (value : Int) : Except String Bytes := uintBuffer 8 value

def u32Buffer (value : Int) : Except String Bytes := uintBuffer 4 value

def u8Buffer (value : Int) : Except String Bytes := uintBuffer 1 value

def halfText (length : Nat) : String := toString (length / 2) ++ if length % 2 = 1 then ".5" else ""

def hexToBufferSized (hex : Text) (size : Nat) : Except String Bytes :=
  let raw := hex.drop 2
  if raw.length ≠ size * 2 then
    .error ("expected " ++ toString size ++ "-byte hex, got " ++ halfText raw.length ++ " bytes")
  else .ok (bufferFromHex raw)

section Hashing

variable (keccak : Bytes → BitVec 256)

def keccak256Hex (data : Bytes) : Text := wordDigits (keccak data)

def parentHash (left right : Text) : Text :=
  let (a, b) := if textLe left right then (left, right) else (right, left)
  toHex32 (keccak256Hex keccak (hexToBytes a ++ hexToBytes b))

variable (leaves : List Text)

def buildMerkleLayers : List (List Text) :=
  MerkleTree.levels (parentHash keccak) (leaves.length + 1) leaves

def buildMerkleRoot : Text :=
  match leaves with
  | [] => toHex32 (keccak256Hex keccak [])
  | [leaf] => parentHash keccak leaf leaf
  | _ => ((buildMerkleLayers keccak leaves).getLastD []).headD []

def buildMerkleProof (index : Int) : Except String (List Text) :=
  if leaves.length = 0 then .error "empty leaves"
  else if index < 0 ∨ leaves.length ≤ index then .error "invalid index"
  else
    match leaves with
    | [leaf] => .ok [leaf]
    | _ => .ok (MerkleTree.path [] (buildMerkleLayers keccak leaves) index.toNat)

def hashEvidenceLeafV2 (receipt : VerifiedReceiptV2) : Except String Text := do
  let leaf := receipt.evidenceLeaf
  let nonceBuf ← hexToBufferSized leaf.nonce 16
  let epoch ← u64Buffer leaf.epoch
  let tipHeight ← u64Buffer leaf.tipHeight
  let latencyMs ← u32Buffer leaf.latencyMs
  let resultCode ← u8Buffer leaf.resultCode.code
  let witnessBitmap ← u32Buffer leaf.witnessBitmap
  return toHex32 (keccak256Hex keccak (epoch ++ hexToBuffer leaf.nodeId ++ nonceBuf ++ hexToBuffer leaf.tipHash ++
    tipHeight ++ latencyMs ++ resultCode ++ witnessBitmap))

def rollSample (rolling : Text) (proof : SampleProof) : Except String Text := do
  let leafIndex ← u32Buffer proof.leafIndex
  return toHex32 (keccak256Hex keccak (hexToBuffer rolling ++ leafIndex ++ hexToBuffer proof.leaf))

def buildSampleCommitment (sampleProofs : List SampleProof) : Except String Text :=
  sampleProofs.foldlM (rollSample keccak) (toHex32 (List.replicate 64 '0'))

def buildSummaryHash (epochId : Int) (merkleRoot : Text) (sampleProofs : List SampleProof) : Except String Text := do
  let sampleCommitment ← buildSampleCommitment keccak sampleProofs
  let epoch ← u64Buffer epochId
  let count ← u32Buffer sampleProofs.length
  return toHex32 (keccak256Hex keccak (epoch ++ hexToBuffer merkleRoot ++ hexToBuffer sampleCommitment ++ count))

def sampleSeed (epochId : Int) (cursor : Nat) : Bytes :=
  bufferFromHex (padStart 16 (toString16 epochId)) ++ bufferFromHex (padStart 8 (toString16 cursor))

/-- The loop that draws until enough different indexes are there; it need not end. -/
def pickLoop (max : WithTop ℚ) (leafCount : Nat) (epochId : Int) : Nat → List Nat → Nat → Option (List Nat)
  | fuel, selected, cursor =>
    if ((selected.length : ℚ) : WithTop ℚ) < max then
      match fuel with
      | 0 => none
      | fuel + 1 =>
        let idx := (keccak (sampleSeed epochId cursor)).toNat % leafCount
        pickLoop max leafCount epochId fuel (if idx ∈ selected then selected else selected ++ [idx]) (cursor + 1)
    else some selected

def pickSampleIndexes (config : Config) (fuel leafCount : Nat) (epochId : Int) : Option (List Nat) :=
  (pickLoop keccak (min config.sampleSize ((leafCount : ℚ) : WithTop ℚ)) leafCount epochId fuel [] 0).map
    (List.insertionSort (· ≤ ·))

end Hashing

def witnessIndexUnused : Nat := 0xffff

/-- A bitmap in the bitwise operators, which work on 32 bits. -/
def bitmapBits (bitmap : Int) : BitVec 32 := BitVec.ofInt 32 bitmap

section

variable (receipts : List VerifiedReceiptV2)

def combineBitmaps : BitVec 32 :=
  receipts.foldl (fun combined receipt => combined ||| bitmapBits receipt.witnessBitmap) 0

def receiptIndexOf (combined : BitVec 32) (bit : Nat) : Nat :=
  if combined.getLsbD bit then
    (receipts.findIdx? fun receipt => (bitmapBits receipt.witnessBitmap).getLsbD bit).getD witnessIndexUnused
  else witnessIndexUnused

def buildMetadata (leafHashes : List Text) (combined : BitVec 32) : ReceiptBatchMetadata where
  challengeIds := receipts.map VerifiedReceiptV2.challengeId
  nodeIds := receipts.map VerifiedReceiptV2.nodeId
  responseBodyHashes := receipts.map VerifiedReceiptV2.responseBodyHash
  leafHashes := leafHashes
  resultCodes := receipts.map fun receipt => receipt.evidenceLeaf.resultCode.code
  witnessReceiptIndex := (List.range 32).map (receiptIndexOf receipts combined)

def WitnessAttestation.signature (attestation : WitnessAttestation) : Text :=
  (attestation.witnessSigV3.orElse fun _ => attestation.witnessSigV2).getD attestation.witnessSig

def collectWitnessSignature (metadata : ReceiptBatchMetadata) (bit : Nat) : Except String Text :=
  let receiptIdx := metadata.witnessReceiptIndex.getD bit 0
  if receiptIdx = witnessIndexUnused then
    .error ("witnessReceiptIndex[" ++ toString bit ++ "] missing despite bit set")
  else
    match receipts[receiptIdx]? with
    | none => .error "Cannot read properties of undefined"
    | some receipt =>
      match receipt.witnesses.find? fun witness => decide (witness.witnessIndex = (bit : Int)) with
      | none => .error ("witness attestation missing for bit " ++ toString bit ++ " on receipt " ++ toString receiptIdx ++
          " (challengeId=" ++ String.ofList receipt.challengeId ++ ")")
      | some attestation => .ok attestation.signature

def collectWitnessSignatures (combined : BitVec 32) (metadata : ReceiptBatchMetadata) : Except String (List Text) :=
  ((List.range 32).filter fun bit => combined.getLsbD bit).mapM (collectWitnessSignature receipts metadata)

end

section Building

variable (keccak : Bytes → BitVec 256)

def sampleProofOf (leafHashes : List Text) (leafIndex : Nat) : Except String SampleProof := do
  let merkleProof ← buildMerkleProof keccak leafHashes leafIndex
  return ⟨leafHashes.getD leafIndex [], leafIndex, merkleProof⟩

def assembleBatch (epochId : Int) (receipts : List VerifiedReceiptV2) (leafHashes : List Text)
    (sampleIndexes : List Nat) : Except String ReceiptBatchV2 := do
  let merkleRoot := buildMerkleRoot keccak leafHashes
  let sampleProofs ← sampleIndexes.mapM (sampleProofOf keccak leafHashes)
  let summaryHash ← buildSummaryHash keccak epochId merkleRoot sampleProofs
  let combinedBitmap := combineBitmaps receipts
  let metadata := buildMetadata receipts leafHashes combinedBitmap
  let witnessSignatures ← collectWitnessSignatures receipts combinedBitmap metadata
  return { epochId, merkleRoot, summaryHash, leafHashes, sampleProofs, metadata, witnessSignatures,
           witnessBitmap := combinedBitmap.toInt }

/-- Nothing comes out while the samples are still being picked. -/
def buildBatch (config : Config) (fuel : Nat) (epochId : Int) (receipts : List VerifiedReceiptV2) :
    Option (Except String ReceiptBatchV2) :=
  if receipts.length = 0 then some (.error "empty receipt batch")
  else
    match receipts.mapM (hashEvidenceLeafV2 keccak) with
    | .error message => some (.error message)
    | .ok leafHashes =>
      (pickSampleIndexes keccak config fuel leafHashes.length epochId).map
        (assembleBatch keccak epochId receipts leafHashes)

end Building

end Palimesh.Aggregator
