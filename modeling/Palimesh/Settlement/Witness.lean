import Palimesh.Settlement.Contract

namespace Palimesh.Settlement

open Collections

structure ReceiptBatchMetadata (β : Type) where
  challengeIds : List β
  nodeIds : List β
  responseBodyHashes : List β
  leafHashes : List β
  resultCodes : List Nat
  witnessReceiptIndex : List Nat
deriving DecidableEq

variable {β : Type} (C : Crypto β)

def computeDomainSeparator (env : Env β) : β :=
  C.keccak256 [
    .bytes32 (C.keccak256 [.text "EIP712Domain(string name,string version,uint256 chainId,address verifyingContract)"]),
    .bytes32 (C.keccak256 [.text "COCPoSe"]),
    .bytes32 (C.keccak256 [.text "2"]),
    .uint 256 env.chainId,
    .uint 256 env.self]

namespace WitnessDigestLib

def witnessTypehash : β :=
  C.keccak256 [.text
    "WitnessAttestation(bytes32 challengeId,bytes32 nodeId,bytes32 responseBodyHash,uint8 witnessIndex)"]

def witnessTypehashV2 : β :=
  C.keccak256 [.text
    "WitnessAttestationV2(bytes32 challengeId,bytes32 nodeId,bytes32 responseBodyHash,uint8 witnessIndex,uint64 epochId)"]

def witnessTypehashV3 : β :=
  C.keccak256 [.text
    "WitnessAttestationV3(bytes32 challengeId,bytes32 nodeId,bytes32 responseBodyHash,uint8 resultCode,uint8 witnessIndex,uint64 epochId)"]

def typedDigest (domainSeparator structHash : β) : β :=
  C.keccak256 [.text "\x19\x01", .bytes32 domainSeparator, .bytes32 structHash]

variable (domainSeparator challengeId nodeId responseBodyHash : β)

def buildV1 (witnessIndex : Nat) : β :=
  typedDigest C domainSeparator (C.keccak256 [.bytes32 (witnessTypehash C), .bytes32 challengeId, .bytes32 nodeId,
    .bytes32 responseBodyHash, .uint 256 witnessIndex])

def buildV2 (witnessIndex epochId : Nat) : β :=
  typedDigest C domainSeparator (C.keccak256 [.bytes32 (witnessTypehashV2 C), .bytes32 challengeId, .bytes32 nodeId,
    .bytes32 responseBodyHash, .uint 256 witnessIndex, .uint 256 epochId])

def buildV3 (resultCode witnessIndex epochId : Nat) : β :=
  typedDigest C domainSeparator (C.keccak256 [.bytes32 (witnessTypehashV3 C), .bytes32 challengeId, .bytes32 nodeId,
    .bytes32 responseBodyHash, .uint 256 resultCode, .uint 256 witnessIndex, .uint 256 epochId])

end WitnessDigestLib

def uintOfBytes (bytes : Bytes) : Nat := bytes.foldl (fun acc byte => acc * 256 + byte.toNat) 0

def secp256k1nHalf : Nat := 0x7FFFFFFFFFFFFFFFFFFFFFFFFFFFFFFF5D576E7357A4501DDFE92F46681B20A0

/-- The checks on a 65-byte signature before the precompile; zero when they fail. -/
def recoverSigner (digest : β) (sig : Bytes) : Address :=
  if sig.length ≠ 65 then 0
  else
    let given := (sig.getD 64 0).toNat
    let v := if given < 27 then given + 27 else given
    let s := uintOfBytes ((sig.drop 32).take 32)
    if v ≠ 27 ∧ v ≠ 28 then 0
    else if secp256k1nHalf < s then 0
    else C.ecrecover digest v (uintOfBytes (sig.take 32)) s

def ethSignedHash (messageHash : β) : β :=
  C.keccak256 [.text "\x19Ethereum Signed Message:\n32", .bytes32 messageHash]

def sqrtLoop (x : Nat) : Nat → Nat → Nat → Nat
  | 0, y, _ => y
  | fuel + 1, y, z => if z < y then sqrtLoop x fuel z ((x / z + z) / 2) else y

def sqrt (x : Nat) : Nat := if x = 0 then 0 else sqrtLoop x x x ((x + 1) / 2)

def witnessCount (activeCount : Nat) : Nat :=
  let root := sqrt activeCount
  let m := if root * root < activeCount then root + 1 else root
  min (min m activeCount) 32

variable [DecidableEq β] [Inhabited β]

def selectWitnesses (activeNodeIds : List β) (nonce m : Nat) : Nat → Nat → List β → List β
  | 0, _, witnesses => witnesses
  | fuel + 1, i, witnesses =>
    if witnesses.length < m then
      let idx := C.toUint (C.keccak256 [.uint 64 nonce, .uint 256 i]) % activeNodeIds.length
      let candidate := activeNodeIds.getD idx default
      selectWitnesses activeNodeIds nonce m fuel (i + 1)
        (if candidate ∈ witnesses then witnesses else witnesses ++ [candidate])
    else witnesses

variable (s : PoSeManager β)

def getWitnessSet (epochId : Nat) : List β :=
  let activeCount := s.activeNodeIds.length
  if activeCount = 0 then []
  else selectWitnesses C s.activeNodeIds (s.epochs.read epochId).challengeNonce (witnessCount activeCount)
    (activeCount * 3) 0 []

/-- What a witness at bit `witnessIndex` is taken to have signed for the receipt, in the three versions. -/
def recoverWitnessSigner (env : Env β) (nodeId : β) (receiptIdx witnessIndex epochId : Nat)
    (metadata : ReceiptBatchMetadata β) (sig : Bytes) : β × Address :=
  let challengeId := metadata.challengeIds.getD receiptIdx default
  let bodyHash := metadata.responseBodyHashes.getD receiptIdx default
  let ds := computeDomainSeparator C env
  let operator := s.nodeOperator.read nodeId
  let digestV3 := WitnessDigestLib.buildV3 C ds challengeId nodeId bodyHash (metadata.resultCodes.getD receiptIdx 0)
    witnessIndex epochId
  if recoverSigner C digestV3 sig = operator then (digestV3, recoverSigner C digestV3 sig)
  else if s.v2SunsetEpoch ≠ 0 ∧ s.v2SunsetEpoch < epochId then (digestV3, 0)
  else
    let digestV2 := WitnessDigestLib.buildV2 C ds challengeId nodeId bodyHash witnessIndex epochId
    if recoverSigner C digestV2 sig = operator then (digestV2, recoverSigner C digestV2 sig)
    else if s.v1SunsetEpoch ≠ 0 ∧ s.v1SunsetEpoch < epochId then (digestV2, 0)
    else
      let digestV1 := WitnessDigestLib.buildV1 C ds challengeId nodeId bodyHash witnessIndex
      (digestV1, recoverSigner C digestV1 sig)

/-- The second loop of `_validateWitnessQuorumV2`, over the witness set with its bit positions. It
    returns the replay guard with the used digests marked. -/
def checkWitnesses (s : PoSeManager β) (env : Env β) (epochId witnessBitmap : Nat) (metadata : ReceiptBatchMetadata β) :
    List (β × Nat) → List Bytes → List Address → InsertionMap β Bool → Result (InsertionMap β Bool)
  | [], _, _, used => .ok used
  | (nodeId, i) :: rest, sigs, seenOperators, used =>
    if witnessBitmap.testBit i then
      match sigs with
      | [] => .error .invalidWitnessQuorum
      | sig :: sigs => do
        revertIf (s.activeNodeIndex.read nodeId = 0) .witnessNotActive
        let receiptIdx := metadata.witnessReceiptIndex.getD i 0
        revertIf (metadata.leafHashes.length ≤ receiptIdx) .badReceiptIndex
        let operator := s.nodeOperator.read nodeId
        let recovered := recoverWitnessSigner C s env nodeId receiptIdx i epochId metadata sig
        revertIf (recovered.2 = 0 ∨ recovered.2 ≠ operator) .invalidWitnessQuorum
        revertIf (operator ∈ seenOperators) .witnessOperatorDuplicate
        let replayKey := C.keccak256 [.uint 64 epochId, .bytes32 nodeId, .bytes32 recovered.1]
        revertIf (used.read replayKey = true) .witnessSigReplay
        checkWitnesses s env epochId witnessBitmap metadata rest sigs (seenOperators ++ [operator])
          (used.set replayKey true)
    else checkWitnesses s env epochId witnessBitmap metadata rest sigs seenOperators used

def countBits (witnessBitmap m : Nat) : Nat := ((List.range (min m 32)).filter fun i => witnessBitmap.testBit i).length

def requiredWitnesses (m : Nat) : Nat := (2 * m + 2) / 3

def validateWitnessQuorumV2 (env : Env β) (msg : Msg) (epochId witnessBitmap : Nat) (witnessSignatures : List Bytes)
    (metadata : ReceiptBatchMetadata β) : Result (PoSeManager β) :=
  let witnessSet := getWitnessSet C s epochId
  let m := witnessSet.length
  if m = 0 then do
    revertIf (msg.sender ≠ s.owner) .invalidWitnessQuorum
    revertIf (witnessBitmap ≠ 0 ∨ witnessSignatures.length ≠ 0) .invalidWitnessQuorum
    return s
  else if witnessBitmap = 0 ∧ witnessSignatures.length = 0 then do
    revertIf (s.allowEmptyWitnessSubmission = false ∨ msg.sender ≠ s.owner) .invalidWitnessQuorum
    return s
  else do
    revertIf (countBits witnessBitmap m < requiredWitnesses m) .invalidWitnessQuorum
    let used ← checkWitnesses C s env epochId witnessBitmap metadata (witnessSet.zipIdx.take 32) witnessSignatures []
      s.witnessSigUsed
    return { s with witnessSigUsed := used }

end Palimesh.Settlement
