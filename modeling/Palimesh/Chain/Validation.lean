import Palimesh.Chain.BlockIndex

namespace Palimesh.Chain

open Collections

/-- Functions of the libraries below the node: Keccak, string collation, `BigInt(text)`, the decoding of
    hex text and the JSON form of a string. -/
structure Host where
  keccak256Hex : String → String
  localeLe : String → String → Bool
  bigInt : String → Option Int
  hexToBytes : Hex → Except String (List UInt8)
  jsonString : String → String

inductive ApplyError
  | reentrant
  | invalidLink
  | invalidProposer
  | undefinedProperty (property : String)
  | negativeTimestamp
  | timestampNotAfterParent
  | timestampInFuture
  | missingWeight
  | invalidWeight (expected got : Int)
  | invalidSignature
  | missingSignature
  | invalidHash
  | gasLimitExceeded (used limit : Int)
  | gasUsedMismatch (claimed computed : Int)
  | stateRootMismatch (claimed computed : Hex)
  | stateRootUnexpected (expected computed : Hex)
  | invalidStateRootSig
  | thrown (message : String)
deriving DecidableEq

def ApplyError.message : ApplyError → String
  | reentrant => "applyBlock re-entrant call detected"
  | invalidLink => "invalid block link"
  | invalidProposer => "invalid block proposer"
  | undefinedProperty property => "Cannot read properties of undefined (reading '" ++ property ++ "')"
  | negativeTimestamp => "block timestamp cannot be negative"
  | timestampNotAfterParent => "block timestamp must be after parent timestamp"
  | timestampInFuture => "block timestamp too far in the future"
  | missingWeight => "block missing cumulativeWeight after weighted chain activation"
  | invalidWeight expected got => "invalid cumulativeWeight: expected " ++ toString expected ++ ", got " ++ toString got
  | invalidSignature => "block proposer signature invalid"
  | missingSignature => "block missing proposer signature"
  | invalidHash => "invalid block hash"
  | gasLimitExceeded used limit => "block gas used " ++ toString used ++ " exceeds limit " ++ toString limit
  | gasUsedMismatch claimed computed =>
    "block gasUsed mismatch: claimed " ++ toString claimed ++ ", computed " ++ toString computed
  | stateRootMismatch claimed computed => "stateRoot mismatch: claimed " ++ claimed ++ ", computed " ++ computed
  | stateRootUnexpected expected computed => "stateRoot mismatch: expected " ++ expected ++ ", computed " ++ computed
  | invalidStateRootSig => "stateRoot signature invalid"
  | thrown message => message

inductive SignatureMode
  | off
  | monitor
  | enforce
deriving DecidableEq

structure NodeSigner where
  nodeId : String
  sign : String → Hex

abbrev Verifier := String → Hex → String → Bool

structure ValidatorInfo where
  id : String
  address : String
  stake : Int
  active : Bool
deriving DecidableEq

structure ValidatorSetEra where
  fromHeight : Int
  validators : List String
deriving DecidableEq

/-- An optional text that JavaScript counts as present: not missing and not empty. -/
def truthy (text : Option String) : Option String := text.filter (· ≠ "")

def hashBlockPayload (host : Host) (block : ChainBlock) : Hex :=
  "0x" ++ host.keccak256Hex (String.intercalate "|"
    [toString block.number, block.parentHash, block.proposer, toString block.timestampMs,
      String.intercalate "," block.txs, toString (block.baseFee.getD 0), toString (block.cumulativeWeight.getD 0),
      toString (block.blobGasUsed.getD 0), toString (block.excessBlobGas.getD 0),
      block.parentBeaconBlockRoot.getD ""])

def validateBlockLink (prev : Option ChainBlock) (next : ChainBlock) : Bool :=
  match prev with
  | none => next.number == 1 && next.parentHash == zeroHash
  | some prev => next.number == prev.number + 1 && next.parentHash == prev.hash

theorem validateBlockLink_number {prev : Option ChainBlock} {next : ChainBlock}
    (link : validateBlockLink prev next = true) : next.number = (prev.map ChainBlock.number).getD 0 + 1 := by
  unfold validateBlockLink at link
  cases prev with
  | none =>
    simp only [Bool.and_eq_true, beq_iff_eq] at link
    exact link.1
  | some prev =>
    simp only [Bool.and_eq_true, beq_iff_eq] at link
    exact link.1

/-- `set[(height - 1) % set.length]`, with the remainder of the sign of the dividend. -/
def rotationSlot {α : Type} (set : List α) (height : Int) : Option α :=
  let idx := (height - 1).tmod set.length
  if idx < 0 then none else set[idx.toNat]?

def hexDigit (c : Char) : Nat :=
  if '0' ≤ c ∧ c ≤ '9' then c.toNat - '0'.toNat
  else if 'a' ≤ c ∧ c ≤ 'f' then c.toNat - 'a'.toNat + 10
  else if 'A' ≤ c ∧ c ≤ 'F' then c.toNat - 'A'.toNat + 10
  else 0

def hexValue (digits : String) : Nat := digits.toList.foldl (fun value c => value * 16 + hexDigit c) 0

def pickByStake (seed : Int) : Int → List ValidatorInfo → Option String
  | _, [] => none
  | cumulative, v :: rest =>
    if seed < cumulative + v.stake then some v.id else pickByStake seed (cumulative + v.stake) rest

def stakeWeightedProposer (host : Host) (validators : List ValidatorInfo) (blockHeight : Int) :
    Except ApplyError String :=
  let sorted := validators.insertionSort fun a b => host.localeLe a.id b.id = true
  let totalStake := (sorted.map ValidatorInfo.stake).sum
  if totalStake = 0 then
    match rotationSlot sorted blockHeight with
    | some validator => .ok validator.id
    | none => .error (.undefinedProperty "id")
  else
    let seed := (hexValue (host.keccak256Hex (toString blockHeight)) : Int).tmod totalStake
    match pickByStake seed 0 sorted, sorted with
    | some id, _ => .ok id
    | none, first :: _ => .ok first.id
    | none, [] => .error (.thrown "cannot select proposer: validator set is empty")

def allowedAt (entries : List ValidatorSetEra) (height : Int) : Option (List String) :=
  match entries with
  | [] => none
  | first :: _ =>
    if height < first.fromHeight then none
    else
      let idx := (entries.takeWhile fun era => era.fromHeight ≤ height).length - 1
      let around := (if idx = 0 then [] else entries[idx - 1]?.toList) ++ entries[idx]?.toList ++ entries[idx + 1]?.toList
      some (around.flatMap ValidatorSetEra.validators)

def checkIf (condition : Bool) (check : Except ApplyError Unit) : Except ApplyError Unit :=
  if condition then check else .ok ()

def maxFutureMs : Int := 60000

def checkTimestamps (now : Int) (prev : Option ChainBlock) (block : ChainBlock) : Except ApplyError Unit :=
  if block.timestampMs < 0 then .error .negativeTimestamp
  else if prev.any fun parent => block.timestampMs ≤ parent.timestampMs then .error .timestampNotAfterParent
  else if now + maxFutureMs < block.timestampMs then .error .timestampInFuture
  else .ok ()

def checkWeight (expectedWeight : Int) (prev : Option ChainBlock) (block : ChainBlock) : Except ApplyError Unit :=
  match block.cumulativeWeight with
  | none => if (prev.bind ChainBlock.cumulativeWeight).isSome then .error .missingWeight else .ok ()
  | some weight => if weight = expectedWeight then .ok () else .error (.invalidWeight expectedWeight weight)

def checkSignature (mode : SignatureMode) (verifier : Option Verifier) (proposerAddr : String) (block : ChainBlock) :
    Except ApplyError Unit :=
  match verifier with
  | none => .ok ()
  | some verifyNodeSig =>
    if mode = .off then .ok ()
    else match truthy block.signature with
      | some signature =>
        if verifyNodeSig ("block:" ++ block.hash) signature proposerAddr then .ok () else .error .invalidSignature
      | none => if mode = .enforce then .error .missingSignature else .ok ()

def checkHash (host : Host) (block : ChainBlock) : Except ApplyError Unit :=
  if hashBlockPayload host block = block.hash then .ok () else .error .invalidHash

def signsAs (signer : Option NodeSigner) (proposer : String) : Option NodeSigner :=
  signer.filter fun signer => toLowerCase proposer == toLowerCase signer.nodeId

def stateRootSigFor (mode : SignatureMode) (signer : Option NodeSigner) (verifier : Option Verifier)
    (proposerAddr : String) (block : ChainBlock) (locallyProposed : Bool) (stateRoot : Option Hex) :
    Except ApplyError (Option Hex) :=
  match stateRoot with
  | none => .ok block.stateRootSig
  | some root =>
    let stateRootMsg := "stateRoot:" ++ block.hash ++ ":" ++ root
    if locallyProposed then
      match signsAs signer block.proposer with
      | some signer => .ok (some (signer.sign stateRootMsg))
      | none => .ok block.stateRootSig
    else match truthy block.stateRootSig, verifier with
      | some sig, some verifyNodeSig =>
        if verifyNodeSig stateRootMsg sig proposerAddr = false ∧ mode = .enforce then .error .invalidStateRootSig
        else .ok block.stateRootSig
      | _, _ => .ok block.stateRootSig

end Palimesh.Chain
