import Palimesh.Aggregator.RewardTree

namespace Palimesh.Pose

open Collections Aggregator
open Settlement (Bytes)

inductive ChallengeType where
  | uptime
  | storage
  | relay
deriving DecidableEq

def ChallengeType.text : ChallengeType → Text
  | uptime => ['U']
  | storage => ['S']
  | relay => ['R']

inductive JsNumber where
  | nan
  | infinity
  | negativeInfinity
  | finite (value : ℚ)
deriving DecidableEq

structure ChallengeMessage (Json : Type) where
  challengeId : Text
  epochId : Int
  nodeId : Text
  challengeType : ChallengeType
  nonce : Text
  randSeed : Text
  issuedAtMs : Int
  deadlineMs : Int
  querySpec : Json
  challengerId : Text
  challengerSig : Text
deriving DecidableEq

structure ReceiptMessage (Json : Type) where
  challengeId : Text
  nodeId : Text
  responseAtMs : Int
  responseBody : Json
  nodeSig : Text
deriving DecidableEq

structure VerifiedReceipt (Json : Type) where
  challenge : ChallengeMessage Json
  receipt : ReceiptMessage Json
  verifiedAtMs : Int
  responseBodyHash : Text
deriving DecidableEq

inductive VerificationResult where
  | ok (responseBodyHash : Text)
  | failed (reason : String)
deriving DecidableEq

/-- What the code takes from its libraries: hashing, signatures, and JSON values with two canonical texts (`none`
    if nested too deeply), members, truth value and number. -/
structure Runtime (Json : Type) where
  keccak256Hex : Bytes → Text
  utf8 : Text → Bytes
  verifyNodeSig : (message signature address : Text) → Bool
  stableStringify : Json → Option Text
  stableStringifySpec : Json → Option Text
  member : Json → String → Option Json
  truthy : Json → Bool
  number : Json → JsNumber

structure NonceRegistryOptions where
  ttlMs : Int := 7 * 24 * 60 * 60 * 1000
  maxEntries : Nat := 500000

structure NonceRegistry where
  used : InsertionMap Text Int
deriving DecidableEq

def hex32ToAddress (hex32 : Text) : Text :=
  let clean := if hex32.take 2 = ['0', 'x'] then hex32.drop 2 else hex32
  lowerCase (toHex32 (clean.drop (clean.length - 40)))

def u64Bytes (value : Int) : Except String Bytes :=
  if value < 0 ∨ 0xffffffffffffffff < value then .error "epochId out of range" else .ok (bigEndian 8 value.toNat)

def hexSized (digits : Nat) (error : String) (value : Text) : Except String Bytes :=
  if (value.drop 2).length = digits ∧ (value.drop 2).all (fun c => (nibble c).isSome) then
    .ok (bufferFromHex (value.drop 2))
  else .error error

def hex32Bytes : Text → Except String Bytes := hexSized 64 "invalid hex32"

def hex16Bytes : Text → Except String Bytes := hexSized 32 "expected 16 bytes hex"

variable {Json : Type} (runtime : Runtime Json) (options : NonceRegistryOptions)

def buildChallengeVerifyPayload (challenge : ChallengeMessage Json) : Except String Text := do
  let epochId ← u64Bytes challenge.epochId
  let nodeId ← hex32Bytes challenge.nodeId
  let nonce ← hex16Bytes challenge.nonce
  let challengerId ← hex32Bytes challenge.challengerId
  return toHex32 (runtime.keccak256Hex (epochId ++ nodeId ++ runtime.utf8 challenge.challengeType.text ++ nonce ++
    challengerId ++ bufferFromHex (challenge.challengeId.drop 2)))

def buildReceiptSignMessage (challengeId nodeId responseBodyHash : Text) (responseAtMs : Int) : Text :=
  "pose:receipt:".toList ++ challengeId ++ ':' :: nodeId ++ ':' :: responseBodyHash ++
    ':' :: (toString responseAtMs).toList

namespace NonceRegistry

variable (registry : NonceRegistry)

def expired (now ts : Int) : Bool := 0 < options.ttlMs && ts < now - options.ttlMs

variable (now : Int)

def pruneExpired : NonceRegistry := ⟨registry.used.filterValues fun ts => !expired options now ts⟩

/-- Deletes the oldest entries while the map is at capacity, which is at least one. -/
def evictIfNeeded : NonceRegistry := ⟨registry.used.dropOldest (registry.used.size + 1 - max 1 options.maxEntries)⟩

variable (challenge : ChallengeMessage Json)

def buildKey : Except String Text := do
  let epochId ← if challenge.epochId < 0 ∨ 0xffffffffffffffff < challenge.epochId then
      .error "The value of \"value\" is out of range." else .ok (bigEndian 8 challenge.epochId.toNat)
  return runtime.keccak256Hex (bufferFromHex (challenge.challengerId.drop 2) ++
    bufferFromHex (challenge.nodeId.drop 2) ++ bufferFromHex (challenge.nonce.drop 2) ++
    runtime.utf8 challenge.challengeType.text ++ epochId)

def consume : Except String Bool × NonceRegistry :=
  let pruned := registry.pruneExpired options now
  match buildKey runtime challenge with
  | .error error => (.error error, pruned)
  | .ok key =>
    if pruned.used.has key then (.ok false, pruned)
    else (.ok true, ⟨(pruned.evictIfNeeded options).used.set key now⟩)

/-- The challenge's nonce has not been used, or too long ago to be remembered. -/
def Fresh : Prop :=
  ∃ key, buildKey runtime challenge = .ok key ∧
    ∀ ts, registry.used.get? key = some ts → expired options now ts = true

theorem has_pruned (key : Text) :
    (registry.pruneExpired options now).used.has key = false ↔
      ∀ ts, registry.used.get? key = some ts → expired options now ts = true := by
  rw [InsertionMap.has, pruneExpired, InsertionMap.get?_filterValues]
  cases registry.used.get? key with
  | none => simp
  | some ts => simp [Option.filter]

theorem consume_ok_iff :
    (registry.consume runtime options now challenge).1 = .ok true ↔ registry.Fresh runtime options now challenge := by
  unfold consume Fresh
  cases built : buildKey runtime challenge with
  | error error => simp
  | ok key =>
    have pruned := has_pruned options registry now key
    by_cases known : (registry.pruneExpired options now).used.has key = true
    · simpa [known] using pruned
    · simpa [known] using pruned.mp (by simpa using known)

variable {challenge : ChallengeMessage Json}

theorem not_fresh_of_consume {now : Int} (taken : (registry.consume runtime options now challenge).1 = .ok true) :
    ¬ (registry.consume runtime options now challenge).2.Fresh runtime options now challenge := by
  rintro ⟨key, built, free⟩
  unfold consume at taken free
  simp only [built] at taken free
  split at taken
  · cases taken
  · rename_i absent
    rw [if_neg absent] at free
    have stale := free now (by rw [InsertionMap.get?_set, if_pos rfl])
    simp only [expired, Bool.and_eq_true, decide_eq_true_eq] at stale
    omega

theorem Fresh.later {registry : NonceRegistry} {now later : Int}
    (fresh : registry.Fresh runtime options now challenge) (after : now ≤ later) :
    registry.Fresh runtime options later challenge := by
  obtain ⟨key, built, free⟩ := fresh
  refine ⟨key, built, fun ts found => ?_⟩
  have stale := free ts found
  simp only [expired, Bool.and_eq_true, decide_eq_true_eq] at stale ⊢
  omega

end NonceRegistry

namespace ReceiptVerifier

section

variable (challenge : ChallengeMessage Json)

def verifyChallengerSig : Except String Bool :=
  (buildChallengeVerifyPayload runtime challenge).map fun payload =>
    runtime.verifyNodeSig payload challenge.challengerSig (hex32ToAddress challenge.challengerId)

def verifyNodeSig (challenge : ChallengeMessage Json) (receipt : ReceiptMessage Json) (responseBodyHash : Text) : Bool :=
  runtime.verifyNodeSig
    (buildReceiptSignMessage challenge.challengeId receipt.nodeId responseBodyHash receipt.responseAtMs)
    receipt.nodeSig (hex32ToAddress receipt.nodeId)

def belowMinimum (bn : ℚ) : JsNumber → Bool
  | .finite minBn => 0 < minBn && bn < minBn
  | .infinity => true
  | _ => false

variable (receipt : ReceiptMessage Json)

def verifyUptimeResult : Bool :=
  if !((runtime.member receipt.responseBody "ok").elim false runtime.truthy) then false
  else
    match (runtime.member receipt.responseBody "blockNumber").elim .nan runtime.number with
    | .finite bn =>
      if bn ≤ 0 then false
      else !belowMinimum bn ((runtime.member challenge.querySpec "minBlockNumber").elim (.finite 0) runtime.number)
    | _ => false

def hashResponseBody (body : Json) : Except String Text :=
  match runtime.stableStringify body with
  | none => .error "Maximum call stack size exceeded"
  | some stable => .ok (toHex32 (runtime.keccak256Hex (runtime.utf8 stable)))

/-- The checks of `verify` after the nonce was consumed. The engine passes a result check for uptime only. -/
def checkReceipt : Except String VerificationResult :=
  if receipt.challengeId ≠ challenge.challengeId ∨ receipt.nodeId ≠ challenge.nodeId then
    .ok (.failed "challenge/receipt mismatch")
  else if receipt.responseAtMs < challenge.issuedAtMs then
    .ok (.failed "receipt timestamp before challenge issuance")
  else if challenge.issuedAtMs + challenge.deadlineMs < receipt.responseAtMs then .ok (.failed "receipt timeout")
  else do
    let responseBodyHash ← hashResponseBody runtime receipt.responseBody
    if !verifyNodeSig runtime challenge receipt responseBodyHash then return .failed "invalid node signature"
    if challenge.challengeType = .uptime ∧ verifyUptimeResult runtime challenge receipt = false then
      return .failed "uptime replay failed"
    return .ok responseBodyHash

def verify (registry : NonceRegistry) (now : Int) (challenge : ChallengeMessage Json) (receipt : ReceiptMessage Json) :
    Except String VerificationResult × NonceRegistry :=
  match verifyChallengerSig runtime challenge with
  | .error error => (.error error, registry)
  | .ok false => (.ok (.failed "invalid challenger signature"), registry)
  | .ok true =>
    match registry.consume runtime options now challenge with
    | (.error error, consumed) => (.error error, consumed)
    | (.ok false, consumed) => (.ok (.failed "nonce replay detected"), consumed)
    | (.ok true, consumed) => (checkReceipt runtime challenge receipt, consumed)

def toVerifiedReceipt (registry : NonceRegistry) (now : Int) (challenge : ChallengeMessage Json)
    (receipt : ReceiptMessage Json) : Except String (VerifiedReceipt Json) × NonceRegistry :=
  match verify runtime options registry now challenge receipt with
  | (.error error, consumed) => (.error error, consumed)
  | (.ok (.failed reason), consumed) => (.error reason, consumed)
  | (.ok (.ok responseBodyHash), consumed) =>
    (.ok { challenge, receipt, verifiedAtMs := now, responseBodyHash }, consumed)

/-- The receipt answers the challenge: ids, time, node signature and result are right. -/
structure Answers (challenge : ChallengeMessage Json) (receipt : ReceiptMessage Json) : Prop where
  challengeId : receipt.challengeId = challenge.challengeId
  nodeId : receipt.nodeId = challenge.nodeId
  issued : challenge.issuedAtMs ≤ receipt.responseAtMs
  inTime : receipt.responseAtMs ≤ challenge.issuedAtMs + challenge.deadlineMs
  signed : ∃ responseBodyHash, hashResponseBody runtime receipt.responseBody = .ok responseBodyHash ∧
    verifyNodeSig runtime challenge receipt responseBodyHash = true
  result : challenge.challengeType = .uptime → verifyUptimeResult runtime challenge receipt = true

def Signed : Prop := verifyChallengerSig runtime challenge = .ok true

theorem checkReceipt_ok_iff :
    (∃ responseBodyHash, checkReceipt runtime challenge receipt = .ok (.ok responseBodyHash)) ↔
      Answers runtime challenge receipt := by
  unfold checkReceipt
  constructor
  · rintro ⟨hash, passed⟩
    split at passed
    · cases passed
    · split at passed
      · cases passed
      · split at passed
        · cases passed
        · rename_i ids issued inTime
          rw [not_or, not_not, not_not] at ids
          cases hashed : hashResponseBody runtime receipt.responseBody with
          | error error =>
            rw [hashed] at passed
            cases passed
          | ok responseBodyHash =>
            rw [hashed] at passed
            cases signed : verifyNodeSig runtime challenge receipt responseBodyHash with
            | false => simp [bind, Except.bind, pure, Except.pure, signed] at passed
            | true =>
              refine ⟨ids.1, ids.2, by omega, by omega, ⟨responseBodyHash, hashed, signed⟩, ?_⟩
              intro uptime
              by_contra failed
              have wrong := Bool.eq_false_iff.mpr failed
              simp [bind, Except.bind, pure, Except.pure, signed, uptime, wrong] at passed
  · intro answers
    obtain ⟨responseBodyHash, hashed, signed⟩ := answers.signed
    refine ⟨responseBodyHash, ?_⟩
    have ids : ¬ (receipt.challengeId ≠ challenge.challengeId ∨ receipt.nodeId ≠ challenge.nodeId) := by
      simp [answers.challengeId, answers.nodeId]
    have result : ¬ (challenge.challengeType = .uptime ∧ verifyUptimeResult runtime challenge receipt = false) := by
      rintro ⟨uptime, wrong⟩
      rw [answers.result uptime] at wrong
      cases wrong
    rw [if_neg ids, if_neg (not_lt.mpr answers.issued), if_neg (not_lt.mpr answers.inTime), hashed]
    simp [bind, Except.bind, pure, Except.pure, signed, result]

end

theorem verified_iff (registry : NonceRegistry) (now : Int) (challenge : ChallengeMessage Json)
    (receipt : ReceiptMessage Json) :
    (∃ verified, (toVerifiedReceipt runtime options registry now challenge receipt).1 = .ok verified) ↔
      Signed runtime challenge ∧ registry.Fresh runtime options now challenge ∧ Answers runtime challenge receipt := by
  rw [← NonceRegistry.consume_ok_iff, ← checkReceipt_ok_iff]
  unfold toVerifiedReceipt verify Signed
  cases verifyChallengerSig runtime challenge with
  | error error => simp
  | ok signed =>
    cases signed with
    | false => simp
    | true =>
      obtain ⟨outcome, consumed⟩ := registry.consume runtime options now challenge
      cases outcome with
      | error error => simp
      | ok fresh =>
        cases fresh with
        | false => simp
        | true =>
          rcases checkReceipt runtime challenge receipt with error | ⟨hash⟩ | ⟨reason⟩ <;> simp

theorem verified_registry (registry : NonceRegistry) {now : Int} (receipt : ReceiptMessage Json)
    (signed : Signed runtime challenge) (fresh : registry.Fresh runtime options now challenge) :
    (toVerifiedReceipt runtime options registry now challenge receipt).2 =
      (registry.consume runtime options now challenge).2 := by
  have taken := (NonceRegistry.consume_ok_iff runtime options registry now challenge).mpr fresh
  unfold toVerifiedReceipt verify
  rw [show verifyChallengerSig runtime challenge = .ok true from signed]
  generalize registry.consume runtime options now challenge = result at taken
  obtain ⟨outcome, consumed⟩ := result
  cases taken
  rcases checkReceipt runtime challenge receipt with error | ⟨hash⟩ | ⟨reason⟩ <;> rfl

end ReceiptVerifier

structure PoSeEngine (Json : Type) where
  nonceRegistry : NonceRegistry
  issuedChallenges : InsertionMap Text (ChallengeMessage Json)
  receipts : List (VerifiedReceipt Json)

def ChallengeMessage.absoluteDeadline (challenge : ChallengeMessage Json) : Int :=
  challenge.issuedAtMs + challenge.deadlineMs

/-- Throws when the query of the issued challenge, or then of the other, is nested too deeply. -/
def isSameChallenge (a b : ChallengeMessage Json) : Except String Bool :=
  if a.challengeId = b.challengeId ∧ a.epochId = b.epochId ∧ a.nodeId = b.nodeId ∧
      a.challengeType = b.challengeType ∧ a.nonce = b.nonce ∧ a.randSeed = b.randSeed ∧
      a.issuedAtMs = b.issuedAtMs ∧ a.deadlineMs = b.deadlineMs ∧ a.challengerId = b.challengerId ∧
      a.challengerSig = b.challengerSig then
    match runtime.stableStringifySpec a.querySpec, runtime.stableStringifySpec b.querySpec with
    | some first, some second => .ok (first = second)
    | _, _ => .error "stableStringify: object too deeply nested"
  else .ok false

namespace PoSeEngine

variable (engine : PoSeEngine Json)

/-- The end of both submit functions: the deadline, the verifier, the bookkeeping. -/
def takeReceipt (now : Int) (issued : ChallengeMessage Json) (receipt : ReceiptMessage Json) :
    Except String Unit × PoSeEngine Json :=
  if issued.absoluteDeadline < now then
    (.error "challenge deadline exceeded",
      { engine with issuedChallenges := engine.issuedChallenges.delete issued.challengeId })
  else
    match ReceiptVerifier.toVerifiedReceipt runtime options engine.nonceRegistry now issued receipt with
    | (.error error, nonceRegistry) => (.error error, { engine with nonceRegistry })
    | (.ok verified, nonceRegistry) =>
      (.ok (),
        { nonceRegistry
          issuedChallenges := engine.issuedChallenges.delete issued.challengeId
          receipts := engine.receipts ++ [verified] })

def submitReceipt (now : Int) (challenge : ChallengeMessage Json) (receipt : ReceiptMessage Json) :
    Except String Unit × PoSeEngine Json :=
  match engine.issuedChallenges.get? challenge.challengeId with
  | none => (.error "unknown challenge", engine)
  | some issued =>
    match isSameChallenge runtime issued challenge with
    | .error error => (.error error, engine)
    | .ok false => (.error "challenge payload mismatch", engine)
    | .ok true => engine.takeReceipt runtime options now issued receipt

def submitReceiptByChallengeId (now : Int) (challengeId : Text) (receipt : ReceiptMessage Json) :
    Except String Unit × PoSeEngine Json :=
  match engine.issuedChallenges.get? challengeId with
  | none => (.error "unknown challenge", engine)
  | some issued => engine.takeReceipt runtime options now issued receipt

end PoSeEngine

end Palimesh.Pose
