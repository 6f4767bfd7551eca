import Palimesh.Pose.ReceiptVerifier

namespace Palimesh.Pose

open Collections Aggregator ReceiptVerifier

inductive Submission (Json : Type) where
  | withChallenge (challenge : ChallengeMessage Json) (receipt : ReceiptMessage Json)
  | byChallengeId (challengeId : Text) (receipt : ReceiptMessage Json)

variable {Json : Type} (runtime : Runtime Json) (options : NonceRegistryOptions)

namespace Submission

variable (submission : Submission Json)

def challengeId : Text :=
  match submission with
  | withChallenge challenge _ => challenge.challengeId
  | byChallengeId challengeId _ => challengeId

def receipt : ReceiptMessage Json :=
  match submission with
  | withChallenge _ receipt => receipt
  | byChallengeId _ receipt => receipt

def Presents (issued : ChallengeMessage Json) : Prop :=
  match submission with
  | withChallenge challenge _ => isSameChallenge runtime issued challenge = .ok true
  | byChallengeId _ _ => True

end Submission

namespace PoSeEngine

variable (engine : PoSeEngine Json)

def submit (now : Int) : Submission Json → Except String Unit × PoSeEngine Json
  | .withChallenge challenge receipt => engine.submitReceipt runtime options now challenge receipt
  | .byChallengeId challengeId receipt => engine.submitReceiptByChallengeId runtime options now challengeId receipt

def Accepts (now : Int) (submission : Submission Json) : Prop := (engine.submit runtime options now submission).1 = .ok ()

instance (now : Int) (submission : Submission Json) : Decidable (engine.Accepts runtime options now submission) :=
  inferInstanceAs (Decidable (_ = _))

/-- Whatever was acceptable for the challenge at `now` is acceptable afterwards, up to the deadline. -/
def KeepsAcceptable (after : PoSeEngine Json) (now : Int) (issued : ChallengeMessage Json) (challengeId : Text) : Prop :=
  ∀ submission : Submission Json, submission.challengeId = challengeId → engine.Accepts runtime options now submission →
    ∀ later, now ≤ later → later ≤ issued.absoluteDeadline → after.Accepts runtime options later submission

variable {engine} (now : Int) {issued : ChallengeMessage Json} {submission : Submission Json}

variable {receipt : ReceiptMessage Json}

theorem takeReceipt_ok_iff :
    (engine.takeReceipt runtime options now issued receipt).1 = .ok () ↔
      now ≤ issued.absoluteDeadline ∧ Signed runtime issued ∧
        engine.nonceRegistry.Fresh runtime options now issued ∧ Answers runtime issued receipt := by
  rw [← verified_iff]
  unfold takeReceipt
  by_cases late : issued.absoluteDeadline < now
  · have missed : ¬ now ≤ issued.absoluteDeadline := by omega
    simp [late, missed]
  · have inTime : now ≤ issued.absoluteDeadline := by omega
    obtain ⟨verified, consumed⟩ := toVerifiedReceipt runtime options engine.nonceRegistry now issued receipt
    cases verified with
    | error error => simp [late]
    | ok verified => simp [late, inTime]

theorem acceptsById_iff {challengeId : Text} (found : engine.issuedChallenges.get? challengeId = some issued)
    (receipt : ReceiptMessage Json) :
    engine.Accepts runtime options now (.byChallengeId challengeId receipt) ↔
      now ≤ issued.absoluteDeadline ∧ Signed runtime issued ∧
        engine.nonceRegistry.Fresh runtime options now issued ∧ Answers runtime issued receipt := by
  rw [Accepts, submit, submitReceiptByChallengeId]
  simp only [found]
  exact takeReceipt_ok_iff runtime options now

theorem takeReceipt_rejected (inTime : now ≤ issued.absoluteDeadline)
    (rejected : (engine.takeReceipt runtime options now issued receipt).1 ≠ .ok ()) :
    (engine.takeReceipt runtime options now issued receipt).2 =
      { engine with
        nonceRegistry := (toVerifiedReceipt runtime options engine.nonceRegistry now issued receipt).2 } := by
  have early : ¬ issued.absoluteDeadline < now := by omega
  unfold takeReceipt at rejected ⊢
  rw [if_neg early] at rejected ⊢
  generalize toVerifiedReceipt runtime options engine.nonceRegistry now issued receipt = result at rejected
  obtain ⟨verified, consumed⟩ := result
  cases verified with
  | error error => rfl
  | ok verified => exact absurd rfl rejected

section

variable (found : engine.issuedChallenges.get? submission.challengeId = some issued)
include found

theorem submit_of_presents (presented : submission.Presents runtime issued) :
    engine.submit runtime options now submission = engine.takeReceipt runtime options now issued submission.receipt := by
  cases submission with
  | withChallenge challenge receipt =>
    unfold Submission.Presents at presented
    simp only [submit, submitReceipt]
    rw [show engine.issuedChallenges.get? challenge.challengeId = some issued from found]
    simp only [presented]
    rfl
  | byChallengeId challengeId receipt =>
    simp only [submit, submitReceiptByChallengeId]
    rw [show engine.issuedChallenges.get? challengeId = some issued from found]
    rfl

theorem submit_of_not_presents (altered : ¬ submission.Presents runtime issued) :
    ∃ error, engine.submit runtime options now submission = (.error error, engine) := by
  cases submission with
  | withChallenge challenge receipt =>
    simp only [submit, submitReceipt]
    rw [show engine.issuedChallenges.get? challenge.challengeId = some issued from found]
    cases compared : isSameChallenge runtime issued challenge with
    | error error => exact ⟨error, by simp only [compared]⟩
    | ok same =>
      cases same with
      | false => exact ⟨"challenge payload mismatch", by simp only [compared]⟩
      | true => exact absurd compared altered
  | byChallengeId challengeId receipt => exact absurd trivial altered

theorem accepts_iff :
    engine.Accepts runtime options now submission ↔
      submission.Presents runtime issued ∧ now ≤ issued.absoluteDeadline ∧ Signed runtime issued ∧
        engine.nonceRegistry.Fresh runtime options now issued ∧ Answers runtime issued submission.receipt := by
  by_cases presented : submission.Presents runtime issued
  · rw [Accepts, submit_of_presents runtime options now found presented, takeReceipt_ok_iff]
    simp only [presented, true_and]
  · obtain ⟨error, refused⟩ := submit_of_not_presents runtime options now found presented
    simp [Accepts, refused, presented]

theorem KeepsAcceptable.refl : engine.KeepsAcceptable runtime options engine now issued submission.challengeId := by
  intro other same accepted later after inTime
  rw [← same] at found
  rw [accepts_iff runtime options _ found] at accepted ⊢
  obtain ⟨presented, _, signed, fresh, answers⟩ := accepted
  exact ⟨presented, inTime, signed, fresh.later runtime options after, answers⟩

theorem not_keepsAcceptable (inTime : now ≤ issued.absoluteDeadline)
    (rejected : ¬ engine.Accepts runtime options now submission) (presented : submission.Presents runtime issued)
    (signed : Signed runtime issued) (fresh : engine.nonceRegistry.Fresh runtime options now issued)
    (answers : Answers runtime issued receipt) :
    ¬ engine.KeepsAcceptable runtime options (engine.submit runtime options now submission).2 now issued
      submission.challengeId := by
  intro kept
  have before : engine.Accepts runtime options now (.byChallengeId submission.challengeId receipt) :=
    (acceptsById_iff runtime options now found receipt).mpr ⟨inTime, signed, fresh, answers⟩
  have after := kept (.byChallengeId submission.challengeId receipt) rfl before now le_rfl inTime
  have taken := submit_of_presents runtime options now found presented
  rw [Accepts, taken] at rejected
  have state := takeReceipt_rejected runtime options now inTime rejected
  rw [verified_registry runtime options _ _ signed fresh, ← taken] at state
  generalize (engine.submit runtime options now submission).2 = next at after state
  have outstanding : next.issuedChallenges.get? submission.challengeId = some issued := by
    rw [state]
    exact found
  obtain ⟨_, _, again, _⟩ := (acceptsById_iff runtime options now outstanding receipt).mp after
  rw [state] at again
  have consumed := (NonceRegistry.consume_ok_iff runtime options engine.nonceRegistry now issued).mpr fresh
  exact NonceRegistry.not_fresh_of_consume runtime options _ consumed again

end

/-- A rejection before the deadline takes nothing away exactly when the challenge sent is not the issued one, or
    nothing could be accepted for it in the first place. -/
theorem rejected_keepsAcceptable_iff (engine : PoSeEngine Json) (now : Int) (issued : ChallengeMessage Json)
    (submission : Submission Json) (found : engine.issuedChallenges.get? submission.challengeId = some issued)
    (inTime : now ≤ issued.absoluteDeadline) (rejected : ¬ engine.Accepts runtime options now submission) :
    engine.KeepsAcceptable runtime options (engine.submit runtime options now submission).2 now issued
        submission.challengeId ↔
      ¬ submission.Presents runtime issued ∨ ¬ Signed runtime issued ∨
        ¬ engine.nonceRegistry.Fresh runtime options now issued ∨ ∀ receipt, ¬ Answers runtime issued receipt := by
  constructor
  · intro kept
    by_contra reachable
    simp only [not_or, not_not, not_forall] at reachable
    obtain ⟨presented, signed, fresh, receipt, answers⟩ := reachable
    exact not_keepsAcceptable runtime options now found inTime rejected presented signed fresh answers kept
  · intro harmless
    by_cases presented : submission.Presents runtime issued
    · -- Nothing was acceptable.
      intro other same accepted
      rw [← same] at found
      obtain ⟨_, _, signed, fresh, answers⟩ := (accepts_iff runtime options _ found).mp accepted
      rcases harmless with altered | unsigned | used | unanswerable
      · exact absurd presented altered
      · exact absurd signed unsigned
      · exact absurd fresh used
      · exact absurd answers (unanswerable _)
    · obtain ⟨error, refused⟩ := submit_of_not_presents runtime options now found presented
      rw [refused]
      exact .refl runtime options now found

def sampleRuntime : Runtime Unit where
  keccak256Hex bytes := bytes.map fun byte => Char.ofNat byte.toNat
  utf8 text := text.map fun c => UInt8.ofNat c.toNat
  verifyNodeSig message signature address := signature = address ++ message
  stableStringify _ := some ['x']
  stableStringifySpec _ := some ['x']
  member _ _ := none
  truthy _ := true
  number _ := .nan

def unsignedChallenge : ChallengeMessage Unit where
  challengeId := toHex32 (List.replicate 64 '1')
  epochId := 3
  nodeId := toHex32 (List.replicate 64 '2')
  challengeType := .storage
  nonce := toHex32 (List.replicate 32 '3')
  randSeed := toHex32 (List.replicate 64 '5')
  issuedAtMs := 1000
  deadlineMs := 2500
  querySpec := ()
  challengerId := toHex32 (List.replicate 64 '4')
  challengerSig := []

def sampleChallenge : ChallengeMessage Unit :=
  { unsignedChallenge with
    challengerSig := hex32ToAddress unsignedChallenge.challengerId ++
      (buildChallengeVerifyPayload sampleRuntime unsignedChallenge).toOption.getD [] }

def forgedReceipt : ReceiptMessage Unit where
  challengeId := sampleChallenge.challengeId
  nodeId := sampleChallenge.nodeId
  responseAtMs := 1050
  responseBody := ()
  nodeSig := []

def honestReceipt : ReceiptMessage Unit :=
  { forgedReceipt with
    nodeSig := hex32ToAddress sampleChallenge.nodeId ++
      buildReceiptSignMessage sampleChallenge.challengeId sampleChallenge.nodeId
        ((hashResponseBody sampleRuntime ()).toOption.getD []) 1050 }

def sampleEngine : PoSeEngine Unit where
  nonceRegistry := ⟨.empty⟩
  issuedChallenges := InsertionMap.empty.set sampleChallenge.challengeId sampleChallenge
  receipts := []

/-- A submission whose challenge is not the issued one is harmless: the honest receipt is accepted afterwards. -/
theorem alteredChallenge_harmless :
    let altered : Submission Unit := .withChallenge { sampleChallenge with epochId := 4 } honestReceipt
    sampleEngine.KeepsAcceptable sampleRuntime {} (sampleEngine.submit sampleRuntime {} 1100 altered).2 1100
        sampleChallenge sampleChallenge.challengeId ∧
      sampleEngine.Accepts sampleRuntime {} 1100 (.byChallengeId sampleChallenge.challengeId honestReceipt) := by
  refine ⟨?_, by decide +kernel⟩
  have altered : ¬ (Submission.withChallenge { sampleChallenge with epochId := 4 } honestReceipt).Presents sampleRuntime
      sampleChallenge := by
    unfold Submission.Presents
    decide +kernel
  exact (rejected_keepsAcceptable_iff sampleRuntime {} sampleEngine 1100 sampleChallenge
    (.withChallenge { sampleChallenge with epochId := 4 } honestReceipt) (by decide +kernel) (by decide +kernel)
    (by decide +kernel)).mpr (.inl altered)

/-- Anyone who knows the challenge's id can spoil it with an unsigned receipt. -/
theorem forgedReceipt_spoils_challenge :
    let spoiled := sampleEngine.submitReceiptByChallengeId sampleRuntime {} 1100 sampleChallenge.challengeId forgedReceipt
    spoiled.1 = .error "invalid node signature" ∧
      (sampleEngine.submitReceiptByChallengeId sampleRuntime {} 1100 sampleChallenge.challengeId honestReceipt).1 =
        .ok () ∧
      (spoiled.2.submitReceiptByChallengeId sampleRuntime {} 1200 sampleChallenge.challengeId honestReceipt).1 =
        .error "nonce replay detected" := by
  decide +kernel

end PoSeEngine

end Palimesh.Pose
