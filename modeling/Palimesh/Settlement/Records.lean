import Palimesh.Settlement.ClaimBook
import Palimesh.Settlement.Machine

namespace Palimesh.Settlement

open Collections Protocol.Reentrancy PoSeManager

def Step.state {β : Type} : Step β → PoSeManager β
  | .done s | .pay s _ _ _ | .token s _ => s

variable {β : Type} [DecidableEq β] [Inhabited β]

def EpochRecord.rewards (epoch : EpochRecord β) : Rewards β :=
  ⟨epoch.finalized, epoch.finalizedAt, epoch.rewardRoot, epoch.claimedReward⟩

def PoSeManager.rewards (s : PoSeManager β) (epochId : Nat) : Rewards β := (s.epochs.read epochId).rewards

structure SameRewards (s s' : PoSeManager β) : Prop where
  claimed : s'.rewardClaimed = s.rewardClaimed
  rewards : s'.rewards = s.rewards

variable {epochId : Nat} {epoch : EpochRecord β}

omit [DecidableEq β] in
theorem rewards_set {s s' : PoSeManager β} {value : Rewards β}
    (epochs : s'.epochs = s.epochs.set epochId epoch) (record : epoch.rewards = value) :
    s'.rewards = Function.update s.rewards epochId value := by
  unfold rewards
  rw [epochs, ← record]
  exact InsertionMap.map_read_set EpochRecord.rewards s.epochs epochId epoch

omit [DecidableEq β] in
theorem SameRewards.set {s s' : PoSeManager β}
    (claimed : s'.rewardClaimed = s.rewardClaimed) (epochs : s'.epochs = s.epochs.set epochId epoch)
    (same : epoch.rewards = s.rewards epochId) : SameRewards s s' := by
  refine ⟨claimed, ?_⟩
  rw [rewards_set epochs same, Function.update_eq_self]

def SameBatches (batches batches' : InsertionMap β (BatchRecord β)) : Prop :=
  ∀ batchId, (batches'.read batchId).merkleRoot = (batches.read batchId).merkleRoot ∧
    (batches'.read batchId).epochId = (batches.read batchId).epochId

theorem SameBatches.refl (batches : InsertionMap β (BatchRecord β)) : SameBatches batches batches :=
  fun _ => ⟨rfl, rfl⟩

theorem SameBatches.trans {first second third : InsertionMap β (BatchRecord β)} (one : SameBatches first second)
    (two : SameBatches second third) : SameBatches first third :=
  fun batchId => ⟨(two batchId).1.trans (one batchId).1, (two batchId).2.trans (one batchId).2⟩

variable {challengeId : β} {totalReward : Nat}

namespace PoSeManager

variable {C : Crypto β} {s : PoSeManager β} {env : Env β} {msg : Msg}

theorem removeActiveNode_eq (s : PoSeManager β) (nodeId : β) : ∃ ids indexes,
    s.removeActiveNode nodeId = { s with activeNodeIds := ids, activeNodeIndex := indexes } := by
  simp only [removeActiveNode]
  split
  · exact ⟨s.activeNodeIds, s.activeNodeIndex, rfl⟩
  · exact ⟨_, _, rfl⟩

omit [DecidableEq β] [Inhabited β] in
@[simp] theorem afterPayment_state (toBurn : Nat) : (s.afterPayment toBurn).state = s := by
  unfold afterPayment
  split <;> rfl

omit [DecidableEq β] [Inhabited β] in
@[simp] theorem payOrCredit_state (payee : Address) (amount toBurn : Nat) :
    (s.payOrCredit payee amount toBurn).state = s := by
  unfold payOrCredit
  split
  · exact afterPayment_state toBurn
  · rfl

variable {state result : InsertionMap β (BatchRecord β) × Nat}

theorem processBatch_same {batchId : β}
    (h : processBatch env state batchId = .ok result) : SameBatches state.1 result.1 := by
  simp only [processBatch] at h
  split at h
  · cases h
    exact .refl _
  · simp only [bind_ok, pure_ok] at h
    obtain ⟨_, -, rfl⟩ := h
    intro other
    rw [InsertionMap.read_set]
    split
    · rename_i same
      rw [same]
      exact ⟨rfl, rfl⟩
    · exact ⟨rfl, rfl⟩

theorem processBatch_foldlM_same {page : List β}
    (h : page.foldlM (processBatch env) state = .ok result) : SameBatches state.1 result.1 := by
  induction page generalizing state with
  | nil =>
    cases h
    exact .refl _
  | cons batchId page ih =>
    rw [List.foldlM_cons, bind_ok] at h
    obtain ⟨next, first, rest⟩ := h
    exact (processBatch_same first).trans (ih rest)

variable {s' : PoSeManager β}

theorem processBatches_eq {maxBatches : Nat} (h : s.processBatches env epochId maxBatches = .ok s') :
    ∃ batches epochs,
      s' = { s with batches := batches, epochs := epochs } ∧ SameBatches s.batches batches ∧
      (epochs = s.epochs ∨ ∃ validCount cursor, epochs = s.epochs.set epochId
        { s.epochs.read epochId with validBatchCount := validCount, batchCursor := cursor }) := by
  simp only [processBatches, bind_ok] at h
  obtain ⟨wanted, -, h⟩ := h
  split at h
  · obtain rfl := pure_ok.mp h
    exact ⟨_, _, rfl, .refl _, .inl rfl⟩
  · simp only [bind_ok, pure_ok] at h
    obtain ⟨walked, folded, rfl⟩ := h
    exact ⟨_, _, rfl, processBatch_foldlM_same folded, .inr ⟨_, _, rfl⟩⟩

theorem validateWitnessQuorumV2_eq {bitmap : Nat} {sigs : List Bytes} {metadata : ReceiptBatchMetadata β}
    (h : validateWitnessQuorumV2 C s env msg epochId bitmap sigs metadata = .ok s') :
    ∃ used, s' = { s with witnessSigUsed := used } := by
  simp only [validateWitnessQuorumV2] at h
  split at h
  · simp only [bind_ok, pure_ok] at h
    obtain ⟨-, -, -, -, rfl⟩ := h
    exact ⟨_, rfl⟩
  · split at h
    · simp only [bind_ok, pure_ok] at h
      obtain ⟨-, -, rfl⟩ := h
      exact ⟨_, rfl⟩
    · simp only [bind_ok, pure_ok] at h
      obtain ⟨-, -, used, -, rfl⟩ := h
      exact ⟨used, rfl⟩

theorem checkSamples_sampled {batchId merkleRoot : β} : ∀ {proofs : List (SampleProof β)}
    {sampled : InsertionMap (β × β) Bool} {commitment : β} {last : Option Nat} {result : InsertionMap (β × β) Bool × β},
    checkSamples C batchId merkleRoot proofs sampled commitment last = .ok result →
    ∀ other leaf, result.1.read (other, leaf) = true → sampled.read (other, leaf) = true ∨ other = batchId
  | [], _, _, _, _, h, _, _, read => by
    cases h
    exact .inl read
  | proof :: proofs, sampled, _, _, _, h, other, leaf, read => by
    simp only [checkSamples, bind_ok] at h
    obtain ⟨-, -, -, -, -, -, -, -, h⟩ := h
    rcases checkSamples_sampled h other leaf read with before | same
    · rw [InsertionMap.read_set] at before
      split at before
      · rename_i same
        exact .inr (Prod.mk.inj same).1
      · exact .inl before
    · exact .inr same

variable {step : Step β}

theorem distributeSlash_ok {slashAmount : Nat}
    (h : s.distributeSlash challengeId slashAmount = .ok step) :
    let record := s.challenges.read challengeId
    ∃ node slashed insurance ids indexes payout, step = { s with
        nodes := s.nodes.set record.targetNodeId node
        epochNodeSlashed := slashed
        insuranceBalance := insurance
        activeNodeIds := ids
        activeNodeIndex := indexes }.payOrCredit record.challenger payout 0 ∧
      node.bondAmount + insurance + payout ≤ (s.nodes.read record.targetNodeId).bondAmount + s.insuranceBalance + record.bond := by
  simp only [distributeSlash, bind_ok, pure_ok, checkedAdd_ok, checkedMul_ok, checkedSub_ok] at h
  obtain ⟨_, ⟨enough, rfl⟩, _, ⟨-, rfl⟩, _, ⟨-, rfl⟩, _, ⟨-, rfl⟩, _, ⟨burned, rfl⟩, _, ⟨shared, rfl⟩,
    _, ⟨-, rfl⟩, _, ⟨-, rfl⟩, rfl⟩ := h
  split
  · obtain ⟨ids, indexes, removed⟩ := removeActiveNode_eq (β := β) _ _
    rw [removed]
    refine ⟨_, _, _, ids, indexes, _, rfl, ?_⟩
    dsimp only [bpsDenominator]
    omega
  · refine ⟨_, _, _, s.activeNodeIds, s.activeNodeIndex, _, rfl, ?_⟩
    dsimp only [bpsDenominator]
    omega

theorem settleChallenge_ok (h : s.settleChallenge env challengeId = .ok step) :
    let record := s.challenges.read challengeId
    let settled := s.markSettled challengeId
    ¬ record.settled = true ∧ (settled.forfeitBond record.bond = .ok step ∨
      step = settled.payOrCredit record.challenger record.bond 0 ∨
      record.revealed = true ∧ ∃ slashAmount, settled.distributeSlash challengeId slashAmount = .ok step) := by
  simp only [settleChallenge, bind_ok, revertIf_ok] at h
  obtain ⟨-, -, -, unsettled, h⟩ := h
  refine ⟨unsettled, ?_⟩
  split at h
  · simp only [bind_ok] at h
    obtain ⟨-, -, forfeited⟩ := h
    exact .inl forfeited
  · rename_i revealed
    simp only [bind_ok] at h
    obtain ⟨-, -, -, -, h⟩ := h
    split at h
    · simp only [bind_ok] at h
      obtain ⟨slashAmount, -, h⟩ := h
      split at h
      · exact .inr (.inr ⟨Bool.eq_true_of_not_eq_false revealed, slashAmount, h⟩)
      · exact .inr (.inl (pure_ok.mp h).symm)
    · exact .inl h

def close (s : PoSeManager β) (epochId : Nat) (rewardRoot : β) (time : Nat) : PoSeManager β :=
  { s with epochs := s.epochs.set epochId { s.epochs.read epochId with
    rewardRoot := rewardRoot, finalized := true, finalizedAt := time } }

theorem finalizeEpochV2_ok {rewardRoot : β}
    (h : s.finalizeEpochV2 env msg epochId rewardRoot totalReward = .ok step) :
    ¬ (s.epochs.read epochId).finalized = true ∧ ∃ paged, s.processBatches env epochId finalizeBatchBudget = .ok paged ∧
      let closed := paged.close epochId rewardRoot env.timestamp
      (step = .token closed (.mint epochId totalReward) ∨
        ∃ funded, closed.fundRewards epochId totalReward = .ok funded ∧ .done funded = step) := by
  simp only [finalizeEpochV2, bind_ok, revertIf_ok] at h
  obtain ⟨-, -, -, unfinalized, -, -, -, -, -, -, -, -, paged, processed, -, -, h⟩ := h
  refine ⟨unfinalized, paged, processed, ?_⟩
  split at h
  · split at h
    · cases h
    · split at h
      · exact .inl (pure_ok.mp h).symm
      · simp only [bind_ok, pure_ok] at h
        exact .inr h
  · simp only [bind_ok, pure_ok] at h
    exact .inr h

end PoSeManager

/-- A change that leaves batches, samples, challenges and what claims depend on. -/
structure Quiet (s s' : PoSeManager β) : Prop extends SameRewards s s' where
  batches : s'.batches = s.batches
  sampled : s'.batchSampledLeaf = s.batchSampledLeaf
  challenges : s'.challenges = s.challenges

/-- A change that leaves batches, samples and challenges as they are, but for the batches' flags. -/
structure Untouched (s s' : PoSeManager β) : Prop where
  batches : SameBatches s.batches s'.batches
  sampled : s'.batchSampledLeaf = s.batchSampledLeaf
  challenges : s'.challenges = s.challenges

theorem Quiet.untouched {s s' : PoSeManager β} (quiet : Quiet s s') : Untouched s s' :=
  ⟨quiet.batches ▸ .refl _, quiet.sampled, quiet.challenges⟩

inductive Recorded (C : Crypto β) (s : PoSeManager β) (msg : Msg) : Call β → PoSeManager β → Prop
  | untouched {call s'} (same : Untouched s s') : Recorded C s msg call s'
  | submitted {b s' record} (root : record.merkleRoot = b.merkleRoot) (epoch : record.epochId = b.epochId)
      (nonzero : b.merkleRoot ≠ default)
      (batches : s'.batches = s.batches.set (PoSeManager.batchIdOf C b.epochId b.merkleRoot b.summaryHash msg.sender) record)
      (sampled : ∀ batchId leaf, s'.batchSampledLeaf.read (batchId, leaf) = true →
        s.batchSampledLeaf.read (batchId, leaf) = true ∨
          batchId = PoSeManager.batchIdOf C b.epochId b.merkleRoot b.summaryHash msg.sender)
      (challenges : s'.challenges = s.challenges) : Recorded C s msg (.submitBatchV2WithMetadata b) s'
  | opened {commitHash s' challengeId record} (unrevealed : record.revealed = false)
      (batches : s'.batches = s.batches) (sampled : s'.batchSampledLeaf = s.batchSampledLeaf)
      (challenges : s'.challenges = s.challenges.set challengeId record) :
      Recorded C s msg (.openChallenge commitHash) s'
  | revealed {r s' record} (target : record.targetNodeId = r.targetNodeId)
      (batches : s'.batches = s.batches) (sampled : s'.batchSampledLeaf = s.batchSampledLeaf)
      (challenges : s'.challenges = s.challenges.set r.challengeId record) :
      Recorded C s msg (.revealChallenge r) s'
  | settled {challengeId s'} (batches : s'.batches = s.batches) (sampled : s'.batchSampledLeaf = s.batchSampledLeaf)
      (challenges : s'.challenges = (s.markSettled challengeId).challenges) :
      Recorded C s msg (.settleChallenge challengeId) s'

/-- The calls that concern neither records nor rewards. -/
def Call.quiet {β : Type} : Call β → Bool
  | .registerNode _ | .initEpochNonce _ | .sweepExpiredRewards _ | .withdrawPayments | .depositRewardPool
  | .depositInsurance | .receive => true
  | call => call.tunes

variable {call : Call β}

namespace PoSeManager

variable {C : Crypto β} {s : PoSeManager β} {env : Env β} {msg : Msg}

theorem submitBatchV2WithMetadata_recorded {b : Submission β} (h : s.submitBatchV2WithMetadata C env msg b = .ok s') :
    Recorded C s msg (.submitBatchV2WithMetadata b) s' := by
  simp only [submitBatchV2WithMetadata, bind_ok, pure_ok] at h
  obtain ⟨_, shape, attested, quorum, sampled, contents, -, -, rfl⟩ := h
  obtain ⟨used, rfl⟩ := validateWitnessQuorumV2_eq quorum
  simp only [checkShape, bind_ok, revertIf_ok] at shape
  obtain ⟨-, nonzero, -⟩ := shape
  simp only [checkContents, bind_ok, pure_ok] at contents
  obtain ⟨-, -, -, -, -, -, result, looped, -, -, rfl⟩ := contents
  exact .submitted rfl rfl (fun zero => nonzero (.inl zero)) rfl (checkSamples_sampled looped) rfl

theorem settleChallenge_quiet (h : s.settleChallenge env challengeId = .ok step) :
    Quiet (s.markSettled challengeId) step.state := by
  rcases (settleChallenge_ok h).2 with forfeited | rfl | ⟨-, _, slashed⟩
  · simp only [forfeitBond, bind_ok, pure_ok] at forfeited
    obtain ⟨_, -, rfl⟩ := forfeited
    exact ⟨⟨rfl, rfl⟩, rfl, rfl, rfl⟩
  · rw [payOrCredit_state]
    exact ⟨⟨rfl, rfl⟩, rfl, rfl, rfl⟩
  · obtain ⟨_, _, _, _, _, _, rfl, -⟩ := distributeSlash_ok slashed
    rw [payOrCredit_state]
    exact ⟨⟨rfl, rfl⟩, rfl, rfl, rfl⟩

omit [DecidableEq β] in
theorem fundRewards_quiet (h : s.fundRewards epochId totalReward = .ok s') : Quiet s s' := by
  simp only [fundRewards, bind_ok, pure_ok] at h
  obtain ⟨-, -, rfl⟩ := h
  exact ⟨.set rfl rfl rfl, rfl, rfl, rfl⟩

omit [DecidableEq β] in
theorem sweepExpiredRewards_quiet (h : s.sweepExpiredRewards env epochId = .ok step) :
    Quiet s step.state := by
  simp only [sweepExpiredRewards, bind_ok] at h
  obtain ⟨-, -, -, -, _, -, -, -, h⟩ := h
  split at h
  · obtain rfl := pure_ok.mp h
    exact ⟨.set rfl rfl rfl, rfl, rfl, rfl⟩
  · simp only [bind_ok, pure_ok] at h
    obtain ⟨_, -, rfl⟩ := h
    rw [payOrCredit_state]
    exact ⟨.set rfl rfl rfl, rfl, rfl, rfl⟩

theorem finalizeEpochV2_untouched {rewardRoot : β}
    (h : s.finalizeEpochV2 env msg epochId rewardRoot totalReward = .ok step) : Untouched s step.state := by
  obtain ⟨-, paged, processed, ended⟩ := finalizeEpochV2_ok h
  obtain ⟨batches, epochs, rfl, same, -⟩ := processBatches_eq processed
  rcases ended with rfl | ⟨funded, paid, rfl⟩
  · exact ⟨same, rfl, rfl⟩
  · have kept := (fundRewards_quiet paid).untouched
    exact ⟨same.trans kept.batches, kept.sampled, kept.challenges⟩

theorem dispatch_quiet (quiet : call.quiet = true) (h : s.dispatch C env msg call = .ok step) :
    Quiet s step.state := by
  cases call with
  | registerNode r =>
    obtain ⟨s', done, rfl⟩ := map_ok.mp h
    simp only [registerNode, bind_ok, pure_ok] at done
    obtain ⟨-, -, _, -, _, -, rfl⟩ := done
    exact ⟨⟨rfl, rfl⟩, rfl, rfl, rfl⟩
  | initEpochNonce epochId =>
    obtain ⟨s', done, rfl⟩ := map_ok.mp h
    simp only [initEpochNonce, bind_ok, pure_ok] at done
    obtain ⟨-, -, -, -, rfl⟩ := done
    exact ⟨.set rfl rfl rfl, rfl, rfl, rfl⟩
  | sweepExpiredRewards epochId => exact sweepExpiredRewards_quiet h
  | withdrawPayments =>
    simp only [dispatch, withdrawPayments, bind_ok, pure_ok] at h
    obtain ⟨-, -, rfl⟩ := h
    exact ⟨⟨rfl, rfl⟩, rfl, rfl, rfl⟩
  | depositRewardPool | depositInsurance =>
    obtain ⟨s', done, rfl⟩ := map_ok.mp h
    simp only [depositRewardPool, depositInsurance, bind_ok, pure_ok] at done
    obtain ⟨-, -, _, -, rfl⟩ := done
    exact ⟨⟨rfl, rfl⟩, rfl, rfl, rfl⟩
  | receive =>
    cases h
    exact ⟨⟨rfl, rfl⟩, rfl, rfl, rfl⟩
  | initializeWith _ _ | transferOwnership _ | enableEmission _ _ | setFoundationAddress _ | setV1SunsetEpoch _
  | setV2SunsetEpoch _ | setChallengeBondMin _ | setAllowEmptyWitnessSubmission _ =>
    obtain ⟨_, _, _, _, _, _, _, _, _, _, rfl⟩ := dispatch_tunes C rfl h
    exact ⟨⟨rfl, rfl⟩, rfl, rfl, rfl⟩
  | _ => cases quiet

theorem processBatches_rewards {s' : PoSeManager β} {maxBatches : Nat}
    (h : s.processBatches env epochId maxBatches = .ok s') : SameRewards s s' := by
  obtain ⟨batches, epochs, rfl, -, rfl | ⟨validCount, cursor, rfl⟩⟩ := processBatches_eq h
  · exact ⟨rfl, rfl⟩
  · exact .set rfl rfl rfl

theorem dispatch_recorded (h : s.dispatch C env msg call = .ok step) :
    Recorded C s msg call step.state ∧ ((∀ epochId nodeId amount proof, call ≠ .claim epochId nodeId amount proof) →
      (∀ epochId root reward, call ≠ .finalizeEpochV2 epochId root reward) → SameRewards s step.state) := by
  cases quiet : call.quiet with
  | true =>
    have same := dispatch_quiet quiet h
    exact ⟨.untouched same.untouched, fun _ _ => same.toSameRewards⟩
  | false =>
    cases call with
    | submitBatchV2WithMetadata b =>
      obtain ⟨s', done, rfl⟩ := map_ok.mp h
      refine ⟨submitBatchV2WithMetadata_recorded done, fun _ _ => ?_⟩
      simp only [submitBatchV2WithMetadata, bind_ok, pure_ok] at done
      obtain ⟨-, -, attested, quorum, -, -, -, -, rfl⟩ := done
      obtain ⟨used, rfl⟩ := validateWitnessQuorumV2_eq quorum
      exact .set rfl rfl rfl
    | openChallenge commitHash =>
      obtain ⟨s', done, rfl⟩ := map_ok.mp h
      simp only [openChallenge, bind_ok, pure_ok] at done
      obtain ⟨-, -, _, -, _, -, rfl⟩ := done
      exact ⟨.opened rfl rfl rfl rfl, fun _ _ => ⟨rfl, rfl⟩⟩
    | revealChallenge r =>
      obtain ⟨s', done, rfl⟩ := map_ok.mp h
      simp only [revealChallenge, bind_ok] at done
      obtain ⟨-, -, done⟩ := done
      split at done
      · cases done
      · simp only [bind_ok, pure_ok] at done
        obtain ⟨-, -, _, -, rfl⟩ := done
        exact ⟨.revealed rfl rfl rfl rfl, fun _ _ => ⟨rfl, rfl⟩⟩
    | settleChallenge challengeId =>
      have settled := settleChallenge_quiet h
      exact ⟨.settled settled.batches settled.sampled settled.challenges, fun _ _ => ⟨settled.claimed, settled.rewards⟩⟩
    | finalizeEpochV2 epochId rewardRoot totalReward =>
      exact ⟨.untouched (finalizeEpochV2_untouched h), fun _ other => absurd rfl (other _ _ _)⟩
    | processEpochBatches epochId maxBatches =>
      obtain ⟨s', done, rfl⟩ := map_ok.mp h
      simp only [processEpochBatches, bind_ok] at done
      obtain ⟨-, -, -, -, -, -, done⟩ := done
      have kept := processBatches_rewards done
      obtain ⟨batches, epochs, rfl, same, -⟩ := processBatches_eq done
      exact ⟨.untouched ⟨same, rfl, rfl⟩, fun _ _ => kept⟩
    | claim epochId nodeId amount merkleProof =>
      simp only [dispatch, claim, bind_ok, pure_ok] at h
      obtain ⟨-, -, -, -, -, -, _, -, -, -, -, -, _, -, -, -, -, -, rfl⟩ := h
      exact ⟨.untouched ⟨.refl _, rfl, rfl⟩, fun other _ => absurd rfl (other _ _ _ _)⟩
    | submitBatchV2 => cases h
    | _ => cases quiet

omit [DecidableEq β] in
theorem resume_quiet {pending : Pending} {ok : Bool} (h : s.resume pending ok = .ok step) : Quiet s step.state := by
  cases pending with
  | credit payee amount toBurn =>
    cases ok with
    | true =>
      cases h
      rw [afterPayment_state]
      exact ⟨⟨rfl, rfl⟩, rfl, rfl, rfl⟩
    | false =>
      simp only [resume, bind_ok, pure_ok] at h
      obtain ⟨_, -, rfl⟩ := h
      rw [afterPayment_state]
      exact ⟨⟨rfl, rfl⟩, rfl, rfl, rfl⟩
  | transfer | burn =>
    cases ok with
    | true =>
      cases h
      exact ⟨⟨rfl, rfl⟩, rfl, rfl, rfl⟩
    | false => cases h
  | mint epochId totalReward =>
    cases ok with
    | true =>
      simp only [resume, bind_ok, pure_ok] at h
      obtain ⟨funded, paid, rfl⟩ := h
      exact fundRewards_quiet paid
    | false => cases h

end PoSeManager

variable {good : World β → Prop}

omit [DecidableEq β] [Inhabited β] in
theorem World.outcome_sound {w : World β} {ready : World β → Pending → Prop}
    (reached : ∀ balance, good { w with state := { step.state with balance := balance } })
    (failing : ∀ pending, ready { w with state := step.state } pending) : (w.outcome step).Sound good ready := by
  cases step with
  | done s => exact reached s.balance
  | token s pending => exact ⟨reached s.balance, failing pending⟩
  | pay s payee amount pending =>
    simp only [World.outcome]
    split
    · exact ⟨reached _, failing pending⟩
    · exact ⟨reached s.balance, failing pending⟩

/-- What calls keep, and quiet changes keep, is kept through every re-entrance. -/
theorem manager_keeps {C : Crypto β}
    (call : ∀ w msg call step, good w → (w.received msg.value).dispatch C w.env msg call = .ok step →
      good ⟨step.state, w.env, ⟨w.received msg.value, w.env, msg, call⟩ :: w.history⟩)
    (quiet : ∀ w s', good w → Quiet w.state s' → good { w with state := s' })
    (outside : ∀ m event, good m.state → Possible m event → good (m.state.outside event)) :
    Keeps (manager C) Callable Possible good fun before _ => good before := by
  have sound {w : World β} {step : Step β} (kept : good { w with state := step.state }) :
      (w.outcome step).Sound good fun before _ => good before :=
    World.outcome_sound (fun _ => quiet { w with state := step.state } _ kept ⟨⟨rfl, rfl⟩, rfl, rfl, rfl⟩) fun _ => kept
  have resumed {w : World β} {pending : Pending} {ok : Bool} {outcome : Outcome (World β) Pending} (holds : good w)
      (answered : w.resume pending ok = .ok outcome) : outcome.Sound good fun before _ => good before := by
    obtain ⟨step, ran, rfl⟩ := map_ok.mp answered
    exact sound (quiet w _ holds (resume_quiet ran))
  refine ⟨?_, resumed, resumed, fun sound => outside _ _ sound.state⟩
  intro w message outcome holds _ executed
  simp only [manager, World.execute, bind_ok, pure_ok] at executed
  obtain ⟨-, -, step, dispatched, rfl⟩ := executed
  exact sound (call w message.1 message.2 step holds dispatched)

def SamplesRecorded (s : PoSeManager β) : Prop :=
  ∀ batchId leaf, s.batchSampledLeaf.read (batchId, leaf) = true → (s.batches.read batchId).merkleRoot ≠ default

theorem SamplesRecorded.untouched {s : PoSeManager β} (recorded : SamplesRecorded s) (same : Untouched s s') :
    SamplesRecorded s' := by
  intro batchId leaf sampled
  rw [same.sampled] at sampled
  rw [(same.batches batchId).1]
  exact recorded batchId leaf sampled

theorem SamplesRecorded.recorded {C : Crypto β} {s : PoSeManager β} {msg : Msg}
    (recorded : SamplesRecorded s) (change : Recorded C s msg call s') : SamplesRecorded s' := by
  cases change with
  | untouched same => exact recorded.untouched same
  | submitted root epoch nonzero batches sampled challenges =>
    intro batchId leaf marked
    rw [batches, InsertionMap.read_set]
    split
    · rw [root]
      exact nonzero
    · rename_i other
      exact recorded batchId leaf ((sampled batchId leaf marked).resolve_right other)
  | opened _ batches sampled _ | revealed _ batches sampled _ | settled batches sampled _ =>
    intro batchId leaf marked
    rw [batches]
    rw [sampled] at marked
    exact recorded batchId leaf marked

theorem manager_samplesRecorded (C : Crypto β) : Keeps (manager C) Callable Possible
    (fun w => SamplesRecorded w.state) fun before _ => SamplesRecorded before.state := by
  apply manager_keeps
  · intro w msg call step good dispatched
    exact SamplesRecorded.recorded (show SamplesRecorded (w.received msg.value) from good)
      (dispatch_recorded dispatched).1
  · intro w s' good quiet
    exact SamplesRecorded.untouched good quiet.untouched
  · intro m event sound _
    cases event with
    | tick env => exact sound
    | force amount => exact sound
    | minted answer => exact sound

end Palimesh.Settlement
