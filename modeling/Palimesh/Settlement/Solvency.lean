import Palimesh.Settlement.Records

namespace Palimesh.Settlement

open Collections Protocol Protocol.Reentrancy InsertionMap PoSeManager World EpochRecord Step

variable {β : Type}

def ChallengeRecord.unsettledBond (record : ChallengeRecord β) : Nat := if record.settled then 0 else record.bond

/-- What an epoch may still pay out: nothing before it is finalized and nothing once it is swept. -/
def EpochRecord.unclaimedReward (epoch : EpochRecord β) : Nat :=
  if epoch.finalized ∧ ¬ epoch.swept then epoch.totalReward - epoch.claimedReward else 0

/-- As `unclaimedReward`, whether or not the epoch is final: a finalization sets the budget after it
    has called the token. -/
def EpochRecord.budget (epoch : EpochRecord β) : Nat :=
  if epoch.swept then 0 else epoch.totalReward - epoch.claimedReward

namespace PoSeManager

variable (s : PoSeManager β)

def holdings : Nat :=
  s.rewardPoolBalance + s.insuranceBalance + s.nodes.total NodeRecord.bondAmount +
    s.challenges.total ChallengeRecord.unsettledBond + s.pendingWithdrawals.total id

def liabilities : Nat := s.holdings + s.epochs.total EpochRecord.unclaimedReward

def committed : Nat := s.holdings + s.epochs.total EpochRecord.budget

theorem liabilities_le_committed : s.liabilities ≤ s.committed := by
  refine Nat.add_le_add_left (s.epochs.total_mono fun epoch => ?_) _
  unfold unclaimedReward budget
  split
  · rename_i open_
    rw [if_neg open_.2]
  · exact Nat.zero_le _

end PoSeManager

def SweptLate (time : Nat) (epochs : InsertionMap Nat (EpochRecord β)) [Inhabited β] : Prop :=
  ∀ epochId, (epochs.read epochId).swept = true →
    (epochs.read epochId).finalized = true ∧ (epochs.read epochId).finalizedAt + rewardClaimWindow < time

variable [Inhabited β]

@[simp] theorem bondAmount_default : (default : NodeRecord β).bondAmount = 0 := rfl

@[simp] theorem unsettledBond_default : (default : ChallengeRecord β).unsettledBond = 0 := rfl

theorem credit_default : id (default : Nat) = 0 := rfl

@[simp] theorem budget_default : (default : EpochRecord β).budget = 0 := rfl

variable {time epochId : Nat} {epochs : InsertionMap Nat (EpochRecord β)}

theorem SweptLate.set (late : SweptLate time epochs)
    {epoch : EpochRecord β}
    (kept : epoch.swept = true → epoch.finalized = true ∧ epoch.finalizedAt + rewardClaimWindow < time) :
    SweptLate time (epochs.set epochId epoch) := by
  intro other
  rw [read_set]
  split
  · exact kept
  · exact late other

theorem SweptLate.later {later : Nat} (late : SweptLate time epochs)
    (le : time ≤ later) : SweptLate later epochs :=
  fun epochId swept => ⟨(late epochId swept).1, lt_of_lt_of_le (late epochId swept).2 le⟩

def Pending.reserve : Pending → Nat
  | .credit _ amount _ => amount
  | .transfer | .mint _ _ | .burn => 0

namespace Step

def paid : Step β → Nat
  | .pay _ _ amount _ => amount
  | .done _ | .token _ _ => 0

def reserve : Step β → Nat
  | .pay _ _ _ pending | .token _ pending => pending.reserve
  | .done _ => 0

end Step

structure Accounted (s : PoSeManager β) (value time : Nat) (step : Step β) : Prop where
  balance : step.state.balance = s.balance
  backed : step.state.committed + step.paid ≤ s.committed + value
  reserved : step.reserve ≤ step.paid
  late : SweptLate time s.epochs → SweptLate time step.state.epochs

variable {s' : PoSeManager β} {value : Nat}

theorem Accounted.unmoved {s : PoSeManager β} (balance : s'.balance = s.balance)
    (holdings : s'.holdings ≤ s.holdings + value) (epochs : s'.epochs = s.epochs) :
    Accounted s value time (.done s') := by
  refine ⟨balance, ?_, Nat.le_refl 0, fun late => ?_⟩
  · show s'.committed + 0 ≤ _
    unfold committed
    rw [epochs]
    omega
  · show SweptLate time s'.epochs
    rwa [epochs]

variable {step : Step β}

theorem Accounted.epoch {s : PoSeManager β} {value : Nat} {epoch : EpochRecord β} (state : step.state = s')
    (balance : s'.balance = s.balance) (epochs : s'.epochs = s.epochs.set epochId epoch)
    (backed : s'.holdings + step.paid + epoch.budget ≤ s.holdings + (s.epochs.read epochId).budget + value)
    (reserved : step.reserve ≤ step.paid) (kept : SweptLate time s.epochs → epoch.swept = true →
      epoch.finalized = true ∧ epoch.finalizedAt + rewardClaimWindow < time) : Accounted s value time step := by
  subst state
  refine ⟨balance, ?_, reserved, fun late => ?_⟩
  · have exchanged := s.epochs.total_set budget_default epochId epoch
    unfold committed
    rw [epochs]
    omega
  · rw [epochs]
    exact late.set (kept late)

theorem Accounted.after {s : PoSeManager β} (s' : PoSeManager β) {released : Nat}
    (balance : s'.balance = s.balance) (backed : s'.committed + released ≤ s.committed + value)
    (late : SweptLate time s.epochs → SweptLate time s'.epochs) (second : Accounted s' released time step) :
    Accounted s value time step :=
  ⟨second.balance.trans balance, le_trans second.backed backed, second.reserved, fun kept => second.late (late kept)⟩

namespace PoSeManager

variable {s : PoSeManager β} {env : Env β} {msg : Msg}

theorem payOrCredit_accounted {amount : Nat} (payee : Address) (toBurn : Nat)
    (first : Accounted s value time (.pay s' payee amount (.credit payee amount toBurn))) :
    Accounted s value time (s'.payOrCredit payee amount toBurn) := by
  have backed : s'.committed + 0 ≤ s.committed + value :=
    Nat.le_trans (Nat.add_le_add_left (Nat.zero_le _) _) first.backed
  unfold payOrCredit afterPayment
  split
  · split <;> exact ⟨first.balance, backed, Nat.le_refl 0, first.late⟩
  · exact first

theorem withdrawPayments_accounted (h : s.withdrawPayments msg = .ok step) :
    Accounted s 0 time step := by
  simp only [withdrawPayments, bind_ok, pure_ok] at h
  obtain ⟨-, -, rfl⟩ := h
  refine ⟨rfl, ?_, Nat.zero_le _, id⟩
  have bound := s.pendingWithdrawals.le_total credit_default msg.sender
  simp only [Step.state, paid, committed, holdings, total_set_eq _ credit_default, id_eq] at *
  omega

theorem fundRewards_accounted {totalReward : Nat} (h : s.fundRewards epochId totalReward = .ok s') :
    Accounted s 0 time (.done s') := by
  simp only [fundRewards, bind_ok, revertIf_ok, pure_ok] at h
  obtain ⟨-, covered, rfl⟩ := h
  refine .epoch rfl rfl rfl ?_ (Nat.le_refl _) fun late => late epochId
  simp only [Step.state, paid, holdings, budget]
  split <;> omega

theorem close_accounted (unfinalized : ¬ (s.epochs.read epochId).finalized = true) (rewardRoot : β) (time : Nat) :
    Accounted s 0 time (.done (s.close epochId rewardRoot time)) := by
  refine .epoch rfl rfl rfl (Nat.le_refl _) (Nat.le_refl _) fun late swept => ?_
  exact absurd (late epochId swept).1 unfinalized

theorem sweepExpiredRewards_accounted (h : s.sweepExpiredRewards env epochId = .ok step) :
    Accounted s 0 env.timestamp step := by
  simp only [sweepExpiredRewards, bind_ok, revertIf_ok, checkedAdd_ok] at h
  obtain ⟨-, finalized, -, unswept, _, ⟨-, rfl⟩, -, expired, h⟩ := h
  have late : ∀ epoch : EpochRecord β, epoch = { s.epochs.read epochId with swept := true } → epoch.swept = true →
      epoch.finalized = true ∧ epoch.finalizedAt + rewardClaimWindow < env.timestamp := by
    rintro epoch rfl -
    exact ⟨Bool.not_eq_false _ ▸ finalized, Nat.lt_of_not_le expired⟩
  split at h
  · obtain rfl := pure_ok.mp h
    refine .epoch rfl rfl rfl ?_ (Nat.le_refl _) fun _ => late _ rfl
    simp only [Step.state, paid, holdings, budget, if_true]
    omega
  · simp only [bind_ok, pure_ok, checkedMul_ok] at h
    obtain ⟨_, ⟨-, rfl⟩, rfl⟩ := h
    refine payOrCredit_accounted _ _ (.epoch rfl rfl rfl ?_ (Nat.le_refl _) fun _ => late _ rfl)
    simp only [Step.state, paid, holdings, budget, if_true, if_neg unswept, bpsDenominator]
    omega

section Functions

variable [DecidableEq β] {C : Crypto β}

theorem revealChallenge_accounted {r : Reveal β} (h : s.revealChallenge C env msg r = .ok s') :
    Accounted s 0 env.timestamp (.done s') := by
  simp only [revealChallenge, bind_ok] at h
  obtain ⟨-, -, h⟩ := h
  cases decoded : C.decodeEvidence r.evidenceData with
  | none => simp [decoded] at h
  | some evidence =>
    simp only [decoded, bind_ok, pure_ok, checkedAdd_ok] at h
    obtain ⟨-, -, -, -, rfl⟩ := h
    refine .unmoved rfl ?_ rfl
    have bound := s.challenges.le_total unsettledBond_default r.challengeId
    simp only [holdings, total_set_eq _ unsettledBond_default, ChallengeRecord.unsettledBond] at *
    omega

variable {challengeId : β}

theorem distributeSlash_accounted {slashAmount : Nat}
    (h : s.distributeSlash challengeId slashAmount = .ok step) :
    Accounted s (s.challenges.read challengeId).bond time step := by
  obtain ⟨node, slashed, insurance, ids, indexes, payout, rfl, covered⟩ := distributeSlash_ok h
  refine payOrCredit_accounted _ _ ⟨rfl, ?_, le_rfl, id⟩
  have bound := s.nodes.le_total bondAmount_default (s.challenges.read challengeId).targetNodeId
  simp only [Step.state, paid, committed, holdings, total_set_eq _ bondAmount_default]
  omega

theorem markSettled_committed (unsettled : ¬ (s.challenges.read challengeId).settled = true) :
    (s.markSettled challengeId).committed + (s.challenges.read challengeId).bond ≤ s.committed := by
  have bound := s.challenges.le_total unsettledBond_default challengeId
  simp only [markSettled, committed, holdings, total_set_eq _ unsettledBond_default,
    ChallengeRecord.unsettledBond, if_true, unsettled] at *
  simp at *
  omega

theorem markSettled_bond (s : PoSeManager β) (challengeId : β) :
    ((s.markSettled challengeId).challenges.read challengeId).bond = (s.challenges.read challengeId).bond := by
  rw [markSettled, read_set_self]

theorem settleChallenge_accounted (h : s.settleChallenge env challengeId = .ok step) :
    Accounted s 0 env.timestamp step := by
  obtain ⟨unsettled, ended⟩ := settleChallenge_ok h
  refine .after (s.markSettled challengeId) rfl (markSettled_committed unsettled) (fun late => late) ?_
  rcases ended with forfeited | rfl | ⟨-, _, slashed⟩
  · simp only [forfeitBond, bind_ok, pure_ok, checkedAdd_ok] at forfeited
    obtain ⟨-, ⟨-, rfl⟩, rfl⟩ := forfeited
    refine .unmoved rfl ?_ rfl
    simp only [holdings]
    omega
  · exact payOrCredit_accounted _ _ ⟨rfl, le_rfl, le_rfl, fun late => late⟩
  · rw [← s.markSettled_bond challengeId]
    exact distributeSlash_accounted slashed

theorem processBatches_accounted {maxBatches : Nat} (h : s.processBatches env epochId maxBatches = .ok s') :
    Accounted s 0 time (.done s') := by
  obtain ⟨batches, epochs, rfl, -, rfl | ⟨validCount, cursor, rfl⟩⟩ := processBatches_eq h
  · exact ⟨rfl, Nat.le_refl _, Nat.le_refl _, id⟩
  · exact .epoch rfl rfl rfl (Nat.le_refl _) (Nat.le_refl _) fun late => late epochId

theorem processBatches_finalized {maxBatches : Nat} (h : s.processBatches env epochId maxBatches = .ok s') :
    (s'.epochs.read epochId).finalized = (s.epochs.read epochId).finalized := by
  obtain ⟨batches, epochs, rfl, -, rfl | ⟨validCount, cursor, rfl⟩⟩ := processBatches_eq h
  · rfl
  · simp

theorem finalizeEpochV2_accounted {totalReward : Nat} {rewardRoot : β}
    (h : s.finalizeEpochV2 env msg epochId rewardRoot totalReward = .ok step) :
    Accounted s 0 env.timestamp step := by
  obtain ⟨unfinalized, paged, processed, ended⟩ := finalizeEpochV2_ok h
  have walked : Accounted s 0 env.timestamp (.done paged) := processBatches_accounted processed
  rw [← processBatches_finalized processed] at unfinalized
  have closed := close_accounted unfinalized rewardRoot env.timestamp
  refine .after paged walked.balance walked.backed walked.late (.after _ closed.balance closed.backed closed.late ?_)
  rcases ended with rfl | ⟨funded, paid, rfl⟩
  · exact ⟨rfl, le_rfl, le_rfl, fun late => late⟩
  · exact fundRewards_accounted paid

theorem claim_accounted {amount : Nat} {nodeId : β} {merkleProof : List β} (late : SweptLate env.timestamp s.epochs)
    (h : s.claim C env epochId nodeId amount merkleProof = .ok step) :
    Accounted s 0 env.timestamp step := by
  simp only [claim, bind_ok, pure_ok, revertIf_ok, checkedAdd_ok] at h
  obtain ⟨-, -, -, -, -, -, _, ⟨-, rfl⟩, -, inWindow, -, -, _, ⟨-, rfl⟩, -, inBudget, -, -, rfl⟩ := h
  -- an epoch that is swept is past its window, so this one is not
  have unswept : ¬ (s.epochs.read epochId).swept = true := fun swept => inWindow (late epochId swept).2
  refine .epoch rfl rfl rfl ?_ (Nat.zero_le _) fun late => late epochId
  simp only [Step.state, paid, holdings, budget, if_neg unswept]
  omega

theorem dispatch_accounted {call : Call β} (late : SweptLate env.timestamp s.epochs)
    (paid : ¬ (call.payable = false ∧ msg.value ≠ 0)) (h : s.dispatch C env msg call = .ok step) :
    Accounted s msg.value env.timestamp step := by
  cases payable : call.payable with
  | true =>
    cases call with
    | registerNode r =>
      obtain ⟨s', done, rfl⟩ := map_ok.mp h
      simp only [registerNode, bind_ok, pure_ok, checkedAdd_ok] at done
      obtain ⟨-, -, -, -, -, -, rfl⟩ := done
      refine .unmoved rfl ?_ rfl
      simp only [holdings, total_set_eq _ bondAmount_default]
      omega
    | openChallenge commitHash =>
      obtain ⟨s', done, rfl⟩ := map_ok.mp h
      simp only [openChallenge, bind_ok, pure_ok, checkedAdd_ok] at done
      obtain ⟨-, -, -, -, -, -, rfl⟩ := done
      refine .unmoved rfl ?_ rfl
      simp only [holdings, total_set_eq _ unsettledBond_default, ChallengeRecord.unsettledBond,
        Bool.false_eq_true, if_false]
      omega
    | depositRewardPool | depositInsurance =>
      obtain ⟨s', done, rfl⟩ := map_ok.mp h
      simp only [depositRewardPool, depositInsurance, bind_ok, pure_ok, checkedAdd_ok] at done
      obtain ⟨-, -, -, ⟨-, rfl⟩, rfl⟩ := done
      refine .unmoved rfl ?_ rfl
      simp only [holdings]
      omega
    | receive =>
      cases h
      exact .unmoved rfl (Nat.le_add_right _ _) rfl
    | _ => cases payable
  | false =>
    have free : msg.value = 0 := Decidable.not_not.mp fun nonzero => paid ⟨payable, nonzero⟩
    rw [free]
    cases tunes : call.tunes with
    | true =>
      obtain ⟨_, _, _, _, _, _, _, _, _, _, rfl⟩ := dispatch_tunes C tunes h
      exact .unmoved rfl (Nat.le_refl _) rfl
    | false =>
      cases call with
      | initEpochNonce epochId =>
        obtain ⟨s', done, rfl⟩ := map_ok.mp h
        simp only [initEpochNonce, bind_ok, pure_ok] at done
        obtain ⟨-, -, -, -, rfl⟩ := done
        exact .epoch rfl rfl rfl (Nat.le_refl _) (Nat.le_refl _) fun late => late epochId
      | submitBatchV2 => cases h
      | submitBatchV2WithMetadata b =>
        obtain ⟨s', done, rfl⟩ := map_ok.mp h
        simp only [submitBatchV2WithMetadata, bind_ok, pure_ok] at done
        obtain ⟨-, -, attested, quorum, -, -, -, -, rfl⟩ := done
        obtain ⟨used, rfl⟩ := validateWitnessQuorumV2_eq quorum
        exact .epoch rfl rfl rfl (Nat.le_refl _) (Nat.le_refl _) fun late => late b.epochId
      | revealChallenge r =>
        obtain ⟨s', done, rfl⟩ := map_ok.mp h
        exact revealChallenge_accounted done
      | processEpochBatches epochId maxBatches =>
        obtain ⟨s', done, rfl⟩ := map_ok.mp h
        simp only [processEpochBatches, bind_ok] at done
        obtain ⟨-, -, -, -, -, -, done⟩ := done
        exact processBatches_accounted done
      | settleChallenge challengeId => exact settleChallenge_accounted h
      | finalizeEpochV2 epochId rewardRoot totalReward => exact finalizeEpochV2_accounted h
      | claim epochId nodeId amount merkleProof => exact claim_accounted late h
      | sweepExpiredRewards epochId => exact sweepExpiredRewards_accounted h
      | withdrawPayments => exact withdrawPayments_accounted h
      | initializeWith _ _ | transferOwnership _ | enableEmission _ _ | setFoundationAddress _ | setV1SunsetEpoch _
      | setV2SunsetEpoch _ | setChallengeBondMin _ | setAllowEmptyWitnessSubmission _ => cases tunes
      | registerNode _ | openChallenge _ | depositRewardPool | depositInsurance | receive => cases payable

end Functions

theorem afterPayment_accounted {toBurn : Nat} : Accounted s 0 time (s.afterPayment toBurn) := by
  unfold afterPayment
  split <;> exact ⟨rfl, le_rfl, le_rfl, fun late => late⟩

omit [Inhabited β] in
theorem credited_committed {payee : Address} {amount credited : Nat}
    (sum : s.pendingWithdrawals.read payee + amount = credited) :
    { s with pendingWithdrawals := s.pendingWithdrawals.set payee credited }.committed + 0 ≤ s.committed + amount := by
  have bound := s.pendingWithdrawals.le_total credit_default payee
  simp only [committed, holdings, total_set_eq _ credit_default, id_eq] at *
  omega

theorem resume_accounted {pending : Pending} {ok : Bool} (h : s.resume pending ok = .ok step) :
    Accounted s (if ok then 0 else pending.reserve) time step := by
  cases pending with
  | credit payee amount toBurn =>
    cases ok with
    | true =>
      cases h
      exact afterPayment_accounted
    | false =>
      simp only [resume, bind_ok, checkedAdd_ok, pure_ok] at h
      obtain ⟨credited, ⟨-, sum⟩, rfl⟩ := h
      refine .after { s with pendingWithdrawals := s.pendingWithdrawals.set payee credited } rfl
        (credited_committed sum) (fun late => late) afterPayment_accounted
  | transfer | burn =>
    cases ok with
    | true =>
      cases h
      exact ⟨rfl, le_rfl, le_rfl, fun late => late⟩
    | false => cases h
  | mint epochId totalReward =>
    cases ok with
    | true =>
      simp only [resume, bind_ok, pure_ok] at h
      obtain ⟨funded, paid, rfl⟩ := h
      exact fundRewards_accounted paid
    | false => cases h

end PoSeManager

/-- The invariant, with `spare` set aside for a payment that is on its way. -/
structure World.Covers (spare : Nat) (w : World β) : Prop where
  backed : w.state.committed + spare ≤ w.state.balance
  late : SweptLate w.env.timestamp w.state.epochs

theorem World.outcome_covers {w : World β} {s : PoSeManager β}
    (accounted : Accounted s value w.env.timestamp step) (backed : s.committed + value ≤ s.balance)
    (late : SweptLate w.env.timestamp s.epochs) :
    (w.outcome step).Sound (World.Covers 0) fun before pending => before.Covers pending.reserve := by
  obtain ⟨balance, spent, reserved, kept⟩ := accounted
  rw [← balance] at backed
  have left := Nat.le_trans spent backed
  cases step with
  | done s' => exact ⟨left, kept late⟩
  | token s' pending => exact ⟨⟨Nat.le_trans (Nat.add_le_add_left (Nat.zero_le _) _) left, kept late⟩,
      ⟨Nat.le_trans (Nat.add_le_add_left reserved _) left, kept late⟩⟩
  | pay s' payee amount pending =>
    have failing : ({ w with state := s' } : World β).Covers pending.reserve :=
      ⟨Nat.le_trans (Nat.add_le_add_left reserved _) left, kept late⟩
    have sent : s'.committed + amount ≤ s'.balance := left
    simp only [outcome]
    split
    · refine ⟨⟨?_, kept late⟩, failing⟩
      split
      · exact Nat.le_trans (Nat.add_le_add_left (Nat.zero_le _) _) sent
      · exact Nat.le_sub_of_add_le sent
    · exact ⟨⟨Nat.le_trans (Nat.add_le_add_left (Nat.zero_le _) _) left, kept late⟩, failing⟩

variable [DecidableEq β] (C : Crypto β)

theorem manager_covers : Keeps (manager C) Callable Possible (World.Covers 0)
    fun before pending => before.Covers pending.reserve where
  execute := by
    intro w message outcome good _ executed
    obtain ⟨msg, call⟩ := message
    simp only [manager, execute, bind_ok, revertIf_ok, pure_ok] at executed
    obtain ⟨-, paid, step, dispatched, rfl⟩ := executed
    have backed : (w.received msg.value).committed + msg.value ≤ (w.received msg.value).balance :=
      Nat.add_le_add_right good.backed msg.value
    have late : SweptLate w.env.timestamp (w.received msg.value).epochs := good.late
    exact outcome_covers (dispatch_accounted late paid dispatched) backed late
  succeed := by
    intro w pending outcome good resumed
    obtain ⟨step, answered, rfl⟩ := map_ok.mp resumed
    exact outcome_covers (resume_accounted answered) good.backed good.late
  fail := by
    intro before pending outcome ready resumed
    obtain ⟨step, answered, rfl⟩ := map_ok.mp resumed
    exact outcome_covers (resume_accounted answered) ready.backed ready.late
  outside := by
    intro m event sound possible
    cases event with
    | tick env => exact ⟨sound.state.backed, sound.state.late.later possible.2.2.1⟩
    | force amount => exact ⟨le_trans sound.state.backed (Nat.le_add_right _ _), sound.state.late⟩
    | minted answer => exact ⟨sound.state.backed, sound.state.late⟩

variable {C} in
theorem covers_of_reachable {env : Env β} {balance : Nat} {m : Machine (World β) Pending}
    (reached : Reachable C env balance m) : m.state.Covers 0 := by
  have initially : (⟨.deployed balance, env, []⟩ : World β).Covers 0 :=
    ⟨Nat.zero_le _, fun epochId swept => by cases swept⟩
  exact ((manager_covers C).reaches initially reached).state

/-- Whatever is called, and called again while a payment or a call of the token is under way, the
    contract holds the ether it owes. -/
theorem balance_covers_liabilities {env : Env β} {balance : Nat} {m : Machine (World β) Pending}
    (reached : Reachable C env balance m) : m.state.state.liabilities ≤ m.state.state.balance :=
  le_trans m.state.state.liabilities_le_committed (covers_of_reachable reached).backed

def flatCrypto : Crypto Nat where
  keccak256 := fun _ => 1
  toUint := id
  ecrecover := fun _ _ _ _ => 1
  decodeEvidence := fun _ => none

def sampleEnv (timestamp : Nat) : Env Nat := ⟨timestamp, timestamp, 1, 0, 0, 1000, none⟩

def claimRun : List (Event (Msg × Call Nat) (Outside Nat)) :=
  [.call (⟨1, 0⟩, .initializeWith 5 1),
    .call (⟨7, minBond⟩, .registerNode ⟨1, List.replicate 64 0, 0, 0, 0, 0, List.replicate 65 0, []⟩),
    .call (⟨2, 100⟩, .depositRewardPool),
    .outside (.tick (sampleEnv 10800)),
    .call (⟨1, 0⟩, .finalizeEpochV2 0 1 60),
    .call (⟨9, 0⟩, .claim 0 1 50 []),
    .call (⟨7, 20⟩, .openChallenge 3)]

def claimMachine : Machine (World Nat) Pending :=
  claimRun.foldl (Machine.step (manager flatCrypto)) ⟨⟨.deployed 0, sampleEnv 0, []⟩, []⟩

theorem claimMachine_covers : claimMachine.frames.length = 1 ∧ claimMachine.state.state.liabilities = minBond + 70 ∧
    claimMachine.state.state.liabilities ≤ claimMachine.state.state.balance :=
  ⟨by decide +kernel, by decide +kernel,
    balance_covers_liabilities flatCrypto (Reaches.run .start (by decide +kernel : Admitted _ _ _ claimRun))⟩

end Palimesh.Settlement
