import Palimesh.Contracts.LinearRelease
import Palimesh.Settlement.ClaimBook

namespace Palimesh.Contracts.StorageRewardManager

open Collections Protocol Protocol.Custody Protocol.Guarded Protocol.Reentrancy Storage
open Settlement (Crypto MerkleProofLite.verify PoSeManager.rewardLeaf Claim Rewards Books BookStep)

variable {β : Type}

def EpochRecord.rewards (epoch : EpochRecord β) : Rewards β :=
  ⟨epoch.submitted, epoch.submittedAtEpoch, epoch.storageRewardRoot, epoch.claimedMesh⟩

def Call.claimOf : Call β → Option (Nat × Claim β)
  | .claim epochId nodeId amount merkleProof => some (epochId, ⟨nodeId, amount, merkleProof⟩)
  | _ => none

def claimsMade (history : List (Entry (Storage β) (Call β) (Env β))) : List (Nat × Claim β) :=
  history.filterMap fun entry => entry.call.claimOf

theorem claimsMade_cons (entry : Entry (Storage β) (Call β) (Env β))
    (history : List (Entry (Storage β) (Call β) (Env β))) :
    claimsMade (entry :: history) = entry.call.claimOf.toList ++ claimsMade history := by
  rw [claimsMade, List.filterMap_eq_flatMap_toList, List.flatMap_cons, ← List.filterMap_eq_flatMap_toList, claimsMade]

variable [DecidableEq β] [Inhabited β]

/-- What `claim` checks, but for the sum of all rewards. -/
structure Storage.Claimable (C : Crypto β) (s : Storage β) (env : Env β) (epochId : Nat) (nodeId : β) (amount : Nat)
    (merkleProof : List β) (operator : Address) : Prop where
  submitted : (s.epochs.read epochId).submitted = true
  nonzero : amount ≠ 0
  long : merkleProof ≠ []
  unclaimed : s.rewardClaimed.read (epochId, nodeId) = false
  fits : (s.epochs.read epochId).submittedAtEpoch + claimWindowEpochs < 2 ^ 64
  inWindow : currentEpoch env.timestamp ≤ (s.epochs.read epochId).submittedAtEpoch + claimWindowEpochs
  proved : MerkleProofLite.verify C merkleProof (s.epochs.read epochId).storageRewardRoot
    (PoSeManager.rewardLeaf C epochId nodeId amount) = true
  sum : (s.epochs.read epochId).claimedMesh + amount < 2 ^ 256
  inBudget : (s.epochs.read epochId).claimedMesh + amount ≤ (s.epochs.read epochId).totalMesh
  operator : s.operatorOf env nodeId = .ok operator
  total : s.totalRewarded + amount < 2 ^ 256

def Storage.afterClaim (s : Storage β) (epochId : Nat) (nodeId : β) (amount : Nat) : Storage β :=
  { s with
    rewardClaimed := s.rewardClaimed.set (epochId, nodeId) true
    epochs := s.epochs.set epochId { s.epochs.read epochId with
      claimedMesh := (s.epochs.read epochId).claimedMesh + amount }
    totalRewarded := s.totalRewarded + amount }

variable {C : Crypto β} {s s' : Storage β} {env : Env β} {msg : Msg} {epochId : Nat} {merkleProof : List β}

variable {nodeId : β} {amount : Nat} {step : Step (Storage β) Pending}

theorem claim_ok_iff :
    s.claim C env epochId nodeId amount merkleProof = .ok step ↔
      ∃ operator, s.Claimable C env epochId nodeId amount merkleProof operator ∧
        step = .call (s.afterClaim epochId nodeId amount) (.mint operator amount) := by
  simp only [claim, bind_ok, pure_ok, revertIf_ok, checkedAdd_ok, afterClaim, Bool.not_eq_true, Bool.not_eq_false,
    List.length_eq_zero_iff, Nat.not_lt]
  constructor
  · rintro ⟨-, submitted, -, nonzero, -, long, -, unclaimed, _, ⟨fits, rfl⟩, -, inWindow, -, proved, _, ⟨sum, rfl⟩, -,
      inBudget, operator, found, _, ⟨total, rfl⟩, rfl⟩
    exact ⟨operator, ⟨submitted, nonzero, long, unclaimed, fits, inWindow, proved, sum, inBudget, found, total⟩, rfl⟩
  · rintro ⟨operator, c, rfl⟩
    exact ⟨(), c.submitted, (), c.nonzero, (), c.long, (), c.unclaimed, _, ⟨c.fits, rfl⟩, (), c.inWindow, (), c.proved,
      _, ⟨c.sum, rfl⟩, (), c.inBudget, operator, c.operator, _, ⟨c.total, rfl⟩, rfl⟩

def Storage.rewards (s : Storage β) (epochId : Nat) : Rewards β := (s.epochs.read epochId).rewards

structure SameRewards (s s' : Storage β) : Prop where
  claimed : s'.rewardClaimed = s.rewardClaimed
  rewards : s'.rewards = s.rewards

omit [DecidableEq β] in
theorem rewards_set {s s' : Storage β} {epoch : EpochRecord β} {value : Rewards β}
    (epochs : s'.epochs = s.epochs.set epochId epoch) (record : epoch.rewards = value) :
    s'.rewards = Function.update s.rewards epochId value := by
  unfold rewards
  rw [epochs, ← record]
  exact InsertionMap.map_read_set EpochRecord.rewards s.epochs epochId epoch

def Rewarded (C : Crypto β) (s : Storage β) (env : Env β) (call : Call β) (s' : Storage β) : Prop :=
  BookStep C (currentEpoch env.timestamp) s.rewards s.rewardClaimed.read call.claimOf s'.rewards s'.rewardClaimed.read

theorem SameRewards.rewarded {call : Call β} (same : SameRewards s s') (other : call.claimOf = none) :
    Rewarded C s env call s' := by
  unfold Rewarded
  rw [same.claimed, same.rewards, other]
  exact .same

section Calls

theorem claim_rewarded {operator : Address}
    (claimable : s.Claimable C env epochId nodeId amount merkleProof operator) :
    Rewarded C s env (.claim epochId nodeId amount merkleProof) (s.afterClaim epochId nodeId amount) :=
  .of_claim claimable.submitted claimable.unclaimed claimable.sum claimable.proved (rewards_set rfl rfl)
    (InsertionMap.map_read_set id s.rewardClaimed (epochId, nodeId) true)

theorem submitStorageEpoch_rewarded {totalMesh : Nat} {rewardRoot : β}
    (ran : s.submitStorageEpoch env.timestamp msg epochId rewardRoot totalMesh = .ok s') :
    Rewarded C s env (.submitStorageEpoch epochId rewardRoot totalMesh) s' := by
  simp only [submitStorageEpoch, bind_ok, revertIf_ok, pure_ok] at ran
  obtain ⟨-, -, -, new, -, -, _, -, _, -, -, -, opened⟩ := ran
  have before : (s.rewards epochId).isOpen = false := Bool.not_eq_true _ ▸ new
  have rewards : s'.rewards = Function.update s.rewards epochId
      ⟨true, currentEpoch env.timestamp, rewardRoot, (s.rewards epochId).claimed⟩ := by
    subst opened
    exact rewards_set rfl rfl
  have claimed : s'.rewardClaimed = s.rewardClaimed := by rw [← opened]
  unfold Rewarded
  rw [rewards, claimed]
  exact .opened rewardRoot before

omit [DecidableEq β] in
theorem sweepUnclaimed_rewards {now : UInt64} (ran : s.sweepUnclaimed now epochId = .ok s') :
    SameRewards s s' := by
  simp only [sweepUnclaimed, bind_ok, pure_ok] at ran
  obtain ⟨-, -, -, -, _, -, -, -, _, -, _, -, rfl⟩ := ran
  refine ⟨rfl, .trans ?_ (Function.update_eq_self epochId s.rewards)⟩
  exact rewards_set rfl rfl

theorem dispatch_rewarded {call : Call β} (ran : s.dispatch C env msg call = .ok step) :
    Rewarded C s env call step.state := by
  cases call with
  | claim epochId nodeId amount merkleProof =>
    obtain ⟨operator, claimable, rfl⟩ := claim_ok_iff.mp ran
    exact claim_rewarded claimable
  | submitStorageEpoch epochId rewardRoot totalMesh =>
    obtain ⟨s', finished, rfl⟩ := map_ok.mp ran
    exact submitStorageEpoch_rewarded finished
  | sweepUnclaimed epochId =>
    obtain ⟨s', finished, rfl⟩ := map_ok.mp ran
    exact (sweepUnclaimed_rewards finished).rewarded rfl
  | init meshToken poseRegistry treasury rate initialOwner =>
    obtain ⟨s', finished, rfl⟩ := map_ok.mp ran
    simp only [init, bind_ok, pure_ok] at finished
    obtain ⟨-, -, -, -, -, -, -, -, rfl⟩ := finished
    exact SameRewards.rewarded ⟨rfl, rfl⟩ rfl
  | transferOwnership _ | setTreasury _ | setRelayer _ _ =>
    obtain ⟨s', finished, rfl⟩ := map_ok.mp ran
    simp only [transferOwnership, setTreasury, setRelayer, bind_ok, pure_ok] at finished
    obtain ⟨-, -, -, -, rfl⟩ := finished
    exact SameRewards.rewarded ⟨rfl, rfl⟩ rfl
  | setEmissionPerEpoch newRate =>
    obtain ⟨s', finished, rfl⟩ := map_ok.mp ran
    simp only [setEmissionPerEpoch, bind_ok, pure_ok] at finished
    obtain ⟨-, -, -, -, -, -, _, -, _, -, rfl⟩ := finished
    exact SameRewards.rewarded ⟨rfl, rfl⟩ rfl
  | payForStorage nodeId amount =>
    simp only [dispatch, payForStorage, bind_ok, pure_ok] at ran
    obtain ⟨-, -, _, -, _, -, _, -, _, -, _, -, rfl⟩ := ran
    exact SameRewards.rewarded ⟨rfl, rfl⟩ rfl

omit [DecidableEq β] in
theorem resume_rewards {pending : Pending} {ok : Bool}
    (ran : s.resume pending ok = .ok step) : SameRewards s step.state := by
  obtain ⟨paid, collected, burned, rfl | ⟨rest, rfl⟩⟩ := resume_eq ran
  · exact ⟨rfl, rfl⟩
  · exact ⟨rfl, rfl⟩

end Calls

section Runs

def Booked (C : Crypto β) (s : Storage β) (env : Env β) (history : List (Entry (Storage β) (Call β) (Env β))) : Prop :=
  Books C (currentEpoch env.timestamp) s.rewards s.rewardClaimed.read (claimsMade history)

theorem contract_booked (C : Crypto β) : Preserves (contract C) setting (Booked C) where
  call := by
    intro w msg call step booked _ ran
    unfold Booked
    rw [World.enter, claimsMade_cons]
    exact Books.step booked (dispatch_rewarded ran)
  resume := by
    intro state env history pending ok step booked ran
    have same := resume_rewards ran
    unfold Booked
    rw [same.claimed, same.rewards]
    exact booked
  passes := by
    intro state env later history booked passed
    have past : env.timestamp ≤ later.timestamp := by
      rcases passed with after | same
      · exact after
      · exact UInt64.le_of_eq same
    exact Books.later booked (currentEpoch_mono past)

variable {m : Machine (World (Storage β) (Call β) (Env β)) Pending} {self : Address} {balance : Nat}

theorem booked_of_reachable (reached : Reachable (contract C) setting (.fresh deployed balance self env) m) :
    Booked C m.state.state m.state.env m.state.history := by
  have initially : Booked C (deployed : Storage β) env [] := Books.fresh fun _ => ⟨rfl, rfl⟩
  exact (contract_booked C).reaches initially reached

variable {w : World (Storage β) (Call β) (Env β)}

theorem claim_of_execute (msg : Msg)
    {outcome : Outcome (World (Storage β) (Call β) (Env β)) Pending}
    (ran : w.execute (contract C) (msg, .claim epochId nodeId amount merkleProof) = .ok outcome) :
    ∃ operator, w.state.Claimable C w.env epochId nodeId amount merkleProof operator := by
  unfold World.execute at ran
  split at ran
  · cases ran
  · obtain ⟨step, dispatched, -⟩ := map_ok.mp ran
    obtain ⟨operator, claimable, -⟩ := claim_ok_iff.mp dispatched
    exact ⟨operator, claimable⟩

theorem claim_settles (sender : Address)
    {operator : Address} (claimable : w.state.Claimable C w.env epochId nodeId amount merkleProof operator) :
    ∃ settled, (contract C).component.Settles w (⟨sender, 0⟩, .claim epochId nodeId amount merkleProof) settled ∧
      claimsMade settled.history = (epochId, ⟨nodeId, amount, merkleProof⟩) :: claimsMade w.history := by
  have ran : w.state.dispatch C w.env ⟨sender, 0⟩ (.claim epochId nodeId amount merkleProof) =
      .ok (.call (w.state.afterClaim epochId nodeId amount) (.mint operator amount)) :=
    claim_ok_iff.mpr ⟨operator, claimable, rfl⟩
  let settled : World (Storage β) (Call β) (Env β) :=
    { w.enter ⟨sender, 0⟩ (.claim epochId nodeId amount merkleProof) with
      state := w.state.afterClaim epochId nodeId amount }
  have executed : w.execute (contract C) (⟨sender, 0⟩, .claim epochId nodeId amount merkleProof) =
      .ok (.foreign settled settled (.mint operator amount) true) := by
    unfold World.execute
    exact map_ok.mpr ⟨_, ran, rfl⟩
  refine ⟨settled, ⟨settled, .mint operator amount, executed, rfl⟩, ?_⟩
  exact claimsMade_cons _ _

end Runs

end Palimesh.Contracts.StorageRewardManager
