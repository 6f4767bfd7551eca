import Palimesh.Settlement.Solvency

namespace Palimesh.Settlement

open Collections Protocol Protocol.Reentrancy PoSeManager World

variable {β : Type}

def Call.claimOf : Call β → Option (Nat × Claim β)
  | .claim epochId nodeId amount merkleProof => some (epochId, ⟨nodeId, amount, merkleProof⟩)
  | _ => none

def claimsMade (history : List (Entry β)) : List (Nat × Claim β) := history.filterMap fun entry => entry.call.claimOf

theorem claimsMade_cons (entry : Entry β) (history : List (Entry β)) :
    claimsMade (entry :: history) = entry.call.claimOf.toList ++ claimsMade history := by
  rw [claimsMade, List.filterMap_eq_flatMap_toList, List.flatMap_cons, ← List.filterMap_eq_flatMap_toList, claimsMade]

variable [DecidableEq β] [Inhabited β]

structure PoSeManager.Claimable (C : Crypto β) (s : PoSeManager β) (env : Env β) (epochId : Nat) (nodeId : β)
    (amount : Nat) (merkleProof : List β) : Prop where
  finalized : (s.epochs.read epochId).finalized = true
  nonzero : amount ≠ 0
  unclaimed : s.rewardClaimed.read (epochId, nodeId) = false
  fits : (s.epochs.read epochId).finalizedAt + rewardClaimWindow < 2 ^ 256
  inWindow : env.timestamp ≤ (s.epochs.read epochId).finalizedAt + rewardClaimWindow
  proved : MerkleProofLite.verify C merkleProof (s.epochs.read epochId).rewardRoot (rewardLeaf C epochId nodeId amount) = true
  sum : (s.epochs.read epochId).claimedReward + amount < 2 ^ 256
  inBudget : (s.epochs.read epochId).claimedReward + amount ≤ (s.epochs.read epochId).totalReward
  operator : s.nodeOperator.read nodeId ≠ 0

def PoSeManager.afterClaim (s : PoSeManager β) (epochId : Nat) (nodeId : β) (amount : Nat) : PoSeManager β :=
  { s with
    rewardClaimed := s.rewardClaimed.set (epochId, nodeId) true
    epochs := s.epochs.set epochId { s.epochs.read epochId with
      claimedReward := (s.epochs.read epochId).claimedReward + amount } }

variable {nodeId : β}

namespace PoSeManager

variable {C : Crypto β} {s : PoSeManager β} {env : Env β} {msg : Msg} {epochId : Nat} {step : Step β}

variable {merkleProof : List β} {amount : Nat}

theorem claim_ok_iff :
    s.claim C env epochId nodeId amount merkleProof = .ok step ↔
      s.Claimable C env epochId nodeId amount merkleProof ∧
        step = .pay (s.afterClaim epochId nodeId amount) (s.nodeOperator.read nodeId) amount .transfer := by
  simp only [claim, bind_ok, pure_ok, revertIf_ok, checkedAdd_ok, afterClaim, Bool.not_eq_true, Bool.not_eq_false,
    Nat.not_lt]
  constructor
  · rintro ⟨-, finalized, -, nonzero, -, unclaimed, _, ⟨fits, rfl⟩, -, inWindow, -, proved, _, ⟨sum, rfl⟩, -, inBudget,
      -, operator, rfl⟩
    exact ⟨⟨finalized, nonzero, unclaimed, fits, inWindow, proved, sum, inBudget, operator⟩, rfl⟩
  · rintro ⟨c, rfl⟩
    exact ⟨(), c.finalized, (), c.nonzero, (), c.unclaimed, _, ⟨c.fits, rfl⟩, (), c.inWindow, (), c.proved, _,
      ⟨c.sum, rfl⟩, (), c.inBudget, (), c.operator, rfl⟩

end PoSeManager

def Rewarded (C : Crypto β) (s : PoSeManager β) (env : Env β) (call : Call β) (s' : PoSeManager β) : Prop :=
  BookStep C env.timestamp s.rewards s.rewardClaimed.read call.claimOf s'.rewards s'.rewardClaimed.read

variable {call : Call β}

theorem SameRewards.rewarded {C : Crypto β} {s s' : PoSeManager β} {env : Env β} (same : SameRewards s s')
    (other : call.claimOf = none) : Rewarded C s env call s' := by
  unfold Rewarded
  rw [same.claimed, same.rewards, other]
  exact .same

namespace PoSeManager

variable {C : Crypto β} {s : PoSeManager β} {env : Env β} {msg : Msg}

theorem claim_rewarded (claimable : s.Claimable C env epochId nodeId amount merkleProof) :
    Rewarded C s env (.claim epochId nodeId amount merkleProof) (s.afterClaim epochId nodeId amount) :=
  .of_claim claimable.finalized claimable.unclaimed claimable.sum claimable.proved (rewards_set rfl rfl)
    (InsertionMap.map_read_set id s.rewardClaimed (epochId, nodeId) true)

theorem finalizeEpochV2_rewarded {totalReward : Nat} {rewardRoot : β}
    (h : s.finalizeEpochV2 env msg epochId rewardRoot totalReward = .ok step) :
    Rewarded C s env (.finalizeEpochV2 epochId rewardRoot totalReward) step.state := by
  obtain ⟨open_, paged, processed, ended⟩ := finalizeEpochV2_ok h
  have walked := processBatches_rewards processed
  have same : SameRewards (paged.close epochId rewardRoot env.timestamp) step.state := by
    rcases ended with rfl | ⟨funded, paid, rfl⟩
    · exact ⟨rfl, rfl⟩
    · exact (fundRewards_quiet paid).toSameRewards
  have before : (s.rewards epochId).isOpen = false := Bool.not_eq_true _ ▸ open_
  have rewards : step.state.rewards = Function.update paged.rewards epochId
      ⟨true, env.timestamp, rewardRoot, (paged.rewards epochId).claimed⟩ := same.rewards.trans (rewards_set rfl rfl)
  have claimed : step.state.rewardClaimed = s.rewardClaimed := same.claimed.trans walked.claimed
  unfold Rewarded
  rw [claimed, rewards, walked.rewards]
  exact .opened rewardRoot before

theorem dispatch_rewarded (h : s.dispatch C env msg call = .ok step) :
    Rewarded C s env call step.state := by
  cases call with
  | claim epochId nodeId amount merkleProof =>
    obtain ⟨claimable, rfl⟩ := claim_ok_iff.mp h
    exact claim_rewarded claimable
  | finalizeEpochV2 epochId rewardRoot totalReward => exact finalizeEpochV2_rewarded h
  | _ => exact ((dispatch_recorded h).2 (by simp) (by simp)).rewarded rfl

end PoSeManager

section Runs

variable {C : Crypto β} {s s' : PoSeManager β} {env : Env β} {time : Nat} {history : List (Entry β)}

def Booked (C : Crypto β) (s : PoSeManager β) (time : Nat) (history : List (Entry β)) : Prop :=
  Books C time s.rewards s.rewardClaimed.read (claimsMade history)

theorem Booked.rewarded (msg : Msg) (booked : Booked C s env.timestamp history)
    (change : Rewarded C s env call s') : Booked C s' env.timestamp (⟨s, env, msg, call⟩ :: history) := by
  unfold Booked
  rw [claimsMade_cons]
  exact Books.step booked change

def World.Booked (C : Crypto β) (w : World β) : Prop := Settlement.Booked C w.state w.env.timestamp w.history

theorem manager_booked (C : Crypto β) : Keeps (manager C) Callable Possible (World.Booked C)
    fun before _ => before.Booked C := by
  apply manager_keeps
  · intro w msg call step good dispatched
    have received : Settlement.Booked C (w.received msg.value) w.env.timestamp w.history := good
    exact received.rewarded msg (dispatch_rewarded dispatched)
  · intro w s' good quiet
    unfold World.Booked Settlement.Booked
    rw [quiet.claimed, quiet.rewards]
    exact good
  · intro m event sound possible
    cases event with
    | tick env => exact Books.later sound possible.2.2.1
    | force amount => exact sound
    | minted answer => exact sound

theorem booked_of_reachable {env : Env β} {balance : Nat} {m : Machine (World β) Pending}
    (reached : Reachable C env balance m) : m.state.Booked C := by
  have initially : (⟨.deployed balance, env, []⟩ : World β).Booked C := Books.fresh fun _ => ⟨rfl, rfl⟩
  exact ((manager_booked C).reaches initially reached).state

variable {w : World β}

theorem World.claim_of_execute {msg : Msg} {outcome : Outcome (World β) Pending}
    (ran : w.execute C (msg, .claim epochId nodeId amount merkleProof) = .ok outcome) :
    w.state.Claimable C w.env epochId nodeId amount merkleProof := by
  simp only [execute, bind_ok] at ran
  obtain ⟨-, -, step, dispatched, -⟩ := ran
  obtain ⟨c, -⟩ := claim_ok_iff.mp dispatched
  exact { c with }

theorem claimable_covered (covers : w.Covers 0)
    (claimable : w.state.Claimable C w.env epochId nodeId amount merkleProof) :
    amount ≤ w.state.balance := by
  have unswept : ¬ (w.state.epochs.read epochId).swept = true :=
    fun swept => absurd (covers.late epochId swept).2 (not_lt.mpr claimable.inWindow)
  have part := w.state.epochs.le_total budget_default epochId
  have inBudget := claimable.inBudget
  have backed := covers.backed
  rw [EpochRecord.budget, if_neg unswept] at part
  unfold committed at backed
  omega

theorem World.claim_settles (covers : w.Covers 0) (sender : Address)
    (claimable : w.state.Claimable C w.env epochId nodeId amount merkleProof) :
    ∃ settled, (manager C).Settles w (⟨sender, 0⟩, .claim epochId nodeId amount merkleProof) settled ∧
      claimsMade settled.history = (epochId, ⟨nodeId, amount, merkleProof⟩) :: claimsMade w.history := by
  have covered := claimable_covered covers claimable
  have ran : (w.received 0).dispatch C w.env ⟨sender, 0⟩ (.claim epochId nodeId amount merkleProof) =
      .ok (.pay (w.state.afterClaim epochId nodeId amount) (w.state.nodeOperator.read nodeId) amount .transfer) :=
    claim_ok_iff.mpr ⟨claimable, rfl⟩
  have free : ¬ ((Call.claim epochId nodeId amount merkleProof).payable = false ∧ (0 : Nat) ≠ 0) := by simp
  obtain ⟨before, settled, executed, history⟩ : ∃ before settled,
      w.execute C (⟨sender, 0⟩, .claim epochId nodeId amount merkleProof) =
          .ok (.foreign before settled .transfer true) ∧
        settled.history = ⟨w.received 0, w.env, ⟨sender, 0⟩, .claim epochId nodeId amount merkleProof⟩ :: w.history := by
    simp only [execute, bind_ok, revertIf_ok, pure_ok]
    exact ⟨_, _, ⟨(), free, _, ran, if_pos covered⟩, rfl⟩
  refine ⟨settled, ⟨before, .transfer, executed, rfl⟩, ?_⟩
  rw [history, claimsMade_cons]
  rfl

end Runs

end Palimesh.Settlement
