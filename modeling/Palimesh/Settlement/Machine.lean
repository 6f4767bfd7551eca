import Palimesh.Protocol.Reentrancy
import Palimesh.Settlement.Manager

namespace Palimesh.Settlement

open Protocol Protocol.Reentrancy

/-- The external functions that can change the contract; upgrades are not modelled. -/
inductive Call (β : Type)
  | initializeWith (bondMin : Nat) (initialOwner : Address)
  | transferOwnership (newOwner : Address)
  | enableEmission (token : Address) (genesisEpoch : Nat)
  | setFoundationAddress (foundation : Address)
  | setV1SunsetEpoch (newSunsetEpoch : Nat)
  | setV2SunsetEpoch (newSunsetEpoch : Nat)
  | setChallengeBondMin (newMin : Nat)
  | setAllowEmptyWitnessSubmission (allowed : Bool)
  | registerNode (registration : Registration β)
  | initEpochNonce (epochId : Nat)
  | submitBatchV2
  | submitBatchV2WithMetadata (submission : Submission β)
  | openChallenge (commitHash : β)
  | revealChallenge (reveal : Reveal β)
  | settleChallenge (challengeId : β)
  | processEpochBatches (epochId maxBatches : Nat)
  | finalizeEpochV2 (epochId : Nat) (rewardRoot : β) (totalReward : Nat)
  | claim (epochId : Nat) (nodeId : β) (amount : Nat) (merkleProof : List β)
  | depositRewardPool
  | depositInsurance
  | sweepExpiredRewards (epochId : Nat)
  | withdrawPayments
  | receive
deriving DecidableEq

def Call.payable {β : Type} : Call β → Bool
  | .registerNode _ | .openChallenge _ | .depositRewardPool | .depositInsurance | .receive => true
  | _ => false

variable {β : Type} [DecidableEq β] [Inhabited β] (C : Crypto β)

def PoSeManager.dispatch (s : PoSeManager β) (env : Env β) (msg : Msg) : Call β → Result (Step β)
  | .initializeWith bondMin initialOwner => (s.initializeWith bondMin initialOwner).map .done
  | .transferOwnership newOwner => (s.transferOwnership msg newOwner).map .done
  | .enableEmission token genesisEpoch => (s.enableEmission msg token genesisEpoch).map .done
  | .setFoundationAddress foundation => (s.setFoundationAddress msg foundation).map .done
  | .setV1SunsetEpoch newSunsetEpoch => (s.setV1SunsetEpoch msg newSunsetEpoch).map .done
  | .setV2SunsetEpoch newSunsetEpoch => (s.setV2SunsetEpoch msg newSunsetEpoch).map .done
  | .setChallengeBondMin newMin => (s.setChallengeBondMin msg newMin).map .done
  | .setAllowEmptyWitnessSubmission allowed => (s.setAllowEmptyWitnessSubmission msg allowed).map .done
  | .registerNode registration => (s.registerNode C env msg registration).map .done
  | .initEpochNonce epochId => (s.initEpochNonce C env msg epochId).map .done
  | .submitBatchV2 => .error .legacyBatchPathSunset
  | .submitBatchV2WithMetadata submission => (s.submitBatchV2WithMetadata C env msg submission).map .done
  | .openChallenge commitHash => (s.openChallenge C env msg commitHash).map .done
  | .revealChallenge reveal => (s.revealChallenge C env msg reveal).map .done
  | .settleChallenge challengeId => s.settleChallenge env challengeId
  | .processEpochBatches epochId maxBatches => (s.processEpochBatches env epochId maxBatches).map .done
  | .finalizeEpochV2 epochId rewardRoot totalReward => s.finalizeEpochV2 env msg epochId rewardRoot totalReward
  | .claim epochId nodeId amount merkleProof => s.claim C env epochId nodeId amount merkleProof
  | .depositRewardPool => (s.depositRewardPool msg).map .done
  | .depositInsurance => (s.depositInsurance msg).map .done
  | .sweepExpiredRewards epochId => s.sweepExpiredRewards env epochId
  | .withdrawPayments => s.withdrawPayments msg
  | .receive => .ok (.done s)

def Call.tunes {β : Type} : Call β → Bool
  | .initializeWith _ _ | .transferOwnership _ | .enableEmission _ _ | .setFoundationAddress _ | .setV1SunsetEpoch _
  | .setV2SunsetEpoch _ | .setChallengeBondMin _ | .setAllowEmptyWitnessSubmission _ => true
  | _ => false

theorem PoSeManager.dispatch_tunes {s : PoSeManager β} {env : Env β} {msg : Msg} {call : Call β} {step : Step β}
    (tunes : call.tunes = true) (h : s.dispatch C env msg call = .ok step) :
    ∃ owner initialized bondMin token genesis emission foundation sunset1 sunset2 empty, step = .done { s with
      owner := owner, initialized := initialized, challengeBondMin := bondMin, cocToken := token,
      genesisEpoch := genesis, emissionEnabled := emission, foundationAddress := foundation,
      v1SunsetEpoch := sunset1, v2SunsetEpoch := sunset2, allowEmptyWitnessSubmission := empty } := by
  cases call with
  | initializeWith _ _ | enableEmission _ _ =>
    simp only [dispatch, initializeWith, enableEmission, map_ok, bind_ok, pure_ok] at h
    obtain ⟨_, ⟨-, -, -, -, -, -, rfl⟩, rfl⟩ := h
    exact ⟨_, _, _, _, _, _, _, _, _, _, rfl⟩
  | transferOwnership _ | setFoundationAddress _ | setChallengeBondMin _ =>
    simp only [dispatch, transferOwnership, setFoundationAddress, setChallengeBondMin, map_ok, bind_ok, pure_ok] at h
    obtain ⟨_, ⟨-, -, -, -, rfl⟩, rfl⟩ := h
    exact ⟨_, _, _, _, _, _, _, _, _, _, rfl⟩
  | setV1SunsetEpoch _ | setV2SunsetEpoch _ | setAllowEmptyWitnessSubmission _ =>
    simp only [dispatch, setV1SunsetEpoch, setV2SunsetEpoch, setAllowEmptyWitnessSubmission, map_ok, bind_ok, pure_ok] at h
    obtain ⟨_, ⟨-, -, rfl⟩, rfl⟩ := h
    exact ⟨_, _, _, _, _, _, _, _, _, _, rfl⟩
  | _ => cases tunes

structure Entry (β : Type) where
  state : PoSeManager β
  env : Env β
  msg : Msg
  call : Call β

structure World (β : Type) where
  state : PoSeManager β
  env : Env β
  history : List (Entry β)

variable (w : World β) (message : Msg × Call β) (m : Machine (World β) Pending)

def World.outcome : Step β → Outcome (World β) Pending
  | .done s => .done { w with state := s }
  | .pay s payee amount pending =>
    let before := { w with state := s }
    if amount ≤ s.balance then
      let left := if payee = w.env.self then s.balance else s.balance - amount
      .foreign before { w with state := { s with balance := left } } pending true
    else .foreign before before pending false
  | .token s pending => .foreign { w with state := s } { w with state := s } pending true

def World.received (value : Nat) : PoSeManager β :=
  { w.state with balance := w.state.balance + value }

def World.execute : Result (Outcome (World β) Pending) := do
  let (msg, call) := message
  revertIf (call.payable = false ∧ msg.value ≠ 0) .nonPayable
  let step ← (w.received msg.value).dispatch C w.env msg call
  return { w with history := ⟨w.received msg.value, w.env, msg, call⟩ :: w.history }.outcome step

def World.resume (w : World β) (pending : Pending) (ok : Bool) : Result (Outcome (World β) Pending) :=
  (w.state.resume pending ok).map w.outcome

inductive Outside (β : Type)
    | tick (env : Env β)
  | force (amount : Nat)
  | minted (answer : Option Nat)

def World.outside : Outside β → World β
  | .tick env => { w with env := env }
  | .force amount => { w with state := { w.state with balance := w.state.balance + amount } }
  | .minted answer => { w with env := { w.env with totalMinted := answer } }

def manager : Component (World β) (Msg × Call β) Pending (Outside β) Revert where
  execute := World.execute C
  resume := World.resume
  outside := World.outside

/-- The contract's own payments carry no data, so no other function is ever called by the contract. -/
def Callable : Prop := message.1.sender ≠ w.env.self

def Possible : Outside β → Prop
  | .tick env => m.frames = [] ∧ env.self = m.state.env.self ∧ m.state.env.timestamp ≤ env.timestamp ∧
      m.state.env.blockNumber ≤ env.blockNumber
  | .force _ | .minted _ => True

instance : Decidable (Callable w message) :=
  inferInstanceAs (Decidable (_ ≠ _))

instance (event : Outside β) : Decidable (Possible m event) := by
  unfold Possible
  split <;> infer_instance

/-- Every sequence of calls, answers of called code and outside events, from the fresh proxy on. -/
def Reachable (env : Env β) (balance : Nat) : Machine (World β) Pending → Prop :=
  Reaches (Machine.Admits Callable Possible) (Machine.step (manager C)) ⟨⟨.deployed balance, env, []⟩, []⟩

end Palimesh.Settlement
