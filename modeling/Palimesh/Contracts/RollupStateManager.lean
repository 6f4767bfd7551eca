import Palimesh.Collections.Mapping
import Palimesh.Protocol.Custody

namespace Palimesh.Contracts.RollupStateManager

open Collections Protocol Protocol.Custody Protocol.Guarded Protocol.Reentrancy

def slashBurnBps : Nat := 5000

def slashChallengerBps : Nat := 3000

structure OutputProposal (β : Type) where
  outputRoot : β
  l2StateRoot : β
  l2BlockNumber : Nat
  l1Timestamp : Nat
  proposer : Address
  challenged : Bool
  finalized : Bool
  bond : Nat
deriving Inhabited

structure OutputChallenge where
  l2BlockNumber : Nat
  challenger : Address
  bond : Nat
  createdAt : Nat
  resolveDeadline : Nat
  resolved : Bool
  proposerFault : Bool
deriving Inhabited

structure Storage (β : Type) where
  initialized : Bool
  challengeWindow : Nat
  proposerBond : Nat
  challengerBond : Nat
  outputs : InsertionMap Nat (OutputProposal β)
  challenges : InsertionMap Nat OutputChallenge
  lastSubmittedBlock : Nat
  latestFinalizedBlock : Nat
  insuranceFund : Address
  owner : Address
  challengeResolver : Address
  pendingWithdrawals : InsertionMap Address Nat
  allowedProposers : InsertionMap Address Bool

def deployed {β : Type} : Storage β where
  initialized := false
  challengeWindow := 0
  proposerBond := 0
  challengerBond := 0
  outputs := .empty
  challenges := .empty
  lastSubmittedBlock := 0
  latestFinalizedBlock := 0
  insuranceFund := 0
  owner := 0
  challengeResolver := 0
  pendingWithdrawals := .empty
  allowedProposers := .empty

inductive Revert
  | challengeWindowZero | proposerBondZero | challengerBondZero | ownerZero | invalidInitialization
  | onlyOwner | onlyChallengeResolver | notProposer | zeroAddress | noPendingWithdrawal | transferFailed
  | insufficientBond (required provided : Nat)
  | incorrectBond (required provided : Nat)
  | blockNumberNotIncreasing (submitted last : Nat)
  | outputAlreadySubmitted (l2BlockNumber : Nat)
  | outputNotFound (l2BlockNumber : Nat)
  | outputAlreadyFinalized (l2BlockNumber : Nat)
  | alreadyChallenged (l2BlockNumber : Nat)
  | challengeWindowElapsed (l2BlockNumber : Nat)
  | challengeWindowNotElapsed (l2BlockNumber : Nat)
  | challengeNotFound (l2BlockNumber : Nat)
  | challengeAlreadyResolved (l2BlockNumber : Nat)
deriving DecidableEq

inductive Pending
  | rewarded (payee : Address) (amount insuranceAmount : Nat)
  | credit (payee : Address) (amount : Nat)
  | finalized (l2BlockNumber : Nat) (payee : Address) (amount : Nat)
  | transfer

inductive Call (β : Type)
  | init (challengeWindowSeconds proposerBondWei challengerBondWei : Nat)
      (insuranceFundAddress initialProposer initialOwner : Address)
  | submitOutputRoot (l2BlockNumber : Nat) (outputRoot l2StateRoot : β)
  | challengeOutputRoot (l2BlockNumber : Nat)
  | resolveChallenge (l2BlockNumber : Nat) (correctStateRoot : β)
  | finalizeOutput (l2BlockNumber : Nat)
  | withdrawPayments
  | setChallengeResolver (newResolver : Address)
  | addProposer (proposer : Address)
  | removeProposer (proposer : Address)
  | transferOwnership (newOwner : Address)
  | receive
deriving DecidableEq

def Call.payable {β : Type} : Call β → Bool
  | .submitOutputRoot _ _ _ | .challengeOutputRoot _ | .receive => true
  | _ => false

/-- The time of a block, which its header holds in 64 bits. -/
abbrev BlockTime := { now : UInt64 // 0 < now.toNat }

namespace Storage

variable {β : Type} (s : Storage β)

section Payments

def payOrCredit (payee : Address) (amount : Nat) (pending : Pending) (rest : Step (Storage β) Pending) :
    Step (Storage β) Pending :=
  if amount = 0 ∨ payee = 0 then rest else .pay s payee amount pending

def payInsurance (insuranceAmount : Nat) : Step (Storage β) Pending :=
  if s.insuranceFund ≠ 0 ∧ 0 < insuranceAmount then
    s.payOrCredit s.insuranceFund insuranceAmount (.credit s.insuranceFund insuranceAmount) (.done s)
  else .done s

def paidOrCredited (payee : Address) (amount : Nat) (ok : Bool) : Result Revert (Storage β) :=
  if ok then .ok s
  else do
    let credited ← checkedAdd 256 (s.pendingWithdrawals.read payee) amount
    return { s with pendingWithdrawals := s.pendingWithdrawals.set payee credited }

def advance (l2BlockNumber : Nat) : Storage β :=
  if s.latestFinalizedBlock < l2BlockNumber then { s with latestFinalizedBlock := l2BlockNumber } else s

def resume (pending : Pending) (ok : Bool) : Result Revert (Step (Storage β) Pending) :=
  match pending with
  | .rewarded payee amount insuranceAmount => do
    let s ← s.paidOrCredited payee amount ok
    return s.payInsurance insuranceAmount
  | .credit payee amount => do
    let s ← s.paidOrCredited payee amount ok
    return .done s
  | .finalized l2BlockNumber payee amount => do
    let s ← s.paidOrCredited payee amount ok
    return .done (s.advance l2BlockNumber)
  | .transfer => if ok then .ok (.done s) else .error (.raised .transferFailed)

def withdrawPayments (msg : Msg) : Result Revert (Step (Storage β) Pending) := do
  let amount := s.pendingWithdrawals.read msg.sender
  revertIf (amount = 0) .noPendingWithdrawal
  return .pay { s with pendingWithdrawals := s.pendingWithdrawals.set msg.sender 0 } msg.sender amount .transfer

end Payments

section Roles

def onlyOwner (msg : Msg) : Result Revert Unit := revertIf (msg.sender ≠ s.owner) .onlyOwner

def init (challengeWindowSeconds proposerBondWei challengerBondWei : Nat)
    (insuranceFundAddress initialProposer initialOwner : Address) : Result Revert (Storage β) := do
  revertIf (s.initialized = true) .invalidInitialization
  revertIf (challengeWindowSeconds = 0) .challengeWindowZero
  revertIf (proposerBondWei = 0) .proposerBondZero
  revertIf (challengerBondWei = 0) .challengerBondZero
  revertIf (initialOwner = 0) .ownerZero
  return { s with
    initialized := true
    challengeWindow := challengeWindowSeconds
    proposerBond := proposerBondWei
    challengerBond := challengerBondWei
    insuranceFund := insuranceFundAddress
    owner := initialOwner
    challengeResolver := initialOwner
    allowedProposers :=
      if initialProposer = 0 then s.allowedProposers else s.allowedProposers.set initialProposer true }

def setChallengeResolver (msg : Msg) (newResolver : Address) : Result Revert (Storage β) := do
  s.onlyOwner msg
  revertIf (newResolver = 0) .zeroAddress
  return { s with challengeResolver := newResolver }

def addProposer (msg : Msg) (proposer : Address) : Result Revert (Storage β) := do
  s.onlyOwner msg
  revertIf (proposer = 0) .zeroAddress
  return { s with allowedProposers := s.allowedProposers.set proposer true }

def removeProposer (msg : Msg) (proposer : Address) : Result Revert (Storage β) := do
  s.onlyOwner msg
  return { s with allowedProposers := s.allowedProposers.set proposer false }

def transferOwnership (msg : Msg) (newOwner : Address) : Result Revert (Storage β) := do
  s.onlyOwner msg
  revertIf (newOwner = 0) .zeroAddress
  return { s with owner := newOwner }

end Roles

variable [DecidableEq β] [Inhabited β]

section Outputs

omit [DecidableEq β]

variable (now : BlockTime) (l2BlockNumber : Nat)

def submitOutputRoot (msg : Msg) (l2BlockNumber : Nat) (outputRoot l2StateRoot : β) : Result Revert (Storage β) := do
  revertIf (s.allowedProposers.read msg.sender = false) .notProposer
  revertIf (msg.value < s.proposerBond) (.insufficientBond s.proposerBond msg.value)
  revertIf (s.proposerBond < msg.value) (.incorrectBond s.proposerBond msg.value)
  revertIf (l2BlockNumber ≤ s.lastSubmittedBlock) (.blockNumberNotIncreasing l2BlockNumber s.lastSubmittedBlock)
  revertIf ((s.outputs.read l2BlockNumber).l1Timestamp ≠ 0) (.outputAlreadySubmitted l2BlockNumber)
  return { s with
    outputs := s.outputs.set l2BlockNumber {
      outputRoot := outputRoot
      l2StateRoot := l2StateRoot
      l2BlockNumber := l2BlockNumber
      l1Timestamp := now.1.toNat
      proposer := msg.sender
      challenged := false
      finalized := false
      bond := msg.value }
    lastSubmittedBlock := l2BlockNumber }

def challengeOutputRoot (msg : Msg) (l2BlockNumber : Nat) : Result Revert (Storage β) := do
  let proposal := s.outputs.read l2BlockNumber
  revertIf (proposal.l1Timestamp = 0) (.outputNotFound l2BlockNumber)
  revertIf (proposal.finalized = true) (.outputAlreadyFinalized l2BlockNumber)
  revertIf (proposal.challenged = true) (.alreadyChallenged l2BlockNumber)
  let closes ← checkedAdd 256 proposal.l1Timestamp s.challengeWindow
  revertIf (closes < now.1.toNat) (.challengeWindowElapsed l2BlockNumber)
  revertIf (msg.value < s.challengerBond) (.insufficientBond s.challengerBond msg.value)
  revertIf (s.challengerBond < msg.value) (.incorrectBond s.challengerBond msg.value)
  let deadline ← checkedAdd 256 now.1.toNat s.challengeWindow
  return { s with
    outputs := s.outputs.set l2BlockNumber { proposal with challenged := true }
    challenges := s.challenges.set l2BlockNumber {
      l2BlockNumber := l2BlockNumber
      challenger := msg.sender
      bond := msg.value
      createdAt := now.1.toNat
      resolveDeadline := deadline % 2 ^ 64
      resolved := false
      proposerFault := false } }

def finalizeOutput : Result Revert (Step (Storage β) Pending) := do
  let proposal := s.outputs.read l2BlockNumber
  revertIf (proposal.l1Timestamp = 0) (.outputNotFound l2BlockNumber)
  revertIf (proposal.finalized = true) (.outputAlreadyFinalized l2BlockNumber)
  if proposal.challenged = true then
    revertIf ((s.challenges.read l2BlockNumber).resolved = false) (.challengeWindowNotElapsed l2BlockNumber)
  else
    let closes ← checkedAdd 256 proposal.l1Timestamp s.challengeWindow
    revertIf (now.1.toNat ≤ closes) (.challengeWindowNotElapsed l2BlockNumber)
  let marked := { s with outputs := s.outputs.set l2BlockNumber { proposal with finalized := true } }
  return marked.payOrCredit proposal.proposer proposal.bond
    (.finalized l2BlockNumber proposal.proposer proposal.bond) (.done (marked.advance l2BlockNumber))

/-- A slashed output is deleted before anything is paid. -/
def invalidate : Storage β :=
  { s with
    outputs := s.outputs.set l2BlockNumber default
    lastSubmittedBlock := if l2BlockNumber = s.lastSubmittedBlock then 0 else s.lastSubmittedBlock }

def slash (totalSlash : Nat) (challenge : OutputChallenge) : Result Revert (Step (Storage β) Pending) := do
  let burned ← checkedMul 256 totalSlash slashBurnBps
  let burnAmount := burned / 10000
  let rewarded ← checkedMul 256 totalSlash slashChallengerBps
  let challengerReward := rewarded / 10000
  let rest ← checkedSub totalSlash burnAmount
  let insuranceAmount ← checkedSub rest challengerReward
  let cleared := s.invalidate l2BlockNumber
  let amount ← checkedAdd 256 challenge.bond challengerReward
  return cleared.payOrCredit challenge.challenger amount (.rewarded challenge.challenger amount insuranceAmount)
    (cleared.payInsurance insuranceAmount)

end Outputs

def resolveChallenge (msg : Msg) (l2BlockNumber : Nat) (correctStateRoot : β) :
    Result Revert (Step (Storage β) Pending) := do
  revertIf (msg.sender ≠ s.challengeResolver) .onlyChallengeResolver
  let challenge := s.challenges.read l2BlockNumber
  revertIf (challenge.createdAt = 0) (.challengeNotFound l2BlockNumber)
  revertIf (challenge.resolved = true) (.challengeAlreadyResolved l2BlockNumber)
  let proposal := s.outputs.read l2BlockNumber
  let proposerAtFault := decide (proposal.l2StateRoot ≠ correctStateRoot)
  let resolved := { s with
    challenges := s.challenges.set l2BlockNumber
      { challenge with resolved := true, proposerFault := proposerAtFault } }
  if proposerAtFault = true then resolved.slash l2BlockNumber proposal.bond challenge
  else
    return resolved.payOrCredit proposal.proposer challenge.bond (.credit proposal.proposer challenge.bond)
      (.done resolved)

def dispatch (now : BlockTime) (msg : Msg) : Call β → Result Revert (Step (Storage β) Pending)
  | .init challengeWindowSeconds proposerBondWei challengerBondWei insuranceFundAddress initialProposer initialOwner =>
    (s.init challengeWindowSeconds proposerBondWei challengerBondWei insuranceFundAddress initialProposer
      initialOwner).map .done
  | .submitOutputRoot l2BlockNumber outputRoot l2StateRoot =>
    (s.submitOutputRoot now msg l2BlockNumber outputRoot l2StateRoot).map .done
  | .challengeOutputRoot l2BlockNumber => (s.challengeOutputRoot now msg l2BlockNumber).map .done
  | .resolveChallenge l2BlockNumber correctStateRoot => s.resolveChallenge msg l2BlockNumber correctStateRoot
  | .finalizeOutput l2BlockNumber => s.finalizeOutput now l2BlockNumber
  | .withdrawPayments => s.withdrawPayments msg
  | .setChallengeResolver newResolver => (s.setChallengeResolver msg newResolver).map .done
  | .addProposer proposer => (s.addProposer msg proposer).map .done
  | .removeProposer proposer => (s.removeProposer msg proposer).map .done
  | .transferOwnership newOwner => (s.transferOwnership msg newOwner).map .done
  | .receive => .ok (.done s)

end Storage

variable {β : Type} [DecidableEq β] [Inhabited β]

def contract : Contract (Storage β) (Call β) Pending BlockTime Revert where
  payable := Call.payable
  receives := true
  dispatch := fun s _ now msg call => s.dispatch now msg call
  resume := Storage.resume

def setting : Setting (Storage β) (Call β) BlockTime where
  callable := fun w message => message.1.sender ≠ w.self ∧ message.1.sender ≠ 0
  later := fun now next => now.1 ≤ next.1
  shifted := fun _ _ => False
  forced := True

instance : (setting : Setting (Storage β) (Call β) BlockTime).Decides where
  callable := fun _ _ => inferInstanceAs (Decidable (_ ∧ _))
  later := fun now next => inferInstanceAs (Decidable (now.1 ≤ next.1))
  shifted := fun _ _ => .isFalse id
  forced := .isTrue trivial

end Palimesh.Contracts.RollupStateManager
