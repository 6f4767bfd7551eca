import Palimesh.Collections.Mapping
import Palimesh.Protocol.Custody

namespace Palimesh.Contracts

open Collections Protocol Protocol.Custody Protocol.Guarded Protocol.Reentrancy

namespace Treasury

def requiredConfirmations : Nat := 3

def spendingCapBps : Nat := 500

/-- The flags of `confirmed` are kept in the contract, by proposal and account. -/
structure Proposal where
  payee : Address
  amount : Nat
  confirmations : Nat
  executed : Bool
  governanceApproved : Bool
deriving Inhabited

structure Storage where
  governance : Address
  owner : Address
  initialized : Bool
  signers : Fin 5 → Address
  isSigner : InsertionMap Address Bool
  proposalCount : Nat
  proposals : InsertionMap Nat Proposal
  confirmed : InsertionMap (Nat × Address) Bool
  pendingWithdrawals : InsertionMap Address Nat
  pendingWithdrawalTotal : Nat
  wasSignerHistorical : InsertionMap Address Bool

def deployed : Storage where
  governance := 0
  owner := 0
  initialized := false
  signers := fun _ => 0
  isSigner := .empty
  proposalCount := 0
  proposals := .empty
  confirmed := .empty
  pendingWithdrawals := .empty
  pendingWithdrawalTotal := 0
  wasSignerHistorical := .empty

inductive Revert
  | notSigner | notOwner | notGovernance | alreadyConfirmed | notEnoughConfirmations | alreadyExecuted
  | insufficientBalance | exceedsSpendingCap | transferFailed | zeroAmount | zeroAddress | duplicateSigner
  | invalidProposal | noPendingWithdrawal | invalidIndex | invalidInitialization
deriving DecidableEq

/-- What is left to do after a payment: credit it if it failed, or nothing but to insist that it went
    through. -/
inductive Pending
  | credit (payee : Address) (amount : Nat)
  | transfer

inductive Call
  | init (signers : Fin 5 → Address) (governance initialOwner : Address)
  | proposeWithdrawal (payee : Address) (amount : Nat)
  | confirmWithdrawal (proposalId : Nat)
  | executeWithdrawal (proposalId : Nat)
  | governanceApprove (proposalId : Nat)
  | setGovernance (governance : Address)
  | transferOwnership (newOwner : Address)
  | replaceSigner (index : Nat) (newSigner : Address)
  | withdrawPayments
  | receive
deriving DecidableEq

namespace Storage

variable (t : Storage) (msg : Msg)

def onlySigner : Result Revert Unit := revertIf (t.isSigner.read msg.sender = false) .notSigner

def onlyOwner : Result Revert Unit := revertIf (msg.sender ≠ t.owner) .notOwner

def seat (signers : Fin 5 → Address) (t : Storage) (i : Fin 5) : Result Revert Storage := do
  revertIf (signers i = 0) .zeroAddress
  revertIf (t.isSigner.read (signers i) = true) .duplicateSigner
  return { t with
    signers := Function.update t.signers i (signers i)
    isSigner := t.isSigner.set (signers i) true }

def init (signers : Fin 5 → Address) (governance initialOwner : Address) : Result Revert Storage := do
  revertIf (t.initialized = true) .invalidInitialization
  revertIf (governance = 0 ∨ initialOwner = 0) .zeroAddress
  (List.finRange 5).foldlM (seat signers)
    { t with initialized := true, owner := initialOwner, governance := governance }

variable (balance : Nat)

def availableBalance : Nat :=
  if t.pendingWithdrawalTotal < balance then balance - t.pendingWithdrawalTotal else 0

def currentConfirmations (proposalId : Nat) : Nat :=
  (List.finRange 5).countP fun i => t.confirmed.read (proposalId, t.signers i)

def proposeWithdrawal (msg : Msg) (payee : Address) (amount : Nat) : Result Revert Storage := do
  t.onlySigner msg
  revertIf (payee = 0) .zeroAddress
  revertIf (amount = 0) .zeroAmount
  revertIf (t.availableBalance balance < amount) .insufficientBalance
  let proposalCount ← checkedAdd 256 t.proposalCount 1
  return { t with
    proposalCount := proposalCount
    proposals := t.proposals.set t.proposalCount { t.proposals.read t.proposalCount with
      payee := payee
      amount := amount
      confirmations := 1 }
    confirmed := t.confirmed.set (t.proposalCount, msg.sender) true }

def confirmWithdrawal (proposalId : Nat) : Result Revert Storage := do
  t.onlySigner msg
  revertIf (t.proposalCount ≤ proposalId) .invalidProposal
  let p := t.proposals.read proposalId
  revertIf (p.executed = true) .alreadyExecuted
  revertIf (t.confirmed.read (proposalId, msg.sender) = true) .alreadyConfirmed
  let confirmations ← checkedAdd 8 p.confirmations 1
  return { t with
    proposals := t.proposals.set proposalId { p with confirmations := confirmations }
    confirmed := t.confirmed.set (proposalId, msg.sender) true }

def executeWithdrawal (msg : Msg) (proposalId : Nat) : Result Revert (Step Storage Pending) := do
  t.onlySigner msg
  revertIf (t.proposalCount ≤ proposalId) .invalidProposal
  let p := t.proposals.read proposalId
  revertIf (p.executed = true) .alreadyExecuted
  revertIf (t.currentConfirmations proposalId < requiredConfirmations) .notEnoughConfirmations
  let available := t.availableBalance balance
  revertIf (available < p.amount) .insufficientBalance
  let scaled ← checkedMul 256 available spendingCapBps
  let cap := scaled / 10000
  revertIf (cap < p.amount ∧ p.governanceApproved = false) .exceedsSpendingCap
  return .pay { t with proposals := t.proposals.set proposalId { p with executed := true } } p.payee p.amount
    (.credit p.payee p.amount)

def governanceApprove (proposalId : Nat) : Result Revert Storage := do
  revertIf (msg.sender ≠ t.governance) .notGovernance
  revertIf (t.proposalCount ≤ proposalId) .invalidProposal
  return { t with proposals :=
    t.proposals.set proposalId { t.proposals.read proposalId with governanceApproved := true } }

def setGovernance (governance : Address) : Result Revert Storage := do
  t.onlyOwner msg
  revertIf (governance = 0) .zeroAddress
  return { t with governance := governance }

def transferOwnership (newOwner : Address) : Result Revert Storage := do
  t.onlyOwner msg
  revertIf (newOwner = 0) .zeroAddress
  return { t with owner := newOwner }

def replaceSigner (index : Nat) (newSigner : Address) : Result Revert Storage := do
  t.onlyOwner msg
  if inside : index < 5 then do
    revertIf (newSigner = 0) .zeroAddress
    let old := t.signers ⟨index, inside⟩
    revertIf (newSigner ≠ old ∧ t.isSigner.read newSigner = true) .duplicateSigner
    return { t with
      wasSignerHistorical := t.wasSignerHistorical.set old true
      isSigner := (t.isSigner.set old false).set newSigner true
      signers := Function.update t.signers ⟨index, inside⟩ newSigner }
  else .error (.raised .invalidIndex)

def withdrawPayments : Result Revert (Step Storage Pending) := do
  let amount := t.pendingWithdrawals.read msg.sender
  revertIf (amount = 0) .noPendingWithdrawal
  let pendingWithdrawalTotal ← checkedSub t.pendingWithdrawalTotal amount
  return .pay { t with
    pendingWithdrawals := t.pendingWithdrawals.set msg.sender 0
    pendingWithdrawalTotal := pendingWithdrawalTotal } msg.sender amount .transfer

def dispatch (msg : Msg) : Call → Result Revert (Step Storage Pending)
  | .init signers governance initialOwner => (t.init signers governance initialOwner).map .done
  | .proposeWithdrawal payee amount => (t.proposeWithdrawal balance msg payee amount).map .done
  | .confirmWithdrawal proposalId => (t.confirmWithdrawal msg proposalId).map .done
  | .executeWithdrawal proposalId => t.executeWithdrawal balance msg proposalId
  | .governanceApprove proposalId => (t.governanceApprove msg proposalId).map .done
  | .setGovernance governance => (t.setGovernance msg governance).map .done
  | .transferOwnership newOwner => (t.transferOwnership msg newOwner).map .done
  | .replaceSigner index newSigner => (t.replaceSigner msg index newSigner).map .done
  | .withdrawPayments => t.withdrawPayments msg
  | .receive => .ok (.done t)

def resume : Pending → Bool → Result Revert (Step Storage Pending)
  | .credit payee amount, false => do
    let credited ← checkedAdd 256 (t.pendingWithdrawals.read payee) amount
    let pendingWithdrawalTotal ← checkedAdd 256 t.pendingWithdrawalTotal amount
    return .done { t with
      pendingWithdrawals := t.pendingWithdrawals.set payee credited
      pendingWithdrawalTotal := pendingWithdrawalTotal }
  | .transfer, false => .error (.raised .transferFailed)
  | _, true => .ok (.done t)

end Storage

def contract : Contract Storage Call Pending Unit Revert where
  payable := fun call => call = .receive
  receives := true
  dispatch := fun t balance _ msg call => t.dispatch balance msg call
  resume := Storage.resume

/-- The treasury's own payments carry no data, so it never calls one of its functions. -/
def setting : Setting Storage Call Unit where
  callable := fun w message => message.1.sender ≠ w.self ∧ message.1.sender ≠ 0
  later := fun _ _ => True
  shifted := fun _ _ => True
  forced := True

instance : setting.Decides :=
  ⟨fun _ _ => inferInstanceAs (Decidable (_ ∧ _)), fun _ _ => .isTrue trivial, fun _ _ => .isTrue trivial, .isTrue trivial⟩

end Treasury

end Palimesh.Contracts
