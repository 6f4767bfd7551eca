import Palimesh.Collections.IndexedList
import Palimesh.Protocol.Custody

namespace Palimesh.Contracts.ValidatorRegistry

open Collections Protocol Protocol.Custody Protocol.Guarded Protocol.Reentrancy

abbrev Bytes := List UInt8

def minStake : Nat := 32 * 10 ^ 18

def unstakeLockup : Nat := 14 * 24 * 3600

def maxValidators : Nat := 21

def slashBps : Nat := 1000

def bpsDenom : Nat := 10000

def slashBurnShareBps : Nat := 5000

def slashReporterShareBps : Nat := 3000

structure Validator (β : Type) where
  nodeId : β
  operator : Address
  stake : Nat
  registeredAt : Nat
  unstakeRequestedAt : Nat
  active : Bool
deriving Inhabited

def Validator.leave {β : Type} (v : Validator β) (now : UInt64) : Validator β :=
  { v with active := false, unstakeRequestedAt := now.toNat }

structure Storage (β : Type) where
  initialized : Bool
  validators : InsertionMap β (Validator β)
  activeNodeIds : List β
  activeIndex : InsertionMap β Nat
  owner : Address
  slasher : Address
  slashRecipient : Address
  insuranceFund : Address
  burnSink : Address
  pendingWithdrawals : InsertionMap Address Nat

def deployed {β : Type} : Storage β where
  initialized := false
  validators := .empty
  activeNodeIds := []
  activeIndex := .empty
  owner := 0
  slasher := 0
  slashRecipient := 0
  insuranceFund := 0
  burnSink := 0
  pendingWithdrawals := .empty

inductive Revert
  | nodeIdMismatch | stakeTooLow | alreadyRegistered | notRegistered | validatorSetFull | notOperator | notActive
  | alreadyDeactivated | stillLockedUp | invalidPubkey | onlySlasher | onlyOwner | transferFailed | zeroAddress
  | noPendingWithdrawal | invalidInitialization | strayEther
deriving DecidableEq

/-- What is left to do after a payment: the other shares of a slash, or to insist that it went through. -/
inductive Pending
  | burned (payee : Address) (amount reporterShare insuranceShare : Nat)
  | reported (payee : Address) (amount insuranceShare : Nat)
  | credit (payee : Address) (amount : Nat)
  | transfer

inductive Call (β : Type)
  | init (initialOwner initialSlasher initialSlashRecipient : Address)
  | stake (nodeId : β) (pubkeyNode : Bytes)
  | requestUnstake (nodeId : β)
  | withdrawStake (nodeId : β)
  | slashValidator (nodeId reason : β)
  | withdrawPayments
  | setSlasher (newSlasher : Address)
  | setSlashRecipient (newRecipient : Address)
  | setInsuranceFund (newFund : Address)
  | setBurnSink (newSink : Address)
  | transferOwnership (newOwner : Address)
  | receive
deriving DecidableEq

def Call.payable {β : Type} : Call β → Bool
  | .stake _ _ | .receive => true
  | _ => false

namespace Storage

variable {β : Type} [DecidableEq β] [Inhabited β] (s : Storage β)

section Payments

omit [DecidableEq β] [Inhabited β]

variable (payee : Address) (amount : Nat)

def payOrCredit (pending : Pending) (rest : Step (Storage β) Pending) : Step (Storage β) Pending :=
  if amount = 0 ∨ payee = 0 then rest else .pay s payee amount pending

def payInsurance (insuranceShare : Nat) : Step (Storage β) Pending :=
  s.payOrCredit s.insuranceFund insuranceShare (.credit s.insuranceFund insuranceShare) (.done s)

def payReporter (reporterShare insuranceShare : Nat) : Step (Storage β) Pending :=
  s.payOrCredit s.slashRecipient reporterShare (.reported s.slashRecipient reporterShare insuranceShare)
    (s.payInsurance insuranceShare)

def creditTo : Result Revert (Storage β) := do
  let credited ← checkedAdd 256 (s.pendingWithdrawals.read payee) amount
  return { s with pendingWithdrawals := s.pendingWithdrawals.set payee credited }

def paidOrCredited (ok : Bool) : Result Revert (Storage β) :=
  if ok then .ok s else s.creditTo payee amount

def resume (pending : Pending) (ok : Bool) : Result Revert (Step (Storage β) Pending) :=
  match pending with
  | .burned payee amount reporterShare insuranceShare => do
    let s ← s.paidOrCredited payee amount ok
    return s.payReporter reporterShare insuranceShare
  | .reported payee amount insuranceShare => do
    let s ← s.paidOrCredited payee amount ok
    return s.payInsurance insuranceShare
  | .credit payee amount => do
    let s ← s.paidOrCredited payee amount ok
    return .done s
  | .transfer => if ok then .ok (.done s) else .error (.raised .transferFailed)

def withdrawPayments (msg : Msg) : Result Revert (Step (Storage β) Pending) := do
  let amount := s.pendingWithdrawals.read msg.sender
  revertIf (amount = 0) .noPendingWithdrawal
  return .pay { s with pendingWithdrawals := s.pendingWithdrawals.set msg.sender 0 } msg.sender amount .transfer

end Payments

section Roles

omit [DecidableEq β] [Inhabited β]

def onlyOwner (msg : Msg) : Result Revert Unit := revertIf (msg.sender ≠ s.owner) .onlyOwner

def init (initialOwner initialSlasher initialSlashRecipient : Address) : Result Revert (Storage β) := do
  revertIf (s.initialized = true) .invalidInitialization
  revertIf (initialOwner = 0 ∨ initialSlasher = 0 ∨ initialSlashRecipient = 0) .zeroAddress
  return { s with
    initialized := true
    owner := initialOwner
    slasher := initialSlasher
    slashRecipient := initialSlashRecipient }

variable (msg : Msg)

def setSlasher (newSlasher : Address) : Result Revert (Storage β) := do
  s.onlyOwner msg
  revertIf (newSlasher = 0) .zeroAddress
  return { s with slasher := newSlasher }

def setSlashRecipient (newRecipient : Address) : Result Revert (Storage β) := do
  s.onlyOwner msg
  revertIf (newRecipient = 0) .zeroAddress
  return { s with slashRecipient := newRecipient }

def setInsuranceFund (newFund : Address) : Result Revert (Storage β) := do
  s.onlyOwner msg
  return { s with insuranceFund := newFund }

def setBurnSink (newSink : Address) : Result Revert (Storage β) := do
  s.onlyOwner msg
  return { s with burnSink := newSink }

def transferOwnership (newOwner : Address) : Result Revert (Storage β) := do
  s.onlyOwner msg
  revertIf (newOwner = 0) .zeroAddress
  return { s with owner := newOwner }

end Roles

def stake (keccak : Bytes → β) (now : UInt64) (msg : Msg) (nodeId : β) (pubkeyNode : Bytes) :
    Result Revert (Storage β) := do
  revertIf (pubkeyNode.length ≠ 65) .invalidPubkey
  revertIf (keccak (pubkeyNode.drop 1) ≠ nodeId) .nodeIdMismatch
  revertIf (msg.value < minStake) .stakeTooLow
  revertIf ((s.validators.read nodeId).operator ≠ 0) .alreadyRegistered
  revertIf (maxValidators ≤ s.activeNodeIds.length) .validatorSetFull
  return { s with
    validators := s.validators.set nodeId {
      nodeId := nodeId
      operator := msg.sender
      stake := msg.value
      registeredAt := now.toNat
      unstakeRequestedAt := 0
      active := true }
    activeNodeIds := s.activeNodeIds ++ [nodeId]
    activeIndex := s.activeIndex.set nodeId (s.activeNodeIds.length + 1) }

def removeFromActive (nodeId : β) : Result Revert (Storage β) := do
  let idx1 := s.activeIndex.read nodeId
  if idx1 = 0 then return s
  let idx := idx1 - 1
  let last ← checkedSub s.activeNodeIds.length 1
  match s.activeNodeIds[last]? with
  | none => .error .panic
  | some movedId =>
    if last < idx then .error .panic
    else return { s with
      activeNodeIds := IndexedList.takeOut s.activeNodeIds idx movedId
      activeIndex := IndexedList.forget s.activeIndex nodeId idx s.activeNodeIds.length movedId }

variable (now : UInt64) (msg : Msg) (nodeId : β)

def deactivate : Result Revert (Storage β) :=
  { s with validators := s.validators.set nodeId ((s.validators.read nodeId).leave now) }.removeFromActive nodeId

def deactivateIfActive : Result Revert (Storage β) :=
  if (s.validators.read nodeId).active = true then s.deactivate now nodeId else .ok s

def requestUnstake : Result Revert (Storage β) := do
  let v := s.validators.read nodeId
  revertIf (v.operator = 0) .notRegistered
  revertIf (v.operator ≠ msg.sender) .notOperator
  revertIf (v.active = false) .alreadyDeactivated
  s.deactivate now nodeId

def withdrawStake : Result Revert (Step (Storage β) Pending) := do
  let v := s.validators.read nodeId
  revertIf (v.operator = 0) .notRegistered
  revertIf (v.operator ≠ msg.sender) .notOperator
  revertIf (v.active = true) .notActive
  let unlockAt ← checkedAdd 64 v.unstakeRequestedAt unstakeLockup
  revertIf (now.toNat < unlockAt) .stillLockedUp
  let cleared := { s with validators := s.validators.set nodeId default }
  return if 0 < v.stake then .pay cleared v.operator v.stake .transfer else .done cleared

def distributeSlash (slashAmount : Nat) : Result Revert (Step (Storage β) Pending) := do
  if slashAmount = 0 then return .done s
  if s.insuranceFund = 0 then
    return s.payOrCredit s.slashRecipient slashAmount (.credit s.slashRecipient slashAmount) (.done s)
  let burned ← checkedMul 256 slashAmount slashBurnShareBps
  let reported ← checkedMul 256 slashAmount slashReporterShareBps
  let burnShare := burned / bpsDenom
  let reporterShare := reported / bpsDenom
  let rest ← checkedSub slashAmount burnShare
  let insuranceShare ← checkedSub rest reporterShare
  let effectiveBurnSink := if s.burnSink = 0 then 0xdead else s.burnSink
  return s.payOrCredit effectiveBurnSink burnShare (.burned effectiveBurnSink burnShare reporterShare insuranceShare)
    (s.payReporter reporterShare insuranceShare)

def withStake (stake : Nat) : Storage β :=
  { s with validators := s.validators.set nodeId { s.validators.read nodeId with stake := stake } }

def slashShare (stake scaled : Nat) : Nat := if stake < scaled / bpsDenom then stake else scaled / bpsDenom

def slashValidator : Result Revert (Step (Storage β) Pending) := do
  revertIf (msg.sender ≠ s.slasher) .onlySlasher
  let v := s.validators.read nodeId
  revertIf (v.operator = 0) .notRegistered
  let scaled ← checkedMul 256 v.stake slashBps
  let slashAmount := slashShare v.stake scaled
  let stake ← checkedSub v.stake slashAmount
  let settled ← (s.withStake nodeId stake).deactivateIfActive now nodeId
  settled.distributeSlash slashAmount

def dispatch (keccak : Bytes → β) (now : UInt64) (msg : Msg) : Call β → Result Revert (Step (Storage β) Pending)
  | .init initialOwner initialSlasher initialSlashRecipient =>
    (s.init initialOwner initialSlasher initialSlashRecipient).map .done
  | .stake nodeId pubkeyNode => (s.stake keccak now msg nodeId pubkeyNode).map .done
  | .requestUnstake nodeId => (s.requestUnstake now msg nodeId).map .done
  | .withdrawStake nodeId => s.withdrawStake now msg nodeId
  | .slashValidator nodeId _ => s.slashValidator now msg nodeId
  | .withdrawPayments => s.withdrawPayments msg
  | .setSlasher newSlasher => (s.setSlasher msg newSlasher).map .done
  | .setSlashRecipient newRecipient => (s.setSlashRecipient msg newRecipient).map .done
  | .setInsuranceFund newFund => (s.setInsuranceFund msg newFund).map .done
  | .setBurnSink newSink => (s.setBurnSink msg newSink).map .done
  | .transferOwnership newOwner => (s.transferOwnership msg newOwner).map .done
  | .receive => .error (.raised .strayEther)

end Storage

variable {β : Type} [DecidableEq β] [Inhabited β] (keccak : Bytes → β)

/-- The surroundings are the time, which a block header holds in 64 bits. -/
def contract : Contract (Storage β) (Call β) Pending UInt64 Revert where
  payable := Call.payable
  receives := false
  dispatch := fun s _ now msg call => s.dispatch keccak now msg call
  resume := Storage.resume

def setting : Setting (Storage β) (Call β) UInt64 where
  callable := fun w message => message.1.sender ≠ w.self ∧ message.1.sender ≠ 0
  later := fun now next => now ≤ next
  shifted := fun _ _ => False
  forced := True

instance : (setting : Setting (Storage β) (Call β) UInt64).Decides where
  callable := fun _ _ => inferInstanceAs (Decidable (_ ∧ _))
  later := fun now next => inferInstanceAs (Decidable (now ≤ next))
  shifted := fun _ _ => .isFalse id
  forced := .isTrue trivial

end Palimesh.Contracts.ValidatorRegistry
