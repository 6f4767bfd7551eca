import Palimesh.Contracts.ValidatorRegistry

namespace Palimesh.Contracts.ValidatorRegistry

open Collections Protocol Protocol.Custody Protocol.Guarded Protocol.Reentrancy List InsertionMap Storage Step

variable {β : Type} [DecidableEq β] [Inhabited β]

abbrev Record (β : Type) := Entry (Storage β) (Call β) UInt64

variable (s : Storage β) (now : UInt64) (nodeId : β) (history : List (Record β))

def Call.registers : Call β → Bool
  | .stake other _ => decide (other = nodeId)
  | _ => false

def registrations : Nat := history.countP fun entry => entry.call.registers nodeId

def withdrawals : Nat :=
  history.countP fun entry => decide (entry.call = .withdrawStake nodeId)

/-- A stake is withdrawn for a validator that is out of the active set, was in it a lockup ago at the
    latest, and has a registration that was not withdrawn. -/
def PaidOut (entry : Record β) (earlier : List (Record β)) : Prop :=
  ∀ nodeId, entry.call = .withdrawStake nodeId →
    nodeId ∉ entry.state.activeNodeIds ∧
    (∀ before ∈ earlier, nodeId ∈ before.state.activeNodeIds →
      before.env.toNat + unstakeLockup ≤ entry.env.toNat) ∧
    withdrawals nodeId earlier < registrations nodeId earlier

structure ActiveSet : Prop where
  inverse : IndexedList.Inverse s.activeNodeIds s.activeIndex
  bounded : s.activeNodeIds.length ≤ maxValidators
  member : ∀ nodeId, nodeId ∈ s.activeNodeIds ↔ (s.validators.read nodeId).active = true
  staked : ∀ nodeId, (s.validators.read nodeId).active = true → minStake ≤ (s.validators.read nodeId).stake
  operated : ∀ nodeId, (s.validators.read nodeId).active = true → (s.validators.read nodeId).operator ≠ 0

/-- The clocks and records of the validators go back to the calls that were taken. -/
structure Clocked : Prop where
  past : ∀ entry ∈ history, entry.env.toNat ≤ now.toNat
  left : ∀ nodeId, (s.validators.read nodeId).operator ≠ 0 → (s.validators.read nodeId).active = false →
    ∀ entry ∈ history, nodeId ∈ entry.state.activeNodeIds →
      entry.env.toNat ≤ (s.validators.read nodeId).unstakeRequestedAt
  counted : ∀ nodeId, withdrawals nodeId history + (if (s.validators.read nodeId).operator = 0 then 0 else 1) =
    registrations nodeId history
  recorded : Recorded PaidOut history

def Sound : Prop := ActiveSet s ∧ Clocked s now history

theorem deployed_sound : Sound (deployed : Storage β) now [] := by
  refine ⟨⟨.empty, Nat.zero_le _, ?_, nofun, nofun⟩, ⟨nofun, fun _ _ _ => nofun, fun _ => rfl, .nil⟩⟩
  intro nodeId
  constructor
  · exact nofun
  · exact nofun

inductive Change (call : Call β) (s' : Storage β) : Prop
  | kept (validators : s'.validators = s.validators) (ids : s'.activeNodeIds = s.activeNodeIds)
      (index : s'.activeIndex = s.activeIndex) (quiet : ∀ nodeId, call.registers nodeId = false)
      (unpaid : ∀ nodeId, call ≠ .withdrawStake nodeId)
  | registered (nodeId : β) (pubkeyNode : Bytes) (v : Validator β) (same : call = .stake nodeId pubkeyNode)
      (free : (s.validators.read nodeId).operator = 0) (operated : v.operator ≠ 0) (active : v.active = true)
      (staked : minStake ≤ v.stake) (room : s.activeNodeIds.length < maxValidators)
      (validators : s'.validators = s.validators.set nodeId v)
      (ids : s'.activeNodeIds = s.activeNodeIds ++ [nodeId])
      (index : s'.activeIndex = s.activeIndex.set nodeId (s.activeNodeIds.length + 1))
  | deactivated (nodeId : β) (v : Validator β) (old : (s.validators.read nodeId).active = true)
      (operator : v.operator = (s.validators.read nodeId).operator) (inactive : v.active = false)
      (clock : v.unstakeRequestedAt = now.toNat)
      (validators : ∀ other, s'.validators.read other = if other = nodeId then v else s.validators.read other)
      (inverse : IndexedList.Inverse s'.activeNodeIds s'.activeIndex)
      (ids : ∀ other, other ∈ s'.activeNodeIds ↔ other ∈ s.activeNodeIds ∧ other ≠ nodeId)
      (shorter : s'.activeNodeIds.length ≤ s.activeNodeIds.length)
      (quiet : ∀ nodeId, call.registers nodeId = false) (unpaid : ∀ nodeId, call ≠ .withdrawStake nodeId)
  | reduced (nodeId : β) (stake : Nat) (old : (s.validators.read nodeId).active = false)
      (validators : s'.validators = s.validators.set nodeId { s.validators.read nodeId with stake := stake })
      (ids : s'.activeNodeIds = s.activeNodeIds) (index : s'.activeIndex = s.activeIndex)
      (quiet : ∀ nodeId, call.registers nodeId = false) (unpaid : ∀ nodeId, call ≠ .withdrawStake nodeId)
  | withdrawn (nodeId : β) (same : call = .withdrawStake nodeId) (operated : (s.validators.read nodeId).operator ≠ 0)
      (old : (s.validators.read nodeId).active = false)
      (unlocked : (s.validators.read nodeId).unstakeRequestedAt + unstakeLockup ≤ now.toNat)
      (validators : s'.validators = s.validators.set nodeId default) (ids : s'.activeNodeIds = s.activeNodeIds)
      (index : s'.activeIndex = s.activeIndex)

variable {s s' : Storage β} {now : UInt64} {call : Call β} {msg : Msg} {balance : Nat} {history : List (Record β)}

theorem ActiveSet.same (active : ActiveSet s) (validators : s'.validators = s.validators)
    (ids : s'.activeNodeIds = s.activeNodeIds) (index : s'.activeIndex = s.activeIndex) : ActiveSet s' := by
  obtain ⟨inverse, bounded, member, staked, operated⟩ := active
  refine ⟨?_, ?_, ?_, ?_, ?_⟩
  · rwa [ids, index]
  · rwa [ids]
  · rwa [ids, validators]
  · rwa [validators]
  · rwa [validators]

theorem ActiveSet.not_mem (active : ActiveSet s) {nodeId : β} (inactive : (s.validators.read nodeId).active = false) :
    nodeId ∉ s.activeNodeIds := by
  intro member
  rw [(active.member nodeId).mp member] at inactive
  cases inactive

theorem ActiveSet.without (active : ActiveSet s) (nodeId : β) {v : Validator β} (inactive : v.active = false)
    (validators : ∀ other, s'.validators.read other = if other = nodeId then v else s.validators.read other)
    (inverse : IndexedList.Inverse s'.activeNodeIds s'.activeIndex)
    (ids : ∀ other, other ∈ s'.activeNodeIds ↔ other ∈ s.activeNodeIds ∧ other ≠ nodeId)
    (shorter : s'.activeNodeIds.length ≤ s.activeNodeIds.length) : ActiveSet s' := by
  have elsewhere : ∀ other, (s'.validators.read other).active = true →
      other ≠ nodeId ∧ s'.validators.read other = s.validators.read other := by
    intro other flag
    rw [validators] at flag ⊢
    split at flag
    · rw [inactive] at flag
      cases flag
    · rename_i away
      exact ⟨away, if_neg away⟩
  refine ⟨inverse, le_trans shorter active.bounded, fun other => ?_, fun other flag => ?_, fun other flag => ?_⟩
  · rw [ids, active.member]
    constructor
    · rintro ⟨flag, away⟩
      rw [validators, if_neg away]
      exact flag
    · intro flag
      obtain ⟨away, same⟩ := elsewhere other flag
      exact ⟨same ▸ flag, away⟩
  · have same := (elsewhere other flag).2
    rw [same] at flag ⊢
    exact active.staked other flag
  · have same := (elsewhere other flag).2
    rw [same] at flag ⊢
    exact active.operated other flag

theorem ActiveSet.aside (active : ActiveSet s) {nodeId : β} {v : Validator β}
    (old : (s.validators.read nodeId).active = false) (validators : s'.validators = s.validators.set nodeId v)
    (inactive : v.active = false) (ids : s'.activeNodeIds = s.activeNodeIds)
    (index : s'.activeIndex = s.activeIndex) : ActiveSet s' := by
  refine active.without nodeId inactive (fun other => ?_) ?_ (fun other => ?_) (le_of_eq (congrArg length ids))
  · rw [validators, read_set]
  · rw [ids, index]
    exact active.inverse
  · rw [ids]
    exact ⟨fun member => ⟨member, fun here => active.not_mem old (here ▸ member)⟩, And.left⟩

theorem Change.activeSet (active : ActiveSet s) (change : Change s now call s') : ActiveSet s' := by
  cases change with
  | kept validators ids index quiet unpaid => exact active.same validators ids index
  | deactivated nodeId v old operator inactive clock validators inverse ids shorter quiet unpaid =>
    exact active.without nodeId inactive validators inverse ids shorter
  | reduced nodeId stake old validators ids index quiet unpaid => exact active.aside old validators old ids index
  | withdrawn nodeId same operated old unlocked validators ids index =>
    exact active.aside old validators rfl ids index
  | registered nodeId pubkeyNode v same free new flag enough room validators ids index =>
    obtain ⟨inverse, bounded, member, staked, operated⟩ := active
    have absent : s.activeIndex.read nodeId = 0 := by
      by_contra indexed
      exact operated nodeId ((member nodeId).mp (inverse.mem_iff.mpr indexed)) free
    refine ⟨?_, ?_, ?_, ?_, ?_⟩
    · rw [ids, index]
      exact inverse.push absent
    · rw [ids, length_append, length_singleton]
      omega
    · intro other
      rw [ids, validators, read_set, mem_append, mem_singleton, member]
      by_cases here : other = nodeId
      · simp [here, flag]
      · simp [here]
    · intro other
      rw [validators, read_set]
      split
      · exact fun _ => enough
      · exact staked other
    · intro other
      rw [validators, read_set]
      split
      · exact fun _ => new
      · exact operated other

section Clocks

omit [Inhabited β] in
theorem registrations_cons (nodeId : β) (entry : Record β) (history : List (Record β)) :
    registrations nodeId (entry :: history) =
      registrations nodeId history + if entry.call.registers nodeId = true then 1 else 0 :=
  countP_cons

omit [Inhabited β] in
theorem withdrawals_cons (nodeId : β) (entry : Record β) (history : List (Record β)) :
    withdrawals nodeId (entry :: history) =
      withdrawals nodeId history + if entry.call = .withdrawStake nodeId then 1 else 0 := by
  rw [withdrawals, countP_cons]
  simp [withdrawals]

theorem Clocked.left_cons (active : ActiveSet s) (clocked : Clocked s now history) {nodeId : β}
    (operated : (s.validators.read nodeId).operator ≠ 0) (inactive : (s.validators.read nodeId).active = false) :
    ∀ entry ∈ ⟨s, balance, now, msg, call⟩ :: history, nodeId ∈ entry.state.activeNodeIds →
      entry.env.toNat ≤ (s.validators.read nodeId).unstakeRequestedAt :=
  List.forall_mem_cons.mpr
    ⟨fun member => absurd member (active.not_mem inactive), clocked.left nodeId operated inactive⟩

theorem Clocked.quiet (active : ActiveSet s) (clocked : Clocked s now history)
    (quiet : ∀ nodeId, call.registers nodeId = false) (unpaid : ∀ nodeId, call ≠ .withdrawStake nodeId)
    (kept : ∀ nodeId, (s'.validators.read nodeId).operator = (s.validators.read nodeId).operator ∧
      ((s'.validators.read nodeId).active = false → (s.validators.read nodeId).active = false ∧
          (s'.validators.read nodeId).unstakeRequestedAt = (s.validators.read nodeId).unstakeRequestedAt ∨
        (s'.validators.read nodeId).unstakeRequestedAt = now.toNat)) :
    Clocked s' now (⟨s, balance, now, msg, call⟩ :: history) where
  past := List.forall_mem_cons.mpr ⟨le_rfl, clocked.past⟩
  left := by
    intro nodeId operated inactive
    rw [(kept nodeId).1] at operated
    rcases (kept nodeId).2 inactive with ⟨old, same⟩ | clock
    · rw [same]
      exact clocked.left_cons active operated old
    · rw [clock]
      exact List.forall_mem_cons.mpr ⟨fun _ => le_rfl, fun entry member _ => clocked.past entry member⟩
  counted := by
    intro nodeId
    have counted := clocked.counted nodeId
    rw [registrations_cons, withdrawals_cons, (kept nodeId).1, if_neg (unpaid nodeId), quiet nodeId]
    exact counted
  recorded := .cons (fun nodeId same => absurd same (unpaid nodeId)) clocked.recorded

theorem Change.clocked (active : ActiveSet s) (clocked : Clocked s now history) (change : Change s now call s') :
    Clocked s' now (⟨s, balance, now, msg, call⟩ :: history) := by
  cases change with
  | kept validators ids index quiet unpaid =>
    refine clocked.quiet active quiet unpaid fun other => ?_
    rw [validators]
    exact ⟨rfl, fun inactive => .inl ⟨inactive, rfl⟩⟩
  | deactivated nodeId v old operator inactive clock validators inverse ids shorter quiet unpaid =>
    refine clocked.quiet active quiet unpaid fun other => ?_
    rw [validators]
    split
    · rename_i here
      rw [here]
      exact ⟨operator, fun _ => .inr clock⟩
    · exact ⟨rfl, fun inactive => .inl ⟨inactive, rfl⟩⟩
  | reduced nodeId stake old validators ids index quiet unpaid =>
    refine clocked.quiet active quiet unpaid fun other => ?_
    rw [validators, read_set]
    split
    · rename_i here
      rw [here]
      exact ⟨rfl, fun _ => .inl ⟨old, rfl⟩⟩
    · exact ⟨rfl, fun inactive => .inl ⟨inactive, rfl⟩⟩
  | registered nodeId pubkeyNode v same free new flag enough room validators ids index =>
    subst same
    refine ⟨List.forall_mem_cons.mpr ⟨le_rfl, clocked.past⟩, ?_, ?_, .cons (by simp [PaidOut]) clocked.recorded⟩
    · intro other operated inactive
      rw [validators, read_set] at operated inactive ⊢
      split at operated
      · rename_i here
        rw [if_pos here, flag] at inactive
        cases inactive
      · rename_i away
        rw [if_neg away] at inactive ⊢
        exact clocked.left_cons active operated inactive
    · intro other
      have counted := clocked.counted other
      rw [registrations_cons, withdrawals_cons, if_neg (by simp), validators, read_set]
      simp only [Call.registers, decide_eq_true_eq]
      by_cases here : other = nodeId
      · subst here
        rw [free, if_pos rfl] at counted
        rw [if_pos rfl, if_neg new, if_pos rfl]
        omega
      · rw [if_neg here, if_neg (Ne.symm here)]
        omega
  | withdrawn nodeId same operated old unlocked validators ids index =>
    subst same
    have counted := clocked.counted nodeId
    rw [if_neg operated] at counted
    have paid : PaidOut ⟨s, balance, now, msg, .withdrawStake nodeId⟩ history := by
      intro other same
      cases same
      refine ⟨active.not_mem old, fun before member inside => ?_, by omega⟩
      have earlier := clocked.left nodeId operated old before member inside
      exact le_trans (Nat.add_le_add_right earlier _) unlocked
    refine ⟨List.forall_mem_cons.mpr ⟨le_rfl, clocked.past⟩, ?_, ?_, .cons paid clocked.recorded⟩
    · intro other present inactive
      rw [validators, read_set] at present inactive ⊢
      split at present
      · exact absurd rfl present
      · rename_i away
        rw [if_neg away] at inactive ⊢
        exact clocked.left_cons active present inactive
    · intro other
      rw [registrations_cons, withdrawals_cons, validators, read_set]
      by_cases here : other = nodeId
      · subst here
        rw [if_pos rfl, if_pos rfl]
        exact counted
      · have elsewhere := clocked.counted other
        rw [if_neg here, if_neg fun same => here (Call.withdrawStake.inj same).symm]
        exact elsewhere

theorem Change.sound (sound : Sound s now history) (change : Change s now call s') :
    Sound s' now (⟨s, balance, now, msg, call⟩ :: history) :=
  ⟨change.activeSet sound.1, change.clocked sound.1 sound.2⟩

end Clocks

omit [DecidableEq β] in
@[simp] theorem stake_default : (default : Validator β).stake = 0 := rfl

theorem credit_default : id (default : Nat) = 0 := rfl

def owed (s : Storage β) : Nat := s.validators.total Validator.stake + s.pendingWithdrawals.total id

def reserve : Pending → Nat
  | .burned _ amount _ _ | .reported _ amount _ | .credit _ amount => amount
  | .transfer => 0

def due : Pending → Nat
  | .burned _ _ reporterShare insuranceShare => reporterShare + insuranceShare
  | .reported _ _ insuranceShare => insuranceShare
  | .credit _ _ | .transfer => 0

/-- The step spends no more than `funds` on its payments, now and later. -/
structure Spends (s : Storage β) (funds : Nat) (step : Step (Storage β) Pending) : Prop where
  state : step.state = s
  within : step.paid + step.needs due ≤ funds
  reserved : step.needs reserve ≤ step.paid

section Payments

omit [DecidableEq β] [Inhabited β]

variable {step : Step (Storage β) Pending} {pending : Pending}

theorem Spends.nothing (s : Storage β) (funds : Nat) : Spends s funds (.done s) :=
  ⟨rfl, Nat.zero_le _, Nat.le_refl _⟩

variable {payee : Address} {amount funds : Nat}

theorem payOrCredit_spends (later : Spends s funds step)
    (enough : amount + due pending ≤ funds) (credited : reserve pending = amount) :
    Spends s funds (s.payOrCredit payee amount pending step) := by
  unfold payOrCredit
  split
  · exact later
  · exact ⟨rfl, enough, le_of_eq credited⟩

theorem payInsurance_spends (s : Storage β) {insuranceShare : Nat} (enough : insuranceShare ≤ funds) :
    Spends s funds (s.payInsurance insuranceShare) :=
  payOrCredit_spends (.nothing s funds) enough rfl

theorem payReporter_spends (s : Storage β) {reporterShare insuranceShare : Nat}
    (enough : reporterShare + insuranceShare ≤ funds) : Spends s funds (s.payReporter reporterShare insuranceShare) :=
  payOrCredit_spends (payInsurance_spends s (by omega)) enough rfl

theorem creditTo_owed (ran : s.creditTo payee amount = .ok s') :
    owed s' = owed s + amount ∧ s'.validators = s.validators ∧ s'.activeNodeIds = s.activeNodeIds ∧
      s'.activeIndex = s.activeIndex := by
  simp only [creditTo, bind_ok, pure_ok, checkedAdd_ok] at ran
  obtain ⟨_, ⟨-, rfl⟩, rfl⟩ := ran
  have exchanged := s.pendingWithdrawals.total_set credit_default payee (s.pendingWithdrawals.read payee + amount)
  simp only [id_eq] at exchanged
  refine ⟨?_, rfl, rfl, rfl⟩
  simp only [owed]
  omega

theorem paidOrCredited_owed {ok : Bool}
    (ran : s.paidOrCredited payee amount ok = .ok s') :
    owed s' ≤ owed s + (if ok then 0 else amount) ∧ s'.validators = s.validators ∧
      s'.activeNodeIds = s.activeNodeIds ∧ s'.activeIndex = s.activeIndex := by
  cases ok with
  | true =>
    cases ran
    exact ⟨le_rfl, rfl, rfl, rfl⟩
  | false =>
    obtain ⟨sum, same⟩ := creditTo_owed ran
    exact ⟨le_of_eq sum, same⟩

theorem resume_spends {ok : Bool} (ran : s.resume pending ok = .ok step) :
    ∃ s', Spends s' (due pending) step ∧ owed s' ≤ owed s + (if ok then 0 else reserve pending) ∧
      s'.validators = s.validators ∧ s'.activeNodeIds = s.activeNodeIds ∧ s'.activeIndex = s.activeIndex := by
  cases pending with
  | burned payee amount reporterShare insuranceShare =>
    simp only [resume, bind_ok, pure_ok] at ran
    obtain ⟨s', ran, rfl⟩ := ran
    exact ⟨s', payReporter_spends s' le_rfl, paidOrCredited_owed ran⟩
  | reported payee amount insuranceShare =>
    simp only [resume, bind_ok, pure_ok] at ran
    obtain ⟨s', ran, rfl⟩ := ran
    exact ⟨s', payInsurance_spends s' le_rfl, paidOrCredited_owed ran⟩
  | credit payee amount =>
    simp only [resume, bind_ok, pure_ok] at ran
    obtain ⟨s', ran, rfl⟩ := ran
    exact ⟨s', .nothing s' _, paidOrCredited_owed ran⟩
  | transfer =>
    cases ok with
    | true =>
      cases ran
      exact ⟨s, .nothing s _, le_rfl, rfl, rfl, rfl⟩
    | false => cases ran

theorem distributeSlash_spends {slashAmount : Nat} (ran : s.distributeSlash slashAmount = .ok step) :
    Spends s slashAmount step := by
  unfold distributeSlash at ran
  split at ran
  · obtain rfl := pure_ok.mp ran
    exact .nothing s _
  · split at ran
    · obtain rfl := pure_ok.mp ran
      exact payOrCredit_spends (.nothing s _) le_rfl rfl
    · simp only [bind_ok, pure_ok, checkedMul_ok, checkedSub_ok] at ran
      obtain ⟨_, ⟨-, rfl⟩, _, ⟨-, rfl⟩, _, ⟨burned, rfl⟩, _, ⟨reported, rfl⟩, rfl⟩ := ran
      simp only [bpsDenom] at burned reported ⊢
      refine payOrCredit_spends (payReporter_spends s (by omega)) ?_ rfl
      simp only [due]
      omega

end Payments

section Functions

variable {step : Step (Storage β) Pending}

structure Effect (s : Storage β) (now : UInt64) (call : Call β) (value : Nat) (step : Step (Storage β) Pending) :
    Prop where
  change : Change s now call step.state
  within : owed step.state + step.paid + step.needs due ≤ owed s + value
  reserved : step.needs reserve ≤ step.paid

theorem Effect.tune {value : Nat} (validators : s'.validators = s.validators) (ids : s'.activeNodeIds = s.activeNodeIds)
    (index : s'.activeIndex = s.activeIndex) (credits : s'.pendingWithdrawals = s.pendingWithdrawals)
    (quiet : ∀ nodeId, call.registers nodeId = false) (unpaid : ∀ nodeId, call ≠ .withdrawStake nodeId) :
    Effect s now call value (.done s') := by
  refine ⟨.kept validators ids index quiet unpaid, ?_, le_rfl⟩
  simp only [state, paid, needs, owed, validators, credits]
  omega

variable {nodeId : β} {keccak : Bytes → β}

theorem stake_effect {pubkeyNode : Bytes} (sender : msg.sender ≠ 0)
    (ran : s.stake keccak now msg nodeId pubkeyNode = .ok s') :
    Effect s now (.stake nodeId pubkeyNode) msg.value (.done s') := by
  simp only [stake, bind_ok, revertIf_ok, pure_ok] at ran
  obtain ⟨-, -, -, -, -, enough, -, free, -, room, rfl⟩ := ran
  have empty : (s.validators.read nodeId).operator = 0 := Decidable.not_not.mp free
  refine ⟨.registered nodeId pubkeyNode _ rfl empty sender rfl (Nat.le_of_not_lt enough) (Nat.lt_of_not_le room) rfl
    rfl rfl, ?_, le_rfl⟩
  simp only [state, paid, needs, owed, total_set_eq _ stake_default]
  omega

omit [Inhabited β] in
theorem removeFromActive_ok (s : Storage β) (inverse : IndexedList.Inverse s.activeNodeIds s.activeIndex)
    (indexed : s.activeIndex.read nodeId ≠ 0) (ran : s.removeFromActive nodeId = .ok s') :
    ∃ ids index, s' = { s with activeNodeIds := ids, activeIndex := index } ∧ IndexedList.Inverse ids index ∧
      (∀ other, other ∈ ids ↔ other ∈ s.activeNodeIds ∧ other ≠ nodeId) ∧ ids.length ≤ s.activeNodeIds.length := by
  unfold removeFromActive at ran
  rw [if_neg indexed] at ran
  simp only [bind_ok, checkedSub_ok] at ran
  obtain ⟨_, ⟨-, rfl⟩, ran⟩ := ran
  split at ran
  · cases ran
  · rename_i movedId final
    split at ran
    · cases ran
    · obtain rfl := pure_ok.mp ran
      have position : s.activeIndex.read nodeId = s.activeIndex.read nodeId - 1 + 1 := by omega
      refine ⟨_, _, rfl, inverse.takeOut position final, inverse.mem_takeOut position final, ?_⟩
      rw [IndexedList.length_takeOut]
      exact Nat.sub_le _ _

theorem deactivate_ok (s : Storage β) (inverse : IndexedList.Inverse s.activeNodeIds s.activeIndex)
    (indexed : s.activeIndex.read nodeId ≠ 0) (ran : s.deactivate now nodeId = .ok s') :
    (s'.validators = s.validators.set nodeId ((s.validators.read nodeId).leave now) ∧
      s'.pendingWithdrawals = s.pendingWithdrawals) ∧ IndexedList.Inverse s'.activeNodeIds s'.activeIndex ∧
      (∀ other, other ∈ s'.activeNodeIds ↔ other ∈ s.activeNodeIds ∧ other ≠ nodeId) ∧
      s'.activeNodeIds.length ≤ s.activeNodeIds.length := by
  obtain ⟨ids, index, rfl, kept⟩ := removeFromActive_ok
    { s with validators := s.validators.set nodeId ((s.validators.read nodeId).leave now) } inverse indexed ran
  exact ⟨⟨rfl, rfl⟩, kept⟩

theorem requestUnstake_effect (active : ActiveSet s) (ran : s.requestUnstake now msg nodeId = .ok s') :
    Effect s now (.requestUnstake nodeId) msg.value (.done s') := by
  simp only [requestUnstake, bind_ok, revertIf_ok] at ran
  obtain ⟨-, -, -, -, -, flag, ran⟩ := ran
  have old : (s.validators.read nodeId).active = true := Bool.not_eq_false _ ▸ flag
  have indexed : s.activeIndex.read nodeId ≠ 0 := active.inverse.mem_iff.mp ((active.member nodeId).mpr old)
  obtain ⟨⟨validators, credits⟩, inverse, members, shorter⟩ := deactivate_ok s active.inverse indexed ran
  refine ⟨.deactivated nodeId ((s.validators.read nodeId).leave now) old rfl rfl rfl ?_ inverse members shorter
    (fun _ => rfl) (by simp), ?_, le_rfl⟩
  · intro other
    rw [state, validators, read_set]
  · have bound := s.validators.le_total stake_default nodeId
    simp only [state, paid, needs, owed, validators, credits, total_set_eq _ stake_default,
      Validator.leave]
    omega

theorem withdrawStake_effect (ran : s.withdrawStake now msg nodeId = .ok step) :
    Effect s now (.withdrawStake nodeId) msg.value step := by
  simp only [withdrawStake, bind_ok, revertIf_ok, pure_ok, checkedAdd_ok] at ran
  obtain ⟨-, present, -, -, -, flag, _, ⟨-, rfl⟩, -, unlocked, rfl⟩ := ran
  have old : (s.validators.read nodeId).active = false := Bool.not_eq_true _ ▸ flag
  have change : ∀ s' : Storage β, s' = { s with validators := s.validators.set nodeId default } →
      Change s now (.withdrawStake nodeId) s' := by
    rintro _ rfl
    exact .withdrawn nodeId rfl present old (Nat.le_of_not_lt unlocked) rfl rfl rfl
  have bound := s.validators.le_total stake_default nodeId
  have released : owed { s with validators := s.validators.set nodeId default } + (s.validators.read nodeId).stake =
      owed s := by
    simp only [owed, total_set_eq _ stake_default, stake_default]
    omega
  split
  · refine ⟨change _ rfl, ?_, Nat.zero_le _⟩
    simp only [state, paid, needs, due]
    omega
  · refine ⟨change _ rfl, ?_, Nat.zero_le _⟩
    simp only [state, paid, needs]
    omega

theorem withStake_owed (s : Storage β) (nodeId : β) (stake : Nat) :
    owed (s.withStake nodeId stake) + (s.validators.read nodeId).stake = owed s + stake := by
  have exchanged := s.validators.total_set stake_default nodeId { s.validators.read nodeId with stake := stake }
  simp only [owed, withStake] at exchanged ⊢
  omega

theorem slashed_change {stake : Nat} (active : ActiveSet s) (quiet : ∀ nodeId, call.registers nodeId = false)
    (unpaid : ∀ nodeId, call ≠ .withdrawStake nodeId)
    (ran : (s.withStake nodeId stake).deactivateIfActive now nodeId = .ok s') :
    Change s now call s' ∧ owed s' = owed (s.withStake nodeId stake) := by
  have record : (s.withStake nodeId stake).validators.read nodeId = { s.validators.read nodeId with stake := stake } := by
    rw [withStake, read_set_self]
  unfold deactivateIfActive at ran
  rw [record] at ran
  split at ran
  · rename_i old
    have indexed : s.activeIndex.read nodeId ≠ 0 := active.inverse.mem_iff.mp ((active.member nodeId).mpr old)
    obtain ⟨⟨validators, credits⟩, inverse, members, shorter⟩ :=
      deactivate_ok (s.withStake nodeId stake) active.inverse indexed ran
    rw [record] at validators
    constructor
    · refine .deactivated nodeId ({ s.validators.read nodeId with stake := stake }.leave now) old rfl rfl rfl ?_ inverse
        members shorter quiet unpaid
      intro other
      rw [validators, read_set, withStake, read_set]
      split
      · rfl
      · rfl
    · have exchanged := (s.withStake nodeId stake).validators.total_set stake_default nodeId
        ({ s.validators.read nodeId with stake := stake }.leave now)
      rw [record, Validator.leave] at exchanged
      simp only [owed, validators, credits, Validator.leave] at exchanged ⊢
      omega
  · rename_i flag
    cases ran
    have old : (s.validators.read nodeId).active = false := Bool.not_eq_true _ ▸ flag
    exact ⟨.reduced nodeId stake old rfl rfl rfl quiet unpaid, rfl⟩

theorem slashValidator_effect {reason : β} (active : ActiveSet s) (ran : s.slashValidator now msg nodeId = .ok step) :
    Effect s now (.slashValidator nodeId reason) msg.value step := by
  simp only [slashValidator, bind_ok, revertIf_ok, checkedMul_ok, checkedSub_ok] at ran
  obtain ⟨-, -, -, -, _, ⟨-, rfl⟩, _, ⟨within, rfl⟩, settled, left, ran⟩ := ran
  generalize slashShare (s.validators.read nodeId).stake _ = slashAmount at within left ran
  obtain ⟨state, spent, reserved⟩ := distributeSlash_spends ran
  have quiet : ∀ other, (Call.slashValidator nodeId reason).registers other = false := fun _ => rfl
  obtain ⟨change, same⟩ := slashed_change active quiet (by simp) left
  have cut := withStake_owed s nodeId ((s.validators.read nodeId).stake - slashAmount)
  rw [← state] at change same
  exact ⟨change, by omega, reserved⟩

theorem withdrawPayments_effect (ran : s.withdrawPayments msg = .ok step) :
    Effect s now .withdrawPayments msg.value step := by
  simp only [withdrawPayments, bind_ok, pure_ok] at ran
  obtain ⟨-, -, rfl⟩ := ran
  refine ⟨.kept rfl rfl rfl (fun _ => rfl) (by simp), ?_, Nat.zero_le _⟩
  have exchanged := s.pendingWithdrawals.total_set credit_default msg.sender 0
  simp only [id_eq] at exchanged
  simp only [state, paid, needs, due, owed]
  omega

theorem dispatch_effect (active : ActiveSet s) (sender : msg.sender ≠ 0)
    (ran : s.dispatch keccak now msg call = .ok step) : Effect s now call msg.value step := by
  cases call with
  | stake nodeId pubkeyNode =>
    obtain ⟨s', done, rfl⟩ := map_ok.mp ran
    exact stake_effect sender done
  | requestUnstake nodeId =>
    obtain ⟨s', done, rfl⟩ := map_ok.mp ran
    exact requestUnstake_effect active done
  | withdrawStake nodeId => exact withdrawStake_effect ran
  | slashValidator nodeId reason => exact slashValidator_effect active ran
  | withdrawPayments => exact withdrawPayments_effect ran
  | init _ _ _ | setSlasher _ | setSlashRecipient _ | transferOwnership _ =>
    simp only [dispatch, init, setSlasher, setSlashRecipient, transferOwnership, map_ok, bind_ok, pure_ok] at ran
    obtain ⟨_, ⟨-, -, -, -, rfl⟩, rfl⟩ := ran
    exact .tune rfl rfl rfl rfl (fun _ => rfl) (by simp)
  | setInsuranceFund _ | setBurnSink _ =>
    simp only [dispatch, setInsuranceFund, setBurnSink, map_ok, bind_ok, pure_ok] at ran
    obtain ⟨_, ⟨-, -, rfl⟩, rfl⟩ := ran
    exact .tune rfl rfl rfl rfl (fun _ => rfl) (by simp)
  | receive => cases ran

end Functions

theorem Sound.same (sound : Sound s now history) (validators : s'.validators = s.validators)
    (ids : s'.activeNodeIds = s.activeNodeIds) (index : s'.activeIndex = s.activeIndex) : Sound s' now history := by
  obtain ⟨active, ⟨past, left, counted, recorded⟩⟩ := sound
  refine ⟨active.same validators ids index, ⟨past, ?_, ?_, recorded⟩⟩
  · rwa [validators]
  · rwa [validators]

theorem registry_solvent (keccak : Bytes → β) : Solvent (contract keccak) setting Sound owed reserve due where
  call := by
    intro w msg call step below covered callable paid ran
    obtain ⟨sound, funds, -⟩ := covered
    have sender : msg.sender ≠ 0 := callable.2
    obtain ⟨change, within, reserved⟩ := dispatch_effect sound.1 sender ran
    exact ⟨change.sound sound, by omega, reserved⟩
  resume := by
    intro w pending ok step below covered ran
    obtain ⟨sound, funds, -⟩ := covered
    obtain ⟨s', ⟨rfl, within, reserved⟩, credited, validators, ids, index⟩ := resume_spends ran
    refine ⟨sound.same validators ids index, ?_, reserved⟩
    cases ok with
    | true =>
      simp only [if_true] at funds credited
      omega
    | false =>
      have set : owed w.state + (reserve pending + due pending) + below ≤ w.balance := funds
      simp only [Bool.false_eq_true, if_false] at credited
      omega
  passes := by
    intro s now next history sound later
    obtain ⟨active, clocked⟩ := sound
    rcases later with later | never
    · exact ⟨active, fun entry member => le_trans (clocked.past entry member) (UInt64.le_iff_toNat_le.mp later),
        clocked.left, clocked.counted, clocked.recorded⟩
    · cases never

/-- The registry holds stakes and credits, its active list and index are inverse, active validators are staked,
    and the stake of a registration is withdrawn once, after the lockup. -/
theorem registry_safe {keccak : Bytes → β} {balance : Nat} {self : Address} {start : UInt64}
    {m : Machine (World (Storage β) (Call β) UInt64) Pending}
    (reached : Reachable (contract keccak) setting (.fresh deployed balance self start) m) :
    m.state.state.validators.total Validator.stake + m.state.state.pendingWithdrawals.total id ≤ m.state.balance ∧
      (∀ i nodeId, m.state.state.activeNodeIds[i]? = some nodeId ↔ m.state.state.activeIndex.read nodeId = i + 1) ∧
      m.state.state.activeNodeIds.Nodup ∧ m.state.state.activeNodeIds.length ≤ 21 ∧
      (∀ nodeId, nodeId ∈ m.state.state.activeNodeIds ↔ (m.state.state.validators.read nodeId).active = true) ∧
      (∀ nodeId ∈ m.state.state.activeNodeIds, minStake ≤ (m.state.state.validators.read nodeId).stake) ∧
      Recorded PaidOut m.state.history := by
  obtain ⟨⟨active, clocked⟩, funds⟩ := (registry_solvent keccak).reaches (deployed_sound start) (Nat.zero_le _) reached
  refine ⟨Nat.le_trans (Nat.le_add_right _ _) funds, active.inverse, active.inverse.nodup, active.bounded,
    active.member, fun nodeId member => ?_, clocked.recorded⟩
  exact active.staked nodeId ((active.member nodeId).mp member)

def samplePubkey (first : UInt8) : Bytes := 4 :: first :: List.replicate 63 0

def slashRun : List (Event (Msg × Call Nat) (Outside UInt64)) :=
  [.call (⟨1, 0⟩, .init 1 2 3),
    .call (⟨1, 0⟩, .setInsuranceFund 5),
    .call (⟨7, minStake⟩, .stake 9 (samplePubkey 9)),
    .call (⟨8, minStake⟩, .stake 10 (samplePubkey 10)),
    .call (⟨2, 0⟩, .slashValidator 10 0),
    .call (⟨7, 0⟩, .requestUnstake 9),
    .answer true,
    .answer false,
    .answer true,
    .outside (.tick 1209600),
    .call (⟨7, 0⟩, .withdrawStake 9)]

def slashMachine : Machine (World (Storage Nat) (Call Nat) UInt64) Pending :=
  slashRun.foldl (Machine.step (contract fun bytes => (bytes.headD 0).toNat).component) ⟨.fresh deployed 0 100 0, []⟩

theorem slashMachine_safe :
    (slashMachine.frames.length = 1 ∧ withdrawals 9 slashMachine.state.history = 1 ∧
      slashMachine.state.state.pendingWithdrawals.read 3 = 96 * 10 ^ 16) ∧
      slashMachine.state.state.validators.total Validator.stake +
        slashMachine.state.state.pendingWithdrawals.total id ≤ slashMachine.state.balance ∧
      Recorded PaidOut slashMachine.state.history := by
  have safe := registry_safe (Reaches.run .start (by decide +kernel : Admitted
    (Machine.Admits setting.callable setting.possible)
    (Machine.step (contract fun bytes => (bytes.headD 0).toNat).component) ⟨.fresh deployed 0 100 0, []⟩ slashRun))
  exact ⟨by decide +kernel, safe.1, safe.2.2.2.2.2.2⟩

end Palimesh.Contracts.ValidatorRegistry
