import Palimesh.Contracts.PoSeManagerV1

namespace Palimesh.Contracts.PoSeManagerV1

open Collections Protocol Protocol.Custody Protocol.Guarded Protocol.Reentrancy List InsertionMap Storage
open Settlement (Bytes Crypto NodeRecord Registration)

variable {β : Type} [DecidableEq β] [Inhabited β]

abbrev Record (β : Type) := Entry (Storage β) (Call β) UInt64

section Accounts

variable (nodeId : β) (entry : Record β)

def posted : Nat :=
  match entry.call with
  | .registerNode r => if r.nodeId = nodeId then entry.msg.value else 0
  | _ => 0

def slashedFrom : Nat :=
  match entry.call with
  | .slash other evidence =>
    if other = nodeId then slashAmountOf (entry.state.nodes.read nodeId).bondAmount evidence.reasonCode else 0
  | _ => 0

def withdrawnFrom : Nat :=
  match entry.call with
  | .withdraw other => if other = nodeId then (entry.state.nodes.read nodeId).bondAmount else 0
  | _ => 0

def slashed : Nat :=
  match entry.call with
  | .slash nodeId evidence => slashAmountOf (entry.state.nodes.read nodeId).bondAmount evidence.reasonCode
  | _ => 0

def sumOf (amount : Record β → Nat) (history : List (Record β)) : Nat := (history.map amount).sum

omit [DecidableEq β] [Inhabited β] in
@[simp] theorem sumOf_cons (amount : Record β → Nat) (entry : Record β) (history : List (Record β)) :
    sumOf amount (entry :: history) = amount entry + sumOf amount history := by
  rw [sumOf, map_cons, sum_cons, sumOf]

variable (nodeId : β)

def Call.registers : Call β → Bool
  | .registerNode r => decide (r.nodeId = nodeId)
  | _ => false

def Call.touches : Call β → Bool
  | .registerNode r => decide (r.nodeId = nodeId)
  | .requestUnbond other => decide (other = nodeId)
  | _ => false

def Call.concerns : Call β → Bool
  | .registerNode r => decide (r.nodeId = nodeId)
  | .requestUnbond other | .withdraw other | .slash other _ => decide (other = nodeId)
  | _ => false

def registration (history : List (Record β)) : Option (Record β) :=
  history.find? fun entry => entry.call.registers nodeId

def lastTouch (history : List (Record β)) : Option (Record β) :=
  history.find? fun entry => entry.call.touches nodeId

variable {nodeId} {entry : Record β} (history : List (Record β))

omit [Inhabited β] in
theorem registration_skip (other : entry.call.registers nodeId = false) :
    registration nodeId (entry :: history) = registration nodeId history := find?_cons_of_neg (by simp [other])

omit [Inhabited β] in
theorem lastTouch_skip (other : entry.call.touches nodeId = false) :
    lastTouch nodeId (entry :: history) = lastTouch nodeId history := find?_cons_of_neg (by simp [other])

end Accounts

/-- A withdrawal finds the node inactive, its latest request at least the delay ago and no registration since; it
    pays the account that posted the bond. -/
def PaidOut (entry : Record β) (earlier : List (Record β)) : Prop :=
  ∀ nodeId, entry.call = .withdraw nodeId →
    (entry.state.nodes.read nodeId).active = false ∧
      (∃ request, lastTouch nodeId earlier = some request ∧ request.call = .requestUnbond nodeId ∧
        currentEpoch request.env + unbondDelayEpochs ≤ currentEpoch entry.env) ∧
      ∃ posting, registration nodeId earlier = some posting ∧ posting.msg.sender = entry.msg.sender

variable (s : Storage β)

def activeNodes (operator : Address) : Nat :=
  s.nodes.weigh fun nodeId =>
    if (s.nodes.read nodeId).active = true ∧ s.nodeOperator.read nodeId = operator then 1 else 0

structure Life (home : Address) (now : UInt64) (history : List (Record β)) (nodeId : β) : Prop where
  serving : (s.nodes.read nodeId).active = true →
    s.unbondRequested.read nodeId = false ∧ (s.nodes.read nodeId).bondAmount ≠ 0
  leaving : (s.nodes.read nodeId).bondAmount ≠ 0 → (s.nodes.read nodeId).active = false →
    s.unbondRequested.read nodeId = true
  request : s.unbondRequested.read nodeId = true → ∃ request, lastTouch nodeId history = some request ∧
    request.call = .requestUnbond nodeId ∧
    (s.nodes.read nodeId).unlockEpoch = currentEpoch request.env + unbondDelayEpochs ∧
    currentEpoch request.env ≤ currentEpoch now
  operated : (s.nodes.read nodeId).bondAmount ≠ 0 →
    s.nodeOperator.read nodeId ≠ 0 ∧ s.nodeOperator.read nodeId ≠ home
  ledger : sumOf (posted nodeId) history =
    (s.nodes.read nodeId).bondAmount + sumOf (slashedFrom nodeId) history + sumOf (withdrawnFrom nodeId) history
  poster : (s.nodes.read nodeId).bondAmount ≠ 0 →
    ∃ entry, registration nodeId history = some entry ∧ entry.msg.sender = s.nodeOperator.read nodeId

def pots : Nat :=
  s.nodes.total NodeRecord.bondAmount + s.rewardPoolBalance + s.pendingRewards.total id

structure Good (balance : Nat) (home : Address) (now : UInt64) (history : List (Record β)) : Prop where
  balanced : balance = pots s + sumOf slashed history
  lives : ∀ nodeId, Life s home now history nodeId
  counted : ∀ operator, s.operatorNodeCount.read operator = activeNodes s operator
  recorded : Recorded PaidOut history

/-- The calls on which bonds are kept track of: a node id is registered again when nothing of it is outstanding,
    and no active node is slashed to nothing. -/
def Orderly : Call β → Prop
  | .registerNode r => (s.nodes.read r.nodeId).bondAmount = 0 ∧ s.unbondRequested.read r.nodeId = false
  | .slash nodeId _ => (s.nodes.read nodeId).active = true → (s.nodes.read nodeId).bondAmount ≠ 1
  | _ => True

def orderly : Setting (Storage β) (Call β) UInt64 :=
  { (setting : Setting (Storage β) (Call β) UInt64) with
    callable := fun w message => setting.callable w message ∧ Orderly w.state message.2 }

instance (call : Call β) : Decidable (Orderly s call) := by
  unfold Orderly
  split <;> infer_instance

instance : (orderly : Setting (Storage β) (Call β) UInt64).Decides where
  callable := fun w message => inferInstanceAs (Decidable ((_ ∧ _) ∧ Orderly w.state message.2))
  later := fun now next => inferInstanceAs (Decidable (now ≤ next))
  shifted := fun _ _ => .isFalse id
  forced := .isFalse id

variable {s s' : Storage β} {home : Address} {now : UInt64} {call : Call β} {msg : Msg} {balance : Nat}
  {history : List (Record β)} {nodeId : β}

def Kept (balance : Nat) (home : Address) (now : UInt64) (history : List (Record β)) : Step (Storage β) Pending → Prop
  | .done s => Good s balance home now history
  | .pay s payee amount _ => payee ≠ home ∧ amount ≤ balance ∧ Good s (balance - amount) home now history
  | .call _ _ => False

section Lives

theorem Life.frame (life : Life s home now history nodeId) (elsewhere : call.concerns nodeId = false)
    (bond : (s'.nodes.read nodeId).bondAmount = (s.nodes.read nodeId).bondAmount)
    (active : (s'.nodes.read nodeId).active = (s.nodes.read nodeId).active)
    (unlock : (s'.nodes.read nodeId).unlockEpoch = (s.nodes.read nodeId).unlockEpoch)
    (operator : s'.nodeOperator.read nodeId = s.nodeOperator.read nodeId)
    (requested : s'.unbondRequested.read nodeId = s.unbondRequested.read nodeId) :
    Life s' home now (⟨s, balance, now, msg, call⟩ :: history) nodeId := by
  have quiet : call.touches nodeId = false ∧ call.registers nodeId = false ∧
      posted nodeId ⟨s, balance, now, msg, call⟩ = 0 ∧ slashedFrom nodeId ⟨s, balance, now, msg, call⟩ = 0 ∧
      withdrawnFrom nodeId ⟨s, balance, now, msg, call⟩ = 0 := by
    cases call <;> simp_all [Call.concerns, Call.touches, Call.registers, posted, slashedFrom, withdrawnFrom]
  obtain ⟨untouched, unregistered, nothing, uncut, unpaid⟩ := quiet
  refine ⟨?_, ?_, ?_, ?_, ?_, ?_⟩
  · rw [active, requested, bond]
    exact life.serving
  · rw [active, requested, bond]
    exact life.leaving
  · rw [lastTouch_skip history untouched, requested, unlock]
    exact life.request
  · rw [bond, operator]
    exact life.operated
  · rw [sumOf_cons, sumOf_cons, sumOf_cons, nothing, uncut, unpaid, bond]
    have ledger := life.ledger
    omega
  · rw [bond, registration_skip history unregistered, operator]
    exact life.poster

theorem Life.later (life : Life s home now history nodeId) {next : UInt64} (later : now ≤ next) :
    Life s home next history nodeId := by
  refine { life with request := fun requested => ?_ }
  obtain ⟨request, found, call, unlock, past⟩ := life.request requested
  exact ⟨request, found, call, unlock,
    le_trans past (Nat.div_le_div_right (UInt64.le_iff_toNat_le.mp later))⟩

end Lives

section Slashes

theorem slashBps_le (reasonCode : Nat) : slashBps reasonCode ≤ 3000 := by
  unfold slashBps
  repeat' split
  all_goals omega

theorem slashAmountOf_lt {bondAmount : Nat} (reasonCode : Nat) (several : 1 < bondAmount) :
    slashAmountOf bondAmount reasonCode < bondAmount := by
  have share : bondAmount * slashBps reasonCode / bpsDenominator < bondAmount := by
    apply Nat.div_lt_of_lt_mul
    have bound := Nat.mul_le_mul_left bondAmount (slashBps_le reasonCode)
    unfold bpsDenominator
    omega
  unfold slashAmountOf
  generalize bondAmount * slashBps reasonCode / bpsDenominator = amount at share ⊢
  have raised : (if amount = 0 ∧ 0 < bondAmount then 1 else amount) < bondAmount := by split <;> omega
  rw [if_neg (Nat.not_lt_of_lt raised)]
  exact raised

end Slashes

variable {record : NodeRecord β}

section Counts

theorem activeNodes_set (s s' : Storage β) {nodeId : β} (operator : Address)
    (nodes : s'.nodes = s.nodes.set nodeId record)
    (operators : ∀ other, other ≠ nodeId → s'.nodeOperator.read other = s.nodeOperator.read other) :
    activeNodes s' operator +
        (if (s.nodes.read nodeId).active = true ∧ s.nodeOperator.read nodeId = operator then 1 else 0) =
      activeNodes s operator +
        (if record.active = true ∧ s'.nodeOperator.read nodeId = operator then 1 else 0) := by
  have exchanged := s.nodes.weigh_set
    (fun other => if (s.nodes.read other).active = true ∧ s.nodeOperator.read other = operator then 1 else 0)
    (fun other => if (s'.nodes.read other).active = true ∧ s'.nodeOperator.read other = operator then 1 else 0)
    nodeId record ?_ ?_
  · rw [nodes, read_set_self, ← nodes] at exchanged
    exact exchanged
  · intro other away
    rw [nodes, read_set_other _ _ away, operators other away]
  · intro absent
    have inactive : (s.nodes.read nodeId).active = false := by
      rw [InsertionMap.read, absent]
      rfl
    simp [inactive]

end Counts

variable {left : Nat}

section Asides

variable {received : Nat}

omit [DecidableEq β] in
theorem bondAmount_default : (default : NodeRecord β).bondAmount = 0 := rfl

omit [DecidableEq β] in
theorem inactive_default : (default : NodeRecord β).active = false := rfl

theorem credit_default : id (default : Nat) = 0 := rfl

variable {state result : InsertionMap β Nat × Nat}

theorem distributeOne_sum {maxPerNode : Nat} {reward : EpochReward β}
    (ran : s.distributeOne maxPerNode state reward = .ok result) :
    result.1.total id + state.2 = state.1.total id + result.2 := by
  unfold distributeOne at ran
  split at ran
  · cases ran
    rfl
  · simp only [bind_ok] at ran
    obtain ⟨sum, -, ran⟩ := ran
    generalize (if s.rewardPoolBalance < sum then _ else _ : Nat) = amt at ran
    split at ran
    · obtain rfl := pure_ok.mp ran
      rfl
    · simp only [bind_ok, pure_ok, checkedAdd_ok] at ran
      obtain ⟨_, ⟨-, rfl⟩, rfl⟩ := ran
      have exchanged := state.1.total_set credit_default reward.nodeId (state.1.read reward.nodeId + amt)
      simp only [id_eq] at exchanged ⊢
      omega

variable {rewards : List (EpochReward β)}

theorem distribute_sum {maxPerNode : Nat}
    (ran : rewards.foldlM (s.distributeOne maxPerNode) state = .ok result) :
    result.1.total id + state.2 = state.1.total id + result.2 := by
  induction rewards generalizing state with
  | nil =>
    obtain rfl := pure_ok.mp ran
    rfl
  | cons reward rewards ih =>
    obtain ⟨next, first, rest⟩ := bind_ok.mp ran
    have one := distributeOne_sum first
    have others := ih rest
    omega

variable (good : Good s balance home now history)
include good

theorem Good.aside (elsewhere : ∀ nodeId, call.concerns nodeId = false)
    (bonds : ∀ nodeId, (s'.nodes.read nodeId).bondAmount = (s.nodes.read nodeId).bondAmount ∧
      (s'.nodes.read nodeId).active = (s.nodes.read nodeId).active ∧
      (s'.nodes.read nodeId).unlockEpoch = (s.nodes.read nodeId).unlockEpoch)
    (operators : s'.nodeOperator = s.nodeOperator) (requested : s'.unbondRequested = s.unbondRequested)
    (counts : s'.operatorNodeCount = s.operatorNodeCount)
    (active : ∀ operator, activeNodes s' operator = activeNodes s operator)
    (money : left = pots s' + sumOf slashed history) :
    Good s' left home now (⟨s, received, now, msg, call⟩ :: history) where
  balanced := by
    have uncut : slashed ⟨s, received, now, msg, call⟩ = 0 := by
      cases call with
      | slash nodeId evidence => simpa [Call.concerns] using elsewhere nodeId
      | _ => rfl
    rw [sumOf_cons, uncut, zero_add]
    exact money
  lives := by
    intro nodeId
    obtain ⟨bond, flag, unlock⟩ := bonds nodeId
    exact (good.lives nodeId).frame (elsewhere nodeId) bond flag unlock (by rw [operators]) (by rw [requested])
  counted := by
    intro operator
    rw [counts, active]
    exact good.counted operator
  recorded := by
    refine .cons (fun nodeId same => ?_) good.recorded
    subst same
    simpa [Call.concerns] using elsewhere nodeId

theorem Good.untouched (elsewhere : ∀ nodeId, call.concerns nodeId = false) (nodes : s'.nodes = s.nodes)
    (operators : s'.nodeOperator = s.nodeOperator) (requested : s'.unbondRequested = s.unbondRequested)
    (counts : s'.operatorNodeCount = s.operatorNodeCount) (money : left = pots s' + sumOf slashed history) :
    Good s' left home now (⟨s, received, now, msg, call⟩ :: history) := by
  refine good.aside elsewhere (fun nodeId => ?_) operators requested counts (fun operator => ?_) money
  · rw [nodes]
    exact ⟨rfl, rfl, rfl⟩
  · rw [activeNodes, nodes, operators, activeNodes]

theorem updateCommitment_good {newCommitment : β} (ran : s.updateCommitment msg nodeId newCommitment = .ok s') :
    Good s' balance home now (⟨s, received, now, msg, .updateCommitment nodeId newCommitment⟩ :: history) := by
  simp only [updateCommitment, bind_ok, pure_ok] at ran
  obtain ⟨-, -, -, -, rfl⟩ := ran
  refine good.aside (fun _ => rfl) (fun other => ?_) rfl rfl rfl (fun operator => ?_) ?_
  · rw [read_set]
    split
    · rename_i here
      rw [here]
      exact ⟨rfl, rfl, rfl⟩
    · exact ⟨rfl, rfl, rfl⟩
  · have exchanged := activeNodes_set s
      { s with nodes := s.nodes.set nodeId { s.nodes.read nodeId with serviceCommitment := newCommitment } } operator rfl
      fun _ _ => rfl
    exact Nat.add_right_cancel exchanged
  · have bound := s.nodes.le_total bondAmount_default nodeId
    have balanced := good.balanced
    simp only [pots, total_set_eq _ bondAmount_default] at balanced ⊢
    omega

theorem distributeRewards_good {epochId : Nat}
    (ran : s.distributeRewards msg epochId rewards = .ok s') :
    Good s' balance home now (⟨s, received, now, msg, .distributeRewards epochId rewards⟩ :: history) := by
  simp only [distributeRewards, bind_ok, pure_ok, checkedSub_ok] at ran
  obtain ⟨-, -, -, -, -, -, _, -, ⟨pending, distributed⟩, loop, _, ⟨enough, rfl⟩, rfl⟩ := ran
  have sum := distribute_sum loop
  have balanced := good.balanced
  refine good.untouched (fun _ => rfl) rfl rfl rfl rfl ?_
  simp only [pots] at balanced sum enough ⊢
  omega

end Asides

variable {step : Step (Storage β) Pending}

section Bonds

theorem Good.about (nodeId : β) (good : Good s balance home now history)
    (subject : ∀ other, call.concerns other = decide (nodeId = other)) (nodes : s'.nodes = s.nodes.set nodeId record)
    (operators : ∀ other, other ≠ nodeId → s'.nodeOperator.read other = s.nodeOperator.read other)
    (requested : ∀ other, other ≠ nodeId → s'.unbondRequested.read other = s.unbondRequested.read other)
    (life : Life s' home now (⟨s, received, now, msg, call⟩ :: history) nodeId)
    (counted : ∀ operator, s'.operatorNodeCount.read operator +
        (if (s.nodes.read nodeId).active = true ∧ s.nodeOperator.read nodeId = operator then 1 else 0) =
      s.operatorNodeCount.read operator +
        (if record.active = true ∧ s'.nodeOperator.read nodeId = operator then 1 else 0))
    (pool : s'.rewardPoolBalance = s.rewardPoolBalance) (pending : s'.pendingRewards = s.pendingRewards)
    (money : left + (s.nodes.read nodeId).bondAmount =
      balance + record.bondAmount + slashed ⟨s, received, now, msg, call⟩)
    (paid : PaidOut ⟨s, received, now, msg, call⟩ history) :
    Good s' left home now (⟨s, received, now, msg, call⟩ :: history) where
  balanced := by
    have balanced := good.balanced
    have exchanged := s.nodes.total_set bondAmount_default nodeId record
    rw [sumOf_cons, pots, nodes, pool, pending]
    rw [pots] at balanced
    omega
  lives := by
    intro other
    by_cases here : other = nodeId
    · rw [here]
      exact life
    · have same : s'.nodes.read other = s.nodes.read other := by
        rw [nodes, read_set_other _ _ here]
      have away : call.concerns other = false := (subject other).trans (decide_eq_false (Ne.symm here))
      exact (good.lives other).frame away (by rw [same]) (by rw [same]) (by rw [same])
        (operators other here) (requested other here)
  counted := by
    intro operator
    have exchanged := activeNodes_set s s' operator nodes operators
    have before := good.counted operator
    have after := counted operator
    omega
  recorded := .cons paid good.recorded

theorem Good.covered (good : Good s balance home now history) (nodeId : β) : (s.nodes.read nodeId).bondAmount ≤ balance := by
  have bound := s.nodes.le_total bondAmount_default nodeId
  rw [good.balanced, pots]
  omega

theorem checkRegistration_ok {C : Crypto β} {r : Registration β} (ran : s.checkRegistration C msg r = .ok ()) :
    msg.value ≠ 0 ∧ (s.nodes.read r.nodeId).active = false := by
  simp only [checkRegistration, bind_ok, revertIf_ok] at ran
  obtain ⟨-, enough, -, few, -, -, -, inactive, -⟩ := ran
  refine ⟨?_, Bool.not_eq_true _ ▸ inactive⟩
  have required : ∀ count, count < maxNodesPerOperator → 0 < requiredBond count := by decide
  have positive := required _ (Nat.lt_of_not_le few)
  omega

variable (good : Good s balance home now history)
include good

theorem registerNode_good {C : Crypto β} {r : Registration β} (sender : msg.sender ≠ 0 ∧ msg.sender ≠ home)
    (orderly : Orderly s (.registerNode r)) (ran : s.registerNode C now msg r = .ok s') :
    Good s' (balance + msg.value) home now (⟨s, received, now, msg, .registerNode r⟩ :: history) := by
  simp only [registerNode, bind_ok, pure_ok, checkedAdd_ok] at ran
  obtain ⟨_, accepted, _, -, _, ⟨-, rfl⟩, rfl⟩ := ran
  obtain ⟨positive, inactive⟩ := checkRegistration_ok accepted
  obtain ⟨empty, unasked⟩ := orderly
  have old := good.lives r.nodeId
  refine good.about r.nodeId (fun _ => rfl) rfl ?_ (fun _ _ => rfl) ?_ ?_ rfl rfl ?_ (by simp [PaidOut])
  · intro other away
    exact read_set_other _ _ away
  · refine ⟨?_, ?_, ?_, ?_, ?_, ?_⟩
    · intro _
      rw [read_set_self]
      exact ⟨unasked, positive⟩
    · intro _ stopped
      rw [read_set_self] at stopped
      cases stopped
    · intro asked
      rw [unasked] at asked
      cases asked
    · intro _
      rw [read_set_self]
      exact sender
    · have ledger := old.ledger
      simp only [sumOf_cons, posted, slashedFrom, withdrawnFrom, if_true, read_set_self]
      omega
    · intro _
      refine ⟨_, find?_cons_of_pos ?_, ?_⟩
      · simp [Call.registers]
      · rw [read_set_self]
  · intro operator
    simp only [inactive, Bool.false_eq_true, false_and, if_false, true_and, read_set_self,
      read_set]
    by_cases own : operator = msg.sender
    · simp [own]
    · simp [own, Ne.symm own]
  · rw [empty]
    rfl

theorem slash_good {C : Crypto β} {word : Bytes → β} {evidence : SlashEvidence β}
    (orderly : Orderly s (.slash nodeId evidence)) (ran : s.slash C word msg nodeId evidence = .ok s') :
    Good s' balance home now (⟨s, received, now, msg, .slash nodeId evidence⟩ :: history) := by
  simp only [slash, bind_ok, revertIf_ok, pure_ok, checkedSub_ok] at ran
  obtain ⟨-, -, -, -, -, bonded, -, -, -, -, -, -, -, -, -, -, -, -, -, -, _, ⟨within, rfl⟩, rfl⟩ := ran
  have old := good.lives nodeId
  have remains : (s.nodes.read nodeId).active = true →
      (s.nodes.read nodeId).bondAmount - slashAmountOf (s.nodes.read nodeId).bondAmount evidence.reasonCode ≠ 0 := by
    intro active
    have several := orderly active
    have part := slashAmountOf_lt evidence.reasonCode (show 1 < (s.nodes.read nodeId).bondAmount by omega)
    omega
  have flag : ((s.nodes.read nodeId).active &&
      decide ((s.nodes.read nodeId).bondAmount - slashAmountOf (s.nodes.read nodeId).bondAmount evidence.reasonCode ≠ 0)) =
      (s.nodes.read nodeId).active := by
    cases active : (s.nodes.read nodeId).active with
    | true => simp [remains active]
    | false => rfl
  rw [flag]
  refine good.about nodeId (fun _ => rfl) rfl (fun _ _ => rfl) (fun _ _ => rfl) ?_ (fun _ => rfl) rfl rfl ?_ (by simp [PaidOut])
  · refine ⟨?_, ?_, ?_, ?_, ?_, ?_⟩
    · intro active
      rw [read_set_self] at active ⊢
      exact ⟨(old.serving active).1, remains active⟩
    · intro _ stopped
      rw [read_set_self] at stopped
      exact old.leaving bonded stopped
    · rw [lastTouch_skip history rfl, read_set_self]
      exact old.request
    · intro _
      exact old.operated bonded
    · have ledger := old.ledger
      simp only [sumOf_cons, posted, slashedFrom, withdrawnFrom, if_true, read_set_self]
      omega
    · intro _
      exact old.poster bonded
  · simp only [slashed]
    omega

theorem requestUnbond_good (ran : s.requestUnbond now msg nodeId = .ok s') :
    Good s' balance home now (⟨s, received, now, msg, .requestUnbond nodeId⟩ :: history) := by
  simp only [requestUnbond, bind_ok, revertIf_ok, pure_ok, checkedAdd_ok] at ran
  obtain ⟨-, flag, -, own, -, -, _, ⟨-, rfl⟩, rfl⟩ := ran
  have active : (s.nodes.read nodeId).active = true := Bool.not_eq_false _ ▸ flag
  have operator : s.nodeOperator.read nodeId = msg.sender := Decidable.not_not.mp own
  have old := good.lives nodeId
  have bonded := (old.serving active).2
  refine good.about nodeId (fun _ => rfl) rfl (fun _ _ => rfl) ?_ ?_ ?_ rfl rfl rfl (by simp [PaidOut])
  · intro other away
    exact read_set_other _ _ away
  · refine ⟨?_, ?_, ?_, ?_, ?_, ?_⟩
    · intro serving
      rw [read_set_self] at serving
      cases serving
    · intro _ _
      exact read_set_self ..
    · intro _
      refine ⟨_, find?_cons_of_pos ?_, rfl, ?_, le_rfl⟩
      · simp [Call.touches]
      · rw [read_set_self]
    · intro _
      exact old.operated bonded
    · have ledger := old.ledger
      simp only [sumOf_cons, posted, slashedFrom, withdrawnFrom, read_set_self]
      omega
    · intro _
      exact old.poster bonded
  · intro other
    have counted := good.counted msg.sender
    have exchanged := activeNodes_set s { s with nodes := s.nodes.set nodeId default } msg.sender rfl fun _ _ => rfl
    rw [if_pos ⟨active, operator⟩, if_neg (by simp [inactive_default])] at exchanged
    simp only [active, operator, true_and, Bool.false_eq_true, false_and, if_false, read_set]
    by_cases mine : other = msg.sender
    · simp only [mine, if_true]
      omega
    · simp [mine, Ne.symm mine]

theorem withdraw_good (sender : msg.sender ≠ home)
    (ran : s.withdraw now msg nodeId = .ok step) :
    Kept balance home now (⟨s, received, now, msg, .withdraw nodeId⟩ :: history) step := by
  simp only [withdraw, bind_ok, revertIf_ok, pure_ok] at ran
  obtain ⟨-, own, -, asked, -, ready, -, bonded, rfl⟩ := ran
  have operator : s.nodeOperator.read nodeId = msg.sender := Decidable.not_not.mp own
  have requested : s.unbondRequested.read nodeId = true := Bool.not_eq_false _ ▸ asked
  have old := good.lives nodeId
  have inactive : (s.nodes.read nodeId).active = false := by
    cases active : (s.nodes.read nodeId).active with
    | true => exact absurd (old.serving active).1 asked
    | false => rfl
  have covered := good.covered nodeId
  refine ⟨sender, covered, good.about nodeId (fun _ => rfl) rfl (fun _ _ => rfl) ?_ ?_ (fun _ => rfl) rfl rfl ?_ ?_⟩
  · intro other away
    exact read_set_other _ _ away
  · refine ⟨?_, ?_, ?_, ?_, ?_, ?_⟩
    · intro active
      exact absurd active (by simp [inactive])
    · intro left
      rw [read_set_self] at left
      exact absurd rfl left
    · intro asked
      rw [read_set_self] at asked
      cases asked
    · intro left
      rw [read_set_self] at left
      exact absurd rfl left
    · have ledger := old.ledger
      simp only [sumOf_cons, posted, slashedFrom, withdrawnFrom, if_true, read_set_self]
      omega
    · intro left
      rw [read_set_self] at left
      exact absurd rfl left
  · exact Nat.sub_add_cancel covered
  · intro other same
    cases same
    obtain ⟨request, found, call, unlock, -⟩ := old.request requested
    obtain ⟨posting, registered, poster⟩ := old.poster bonded
    refine ⟨inactive, ⟨request, found, call, ?_⟩, posting, registered, poster.trans operator⟩
    rw [← unlock]
    exact Nat.le_of_not_lt ready

end Bonds

section Runs

variable {C : Crypto β} {word : Bytes → β}

theorem claimReward_good (good : Good s balance home now history)
    (sender : msg.sender ≠ home) (ran : s.claimReward msg nodeId = .ok step) :
    Kept balance home now (⟨s, received, now, msg, .claimReward nodeId⟩ :: history) step := by
  simp only [claimReward, bind_ok, pure_ok] at ran
  obtain ⟨-, -, -, -, rfl⟩ := ran
  have balanced := good.balanced
  have bound := s.pendingRewards.le_total credit_default nodeId
  simp only [id_eq] at bound
  have covered : s.pendingRewards.read nodeId ≤ balance := by
    rw [balanced, pots]
    omega
  refine ⟨sender, covered, good.untouched (fun _ => rfl) rfl rfl rfl rfl ?_⟩
  simp only [pots, total_set_eq _ credit_default, id_eq] at balanced ⊢
  omega

theorem dispatch_good (good : Good s balance home now history)
    (sender : msg.sender ≠ home ∧ msg.sender ≠ 0) (orderly : Orderly s call)
    (paid : ¬ (call.payable = false ∧ msg.value ≠ 0)) (ran : s.dispatch C word now msg call = .ok step) :
    Kept (balance + msg.value) home now (⟨s, balance + msg.value, now, msg, call⟩ :: history) step := by
  have free : call.payable = false → balance + msg.value = balance := by
    intro free
    have none : msg.value = 0 := Decidable.not_not.mp fun some => paid ⟨free, some⟩
    rw [none, add_zero]
  have money : balance = pots s + sumOf slashed history := good.balanced
  cases call with
  | init _ | transferOwnership _ =>
    obtain ⟨s', finished, rfl⟩ := map_ok.mp ran
    simp only [init, transferOwnership, bind_ok, pure_ok] at finished
    obtain ⟨-, -, -, -, rfl⟩ := finished
    exact good.untouched (fun _ => rfl) rfl rfl rfl rfl ((free rfl).trans money)
  | setSlasher account enabled =>
    obtain ⟨s', finished, rfl⟩ := map_ok.mp ran
    simp only [setSlasher, bind_ok, pure_ok] at finished
    obtain ⟨-, -, rfl⟩ := finished
    exact good.untouched (fun _ => rfl) rfl rfl rfl rfl ((free rfl).trans money)
  | registerNode r =>
    obtain ⟨s', finished, rfl⟩ := map_ok.mp ran
    exact registerNode_good good ⟨sender.2, sender.1⟩ orderly finished
  | updateCommitment nodeId newCommitment =>
    obtain ⟨s', finished, rfl⟩ := map_ok.mp ran
    rw [free rfl]
    exact updateCommitment_good good finished
  | submitBatch epochId merkleRoot summaryHash sampleProofs =>
    obtain ⟨s', finished, rfl⟩ := map_ok.mp ran
    simp only [submitBatch, bind_ok, pure_ok] at finished
    obtain ⟨-, -, -, -, -, -, -, -, -, -, -, -, _, -, -, -, _, -, rfl⟩ := finished
    exact good.untouched (fun _ => rfl) rfl rfl rfl rfl ((free rfl).trans money)
  | challengeBatch batchId receiptLeaf merkleProof invalidityEvidence =>
    obtain ⟨s', finished, rfl⟩ := map_ok.mp ran
    simp only [challengeBatch, bind_ok, pure_ok] at finished
    obtain ⟨-, -, -, -, -, -, -, -, -, -, -, -, -, -, -, -, -, -, -, -, rfl⟩ := finished
    exact good.untouched (fun _ => rfl) rfl rfl rfl rfl ((free rfl).trans money)
  | finalizeEpoch epochId =>
    obtain ⟨s', finished, rfl⟩ := map_ok.mp ran
    simp only [finalizeEpoch, bind_ok, pure_ok] at finished
    obtain ⟨-, -, _, -, -, -, _, -, -, -, rfl⟩ := finished
    exact good.untouched (fun _ => rfl) rfl rfl rfl rfl ((free rfl).trans money)
  | slash nodeId evidence =>
    obtain ⟨s', finished, rfl⟩ := map_ok.mp ran
    rw [free rfl]
    exact slash_good good orderly finished
  | requestUnbond nodeId =>
    obtain ⟨s', finished, rfl⟩ := map_ok.mp ran
    rw [free rfl]
    exact requestUnbond_good good finished
  | withdraw nodeId =>
    rw [free rfl]
    exact withdraw_good good sender.1 ran
  | depositRewardPool =>
    obtain ⟨s', finished, rfl⟩ := map_ok.mp ran
    simp only [depositRewardPool, bind_ok, pure_ok, checkedAdd_ok] at finished
    obtain ⟨-, -, _, ⟨-, rfl⟩, rfl⟩ := finished
    have balanced := good.balanced
    refine good.untouched (fun _ => rfl) rfl rfl rfl rfl ?_
    simp only [pots] at balanced ⊢
    omega
  | distributeRewards epochId rewards =>
    obtain ⟨s', finished, rfl⟩ := map_ok.mp ran
    rw [free rfl]
    exact distributeRewards_good good finished
  | claimReward nodeId =>
    rw [free rfl]
    exact claimReward_good good sender.1 ran

def World.Good (w : World (Storage β) (Call β) UInt64) : Prop :=
  PoSeManagerV1.Good w.state w.balance w.self w.env w.history

theorem manager_keeps : Keeps (contract C word).component orderly.callable orderly.possible World.Good fun _ _ => True where
  execute := by
    intro w message outcome good called executed
    simp only [Contract.component, World.execute] at executed
    split at executed
    · cases executed
    · rename_i paid
      obtain ⟨step, dispatched, rfl⟩ := map_ok.mp executed
      have kept := dispatch_good good called.1 called.2 paid dispatched
      cases step with
      | done state => exact kept
      | call state pending => exact kept.elim
      | pay state payee amount pending =>
        obtain ⟨away, covered, kept⟩ := kept
        rw [World.outcome, if_pos ⟨covered, fun home => absurd home away⟩]
        refine ⟨?_, trivial⟩
        rw [if_neg (show ¬ payee = (w.enter message.1 message.2).self from away)]
        exact kept
  succeed := by
    intro w pending outcome good resumed
    cases resumed
    exact good
  fail := by
    intro before pending outcome _ resumed
    cases resumed
  outside := by
    intro m event sound possible
    cases event with
    | tick env =>
      have good := sound.state
      exact { good with lives := fun nodeId => (good.lives nodeId).later possible.2 }
    | shift env => exact possible.elim
    | force amount => exact possible.elim

theorem deployed_good (home : Address) (now : UInt64) : Good (deployed : Storage β) 0 home now [] where
  balanced := rfl
  lives := fun _ => ⟨nofun, fun bonded => absurd rfl bonded, nofun, fun bonded => absurd rfl bonded, rfl,
    fun bonded => absurd rfl bonded⟩
  counted := fun _ => rfl
  recorded := .nil

def leaveRun (s : Storage β) (nodeId : β) (later : UInt64) : List (Event (Msg × Call β) (Outside UInt64)) :=
  (if (s.nodes.read nodeId).active = true then [.call (⟨s.nodeOperator.read nodeId, 0⟩, .requestUnbond nodeId)] else []) ++
    [.outside (.tick later), .call (⟨s.nodeOperator.read nodeId, 0⟩, .withdraw nodeId), .answer true]

/-- The events can happen and end with the whole bond of the node paid. -/
def PaysBond (C : Crypto β) (word : Bytes → β) (m : Machine (World (Storage β) (Call β) UInt64) Pending) (nodeId : β)
    (events : List (Event (Msg × Call β) (Outside UInt64))) : Prop :=
  let after := events.foldl (Machine.step (contract C word).component) m
  Admitted (Machine.Admits orderly.callable orderly.possible) (Machine.step (contract C word).component) m events ∧
    after.frames = [] ∧ after.state.balance + (m.state.state.nodes.read nodeId).bondAmount = m.state.balance ∧
    (after.state.state.nodes.read nodeId).bondAmount = 0

variable {w : World (Storage β) (Call β) UInt64} {later : UInt64}

theorem withdraw_pays (past : w.env ≤ later)
    (unlocked : (w.state.nodes.read nodeId).unlockEpoch ≤ currentEpoch later)
    (asked : w.state.unbondRequested.read nodeId = true) (bonded : (w.state.nodes.read nodeId).bondAmount ≠ 0)
    (operator : w.state.nodeOperator.read nodeId ≠ 0 ∧ w.state.nodeOperator.read nodeId ≠ w.self)
    (covered : (w.state.nodes.read nodeId).bondAmount ≤ w.balance) :
    PaysBond C word ⟨w, []⟩ nodeId
      [.outside (.tick later), .call (⟨w.state.nodeOperator.read nodeId, 0⟩, .withdraw nodeId), .answer true] := by
  have ran : w.state.withdraw later ⟨w.state.nodeOperator.read nodeId, 0⟩ nodeId =
      .ok (.pay { w.state with
        nodes := w.state.nodes.set nodeId { w.state.nodes.read nodeId with bondAmount := 0 }
        unbondRequested := w.state.unbondRequested.set nodeId false }
        (w.state.nodeOperator.read nodeId) (w.state.nodes.read nodeId).bondAmount .transfer) := by
    simp only [withdraw, bind_ok, revertIf_ok, pure_ok]
    exact ⟨(), by simp, (), by simp [asked], (), not_lt.mpr unlocked, (), bonded, trivial⟩
  have ticked : Machine.step (contract C word).component ⟨w, []⟩ (.outside (.tick later)) = ⟨{ w with env := later }, []⟩ :=
    rfl
  have paid := step_pay (contract C word) { w with env := later } [] ⟨w.state.nodeOperator.read nodeId, 0⟩
    (.withdraw nodeId) (fun charged => charged.2 rfl) ran covered operator.2
  refine ⟨⟨⟨rfl, past⟩, ⟨⟨operator.2, operator.1⟩, trivial⟩, ?_, trivial⟩, ?_⟩
  · intro _ frame head
    rw [ticked, paid] at head
    cases head
    rfl
  · rw [foldl_cons, foldl_cons, foldl_cons, foldl_nil, ticked, paid]
    refine ⟨rfl, Nat.sub_add_cancel covered, ?_⟩
    exact congrArg NodeRecord.bondAmount (read_set_self _ _ _)

theorem inactive_pays (C : Crypto β) (word : Bytes → β) (good : World.Good w)
    (bonded : (w.state.nodes.read nodeId).bondAmount ≠ 0) (inactive : (w.state.nodes.read nodeId).active = false)
    (past : w.env ≤ later) (delay : currentEpoch w.env + unbondDelayEpochs ≤ currentEpoch later) :
    PaysBond C word ⟨w, []⟩ nodeId
      [.outside (.tick later), .call (⟨w.state.nodeOperator.read nodeId, 0⟩, .withdraw nodeId), .answer true] := by
  have life := good.lives nodeId
  have requested := life.leaving bonded inactive
  obtain ⟨request, -, -, unlock, before⟩ := life.request requested
  refine withdraw_pays past ?_ requested bonded (life.operated bonded) (good.covered nodeId)
  omega

theorem requestUnbond_runs (active : (s.nodes.read nodeId).active = true)
    (unasked : s.unbondRequested.read nodeId = false) :
    ∃ s', s.requestUnbond now ⟨s.nodeOperator.read nodeId, 0⟩ nodeId = .ok s' ∧ s'.nodeOperator = s.nodeOperator ∧
      (s'.nodes.read nodeId).bondAmount = (s.nodes.read nodeId).bondAmount ∧ (s'.nodes.read nodeId).active = false := by
  have small : currentEpoch now + unbondDelayEpochs < 2 ^ 64 := by
    have bound := now.toNat_lt
    unfold currentEpoch epochSeconds unbondDelayEpochs
    omega
  simp only [requestUnbond, bind_ok, revertIf_ok, pure_ok, checkedAdd_ok]
  refine ⟨_, ⟨(), by simp [active], (), by simp, (), by simp [unasked], _, ⟨small, rfl⟩, rfl⟩, rfl, ?_, ?_⟩
  · rw [read_set_self]
  · rw [read_set_self]

theorem leaveRun_pays (good : World.Good w) (bonded : (w.state.nodes.read nodeId).bondAmount ≠ 0)
    (past : w.env ≤ later) (delay : currentEpoch w.env + unbondDelayEpochs ≤ currentEpoch later) :
    PaysBond C word ⟨w, []⟩ nodeId (leaveRun w.state nodeId later) := by
  have life := good.lives nodeId
  have operator := life.operated bonded
  unfold leaveRun
  split
  · rename_i active
    obtain ⟨s', ran, same, bond, inactive⟩ := requestUnbond_runs active (life.serving active).1
    have asked := step_done (contract C word) w [] ⟨w.state.nodeOperator.read nodeId, 0⟩ (.requestUnbond nodeId)
      (fun charged => charged.2 rfl) (map_ok.mpr ⟨_, ran, rfl⟩)
    have kept : World.Good { w.enter ⟨w.state.nodeOperator.read nodeId, 0⟩ (.requestUnbond nodeId) with state := s' } :=
      requestUnbond_good good ran
    obtain ⟨admitted, done, paid, empty⟩ := inactive_pays C word kept (bond ▸ bonded) inactive past delay
    simp only [same] at admitted done paid empty
    refine ⟨⟨⟨⟨operator.2, operator.1⟩, trivial⟩, ?_⟩, ?_⟩
    · rw [asked]
      exact admitted
    · rw [singleton_append, foldl_cons, asked]
      exact ⟨done, bond ▸ paid, empty⟩
  · rename_i inactive
    exact inactive_pays C word good bonded (Bool.not_eq_true _ ▸ inactive) past delay

/-- With orderly registrations and slashes the contract holds what it owes; a bond is what is left of what was
    posted, and goes to its poster after the delay. -/
theorem bonds_kept {self : Address} {start : UInt64} {m : Machine (World (Storage β) (Call β) UInt64) Pending}
    (reached : Reachable (contract C word) orderly (.fresh deployed 0 self start) m) :
    m.state.balance = m.state.state.nodes.total NodeRecord.bondAmount + m.state.state.rewardPoolBalance +
        m.state.state.pendingRewards.total id + sumOf slashed m.state.history ∧
      (∀ nodeId, sumOf (posted nodeId) m.state.history = (m.state.state.nodes.read nodeId).bondAmount +
        sumOf (slashedFrom nodeId) m.state.history + sumOf (withdrawnFrom nodeId) m.state.history) ∧
      (∀ nodeId, (m.state.state.nodes.read nodeId).bondAmount ≠ 0 →
        (∃ posting, registration nodeId m.state.history = some posting ∧
          posting.msg.sender = m.state.state.nodeOperator.read nodeId) ∧
        (m.frames = [] → ∀ later, m.state.env ≤ later →
          currentEpoch m.state.env + unbondDelayEpochs ≤ currentEpoch later →
          PaysBond C word m nodeId (leaveRun m.state.state nodeId later))) ∧
      Recorded PaidOut m.state.history ∧
      ∀ operator, m.state.state.operatorNodeCount.read operator = activeNodes m.state.state operator := by
  have fresh : World.Good (World.fresh (deployed : Storage β) 0 self start) := deployed_good self start
  have good : World.Good m.state := (manager_keeps.reaches fresh reached).state
  refine ⟨good.balanced, fun nodeId => (good.lives nodeId).ledger, fun nodeId bonded => ⟨?_, ?_⟩, good.recorded,
    good.counted⟩
  · exact (good.lives nodeId).poster bonded
  · obtain ⟨w, frames⟩ := m
    rintro idle later past delay
    subst idle
    exact leaveRun_pays good bonded past delay

end Runs

section Samples

def paysActive (nodeId : β) (entry : Record β) : Bool :=
  decide (entry.call = .withdraw nodeId ∧ (entry.state.nodes.read nodeId).active = true)

theorem paysActive_unrecorded (nodeId : β) (paid : history.head?.any (paysActive nodeId) = true) :
    ¬ Recorded PaidOut history := by
  intro recorded
  cases history with
  | nil => cases paid
  | cons entry earlier =>
    obtain ⟨call, active⟩ := of_decide_eq_true paid
    obtain ⟨inactive, -⟩ := recorded entry earlier suffix_rfl nodeId call
    rw [active] at inactive
    cases inactive

def evidenceCrypto : Crypto Nat where
  keccak256
    | [.bytes raw] => (raw.headD 0).toNat
    | [.text _, .bytes32 _, .uint _ _, .bytes32 evidenceHash] => evidenceHash
    | _ => 1
  toUint := id
  ecrecover := fun _ _ _ _ => 1
  decodeEvidence := fun _ => none

def padded (n : Nat) : Bytes := UInt8.ofNat n :: List.replicate 63 0

def sampleRegistration (endpointCommitment : Nat) : Registration Nat :=
  ⟨1, padded 1, 0, 0, endpointCommitment, 0, List.replicate 65 0, []⟩

def sampleEvidence (n : Nat) : SlashEvidence Nat := ⟨1, n, 4, padded n⟩

def sampleMachine (events : List (Event (Msg × Call Nat) (Outside UInt64))) :
    Machine (World (Storage Nat) (Call Nat) UInt64) Pending :=
  events.foldl (Machine.step (contract evidenceCrypto fun _ => 1).component) ⟨.fresh deployed 0 100 0, []⟩

def leavingRun : List (Event (Msg × Call Nat) (Outside UInt64)) :=
  [.call (⟨5, 0⟩, .init 5),
    .call (⟨7, minBond⟩, .registerNode (sampleRegistration 1)),
    .call (⟨5, 0⟩, .slash 1 (sampleEvidence 1)),
    .call (⟨7, 0⟩, .requestUnbond 1),
    .outside (.tick 604800),
    .call (⟨7, 0⟩, .withdraw 1),
    .call (⟨7, 0⟩, .withdraw 1)]

theorem leavingRun_kept : (sampleMachine leavingRun).state.balance = 6 * 10 ^ 15 ∧
    (sampleMachine leavingRun).state.balance = sumOf slashed (sampleMachine leavingRun).state.history ∧
    Recorded PaidOut (sampleMachine leavingRun).state.history := by
  have reached : Reachable (contract evidenceCrypto fun _ => 1) orderly (.fresh deployed 0 100 0)
      (sampleMachine leavingRun) := Reaches.run .start (by decide +kernel)
  obtain ⟨-, -, -, recorded, -⟩ := bonds_kept reached
  exact ⟨by decide +kernel, by decide +kernel, recorded⟩

def returningRun : List (Event (Msg × Call Nat) (Outside UInt64)) :=
  [.call (⟨7, minBond⟩, .registerNode (sampleRegistration 1)),
    .call (⟨7, 0⟩, .requestUnbond 1),
    .call (⟨7, minBond⟩, .registerNode (sampleRegistration 2)),
    .outside (.tick 604800),
    .call (⟨7, 0⟩, .withdraw 1)]

def slashingRun : List (Event (Msg × Call Nat) (Outside UInt64)) :=
  [.call (⟨5, 0⟩, .init 5), .call (⟨7, minBond⟩, .registerNode (sampleRegistration 1))] ++
    (List.range 106).map fun n => .call (⟨5, 0⟩, .slash 1 (sampleEvidence (n + 1)))

theorem bonds_lost :
    Reachable (contract evidenceCrypto fun _ => 1) setting (.fresh deployed 0 100 0) (sampleMachine returningRun) ∧
      (sampleMachine returningRun).state.balance ≠
        (sampleMachine returningRun).state.state.nodes.total NodeRecord.bondAmount +
          (sampleMachine returningRun).state.state.rewardPoolBalance +
          (sampleMachine returningRun).state.state.pendingRewards.total id +
          sumOf slashed (sampleMachine returningRun).state.history ∧
      ¬ Recorded PaidOut (sampleMachine returningRun).state.history ∧
      Reachable (contract evidenceCrypto fun _ => 1) setting (.fresh deployed 0 100 0) (sampleMachine slashingRun) ∧
      (sampleMachine slashingRun).state.state.operatorNodeCount.read 7 ≠
        activeNodes (sampleMachine slashingRun).state.state 7 := by
  refine ⟨Reaches.run .start (by decide +kernel : Admitted _ _ _ returningRun), by decide +kernel, ?_,
    Reaches.run .start (by decide +kernel : Admitted _ _ _ slashingRun), by decide +kernel⟩
  exact paysActive_unrecorded 1 (by decide +kernel)

end Samples

end Palimesh.Contracts.PoSeManagerV1
