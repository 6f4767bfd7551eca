import Palimesh.Contracts.RollupSafety

namespace Palimesh.Contracts.RollupStateManager

open Collections Protocol Protocol.Custody Protocol.Guarded Protocol.Reentrancy Storage

variable {β : Type} [DecidableEq β] [Inhabited β]

def Ordered (s : Storage β) : Prop := ∀ n, (s.outputs.read n).l1Timestamp ≠ 0 → n ≤ s.lastSubmittedBlock

/-- The latest output is deleted only while no lower one is stored, since the counter then starts again from 0. -/
def LatestAlone (s : Storage β) : Call β → Prop
  | .resolveChallenge n correctStateRoot =>
    n = s.lastSubmittedBlock → (s.outputs.read n).l2StateRoot ≠ correctStateRoot →
      ∀ m < n, (s.outputs.read m).l1Timestamp = 0
  | _ => True

def repaired : Setting (Storage β) (Call β) BlockTime :=
  { (setting : Setting (Storage β) (Call β) BlockTime) with
    callable := fun w message => setting.callable w message ∧ LatestAlone w.state message.2 }

instance (s : Storage β) (call : Call β) : Decidable (LatestAlone s call) := by
  unfold LatestAlone
  split <;> infer_instance

instance : (repaired : Setting (Storage β) (Call β) BlockTime).Decides where
  callable := fun w message => inferInstanceAs (Decidable ((_ ∧ _) ∧ LatestAlone w.state message.2))
  later := fun now next => inferInstanceAs (Decidable (now.1 ≤ next.1))
  shifted := fun _ _ => .isFalse id
  forced := .isTrue trivial

variable {s s' : Storage β} {now : BlockTime} {call : Call β} {msg : Msg} {step : Step (Storage β) Pending} {n : Nat}
  {output : OutputProposal β}

omit [DecidableEq β] in
theorem Ordered.replaced (outputs : s.outputs.Replaced n output s'.outputs)
    (own : output.l1Timestamp ≠ 0 → n ≤ s'.lastSubmittedBlock)
    (others : ∀ m, m ≠ n → (s.outputs.read m).l1Timestamp ≠ 0 → m ≤ s'.lastSubmittedBlock) : Ordered s' := by
  intro m stored
  rw [outputs.read] at stored
  split at stored
  · rename_i here
    rw [here]
    exact own stored
  · rename_i other
    exact others m other stored

theorem Ordered.dispatch (consistent : Consistent s) (ordered : Ordered s) (alone : LatestAlone s call)
    (ran : s.dispatch now msg call = .ok step) : Ordered step.state := by
  cases call with
  | submitOutputRoot n outputRoot l2StateRoot =>
    simp only [Storage.dispatch, submitOutputRoot, map_ok, bind_ok, revertIf_ok, pure_ok] at ran
    obtain ⟨_, ⟨-, -, -, -, -, -, -, above, -, -, rfl⟩, rfl⟩ := ran
    refine .replaced (.set rfl) (fun _ => Nat.le_refl _) fun m _ stored => ?_
    exact (ordered m stored).trans (Nat.le_of_not_le above)
  | challengeOutputRoot n =>
    simp only [Storage.dispatch, challengeOutputRoot, map_ok, bind_ok, revertIf_ok, pure_ok] at ran
    obtain ⟨_, ⟨-, present, -, -, -, -, _, -, -, -, -, -, -, -, _, -, rfl⟩, rfl⟩ := ran
    exact .replaced (.set rfl) (fun _ => ordered n present) fun m _ => ordered m
  | resolveChallenge n correctStateRoot =>
    obtain ⟨-, s', -, -, -, -, paid⟩ := resolveChallenge_ok consistent ran
    split at paid
    · obtain ⟨outputs, last, rfl⟩ := paid
      exact .replaced (.same outputs) (last ▸ ordered n) fun m _ => last ▸ ordered m
    · rename_i fault
      obtain ⟨outputs, last, rfl⟩ := paid
      refine .replaced (.set outputs) (fun stored => absurd rfl stored) fun m other stored => ?_
      have below := ordered m stored
      show m ≤ s'.lastSubmittedBlock
      rw [last]
      split
      · rename_i latest
        exact absurd (alone latest fault m (by omega)) stored
      · exact below
  | finalizeOutput n =>
    obtain ⟨live, -, s', outputs, -, -, last, rfl⟩ := finalizeOutput_ok consistent ran
    exact .replaced (.set outputs) (fun _ => last ▸ ordered n live.1) fun m _ => last ▸ ordered m
  | receive =>
    cases ran
    exact ordered
  | withdrawPayments =>
    simp only [Storage.dispatch, withdrawPayments, bind_ok, pure_ok] at ran
    obtain ⟨-, -, rfl⟩ := ran
    exact ordered
  | init _ _ _ _ _ _ =>
    simp only [Storage.dispatch, init, map_ok, bind_ok, pure_ok] at ran
    obtain ⟨_, ⟨-, -, -, -, -, -, -, -, -, -, rfl⟩, rfl⟩ := ran
    exact ordered
  | setChallengeResolver _ | addProposer _ | transferOwnership _ =>
    simp only [Storage.dispatch, setChallengeResolver, addProposer, transferOwnership, map_ok, bind_ok, pure_ok] at ran
    obtain ⟨_, ⟨_, -, -, -, rfl⟩, rfl⟩ := ran
    exact ordered
  | removeProposer _ =>
    simp only [Storage.dispatch, removeProposer, map_ok, bind_ok, pure_ok] at ran
    obtain ⟨_, ⟨_, -, rfl⟩, rfl⟩ := ran
    exact ordered

theorem repaired_preserves : Preserves (contract : Contract (Storage β) (Call β) Pending BlockTime Revert) repaired
    fun s now history => Sound s now history ∧ Ordered s where
  call := by
    intro w msg call step inv callable ran
    obtain ⟨⟨consistent, priced, settled⟩, ordered⟩ := inv
    obtain ⟨change, kept, -, -⟩ := dispatch_effect consistent priced callable.1.2 ran
    exact ⟨⟨change.consistent consistent callable.1.2, kept, change.settled consistent settled⟩,
      ordered.dispatch consistent callable.2 ran⟩
  resume := by
    intro s now history pending ok step inv ran
    obtain ⟨same, last, -⟩ := resume_ok ran
    refine ⟨inv.1.same same, ?_⟩
    rw [Ordered, same.outputs, last]
    exact inv.2
  passes := fun inv _ => inv

/-- As long as the latest output is only deleted when it is the lowest, the counter is above all stored outputs. -/
theorem outputs_stay_ordered {balance : Nat} {self : Address} {start : BlockTime}
    {m : Machine (World (Storage β) (Call β) BlockTime) Pending}
    (reached : Reachable contract repaired (.fresh deployed balance self start) m) :
    (∀ n, (m.state.state.outputs.read n).l1Timestamp ≠ 0 → n ≤ m.state.state.lastSubmittedBlock) ∧
      ∀ now msg submitted outputRoot l2StateRoot s',
        m.state.state.submitOutputRoot now msg submitted outputRoot l2StateRoot = .ok s' →
        ∀ n, (m.state.state.outputs.read n).l1Timestamp ≠ 0 → n < submitted := by
  have ordered : Ordered m.state.state :=
    (repaired_preserves.reaches ⟨deployed_sound start, fun _ stored => absurd rfl stored⟩ reached).2
  refine ⟨ordered, ?_⟩
  intro now msg submitted outputRoot l2StateRoot s' ran n stored
  simp only [submitOutputRoot, bind_ok, revertIf_ok] at ran
  obtain ⟨-, -, -, -, -, -, -, above, -⟩ := ran
  exact Nat.lt_of_le_of_lt (ordered n stored) (Nat.lt_of_not_le above)

theorem resubmitted_ordered : resubmitted.state.state.lastSubmittedBlock = 7 ∧
    ∀ n, (resubmitted.state.state.outputs.read n).l1Timestamp ≠ 0 → n ≤ resubmitted.state.state.lastSubmittedBlock := by
  have ordered := outputs_stay_ordered (Reaches.run .start (by decide +kernel : Admitted
    (Machine.Admits repaired.callable repaired.possible)
    (Machine.step (contract : Contract (Storage Nat) (Call Nat) Pending BlockTime Revert).component)
    ⟨.fresh deployed 0 100 firstBlock, []⟩ resubmission))
  exact ⟨by decide +kernel, ordered.1⟩

def rollback : List (Event (Msg × Call Nat) (Outside BlockTime)) :=
  [.call (⟨1, 0⟩, .init 10 1000 100 5 2 1), .call (⟨2, 1000⟩, .submitOutputRoot 5 50 51),
    .call (⟨2, 1000⟩, .submitOutputRoot 7 70 71), .call (⟨3, 100⟩, .challengeOutputRoot 7),
    .call (⟨1, 0⟩, .resolveChallenge 7 72)]

/-- Block 5 has an output when block 7 is rolled back, and one for block 3 is accepted after it. -/
theorem rollback_forgets_lower : ∃ m : Machine (World (Storage Nat) (Call Nat) BlockTime) Pending,
    Reachable contract setting (.fresh deployed 0 100 firstBlock) m ∧ m.state.state.lastSubmittedBlock = 0 ∧
      (m.state.state.outputs.read 5).l1Timestamp ≠ 0 ∧
      (m.state.state.submitOutputRoot firstBlock ⟨2, 1000⟩ 3 30 31).isOk = true :=
  ⟨_, Reaches.run .start (by decide +kernel : Admitted _ _ _ rollback), by decide +kernel⟩

end Palimesh.Contracts.RollupStateManager
