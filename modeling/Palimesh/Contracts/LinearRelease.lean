import Palimesh.Contracts.StorageRewardManager

namespace Palimesh.Contracts.StorageRewardManager

open Collections Protocol Protocol.Custody Protocol.Guarded Protocol.Reentrancy Storage World
open Settlement (Crypto)

section Release

/-- A release that is linear from an anchor on, over what was released before it. -/
def linear (baseline anchor rate epoch : Nat) : Nat :=
  if epoch < anchor then baseline else baseline + (epoch - anchor + 1) * rate

theorem linear_mono (baseline anchor rate : Nat) {epoch later : Nat} (past : epoch ≤ later) :
    linear baseline anchor rate epoch ≤ linear baseline anchor rate later := by
  unfold linear
  split
  · split
    · exact Nat.le_refl _
    · exact Nat.le_add_right _ _
  · rw [if_neg (by omega)]
    have more : (epoch - anchor + 1) * rate ≤ (later - anchor + 1) * rate := Nat.mul_le_mul_right rate (by omega)
    omega

theorem linear_succ (baseline anchor rate epoch : Nat) :
    linear baseline anchor rate (epoch + 1) ≤ linear baseline anchor rate epoch + rate := by
  unfold linear
  split
  · rw [if_pos (by omega)]
    exact Nat.le_add_right _ _
  · split
    · have first : epoch + 1 - anchor + 1 = 1 := by omega
      rw [first, Nat.one_mul]
    · have next : epoch + 1 - anchor + 1 = (epoch - anchor + 1) + 1 := by omega
      rw [next, Nat.succ_mul, Nat.add_assoc]

end Release

variable {β : Type} {s s' : Storage β} {now : UInt64}

def Storage.released (s : Storage β) (now : UInt64) : Nat :=
  min storageRewardPool (linear s.unlockedBaseline s.rateAnchorEpoch s.emissionPerEpoch (currentEpoch now))

variable (e : EpochRecord β)

def EpochRecord.unswept : Nat := if e.submitted = true ∧ e.swept = false then e.totalMesh else 0

def EpochRecord.sweptClaims : Nat := if e.swept = true then e.claimedMesh else 0

def EpochRecord.unclaimed : Nat :=
  if e.submitted = true ∧ e.swept = false then e.totalMesh - e.claimedMesh else 0

structure EpochRecord.Sound (now : UInt64) : Prop where
  within : e.claimedMesh ≤ e.totalMesh
  unsubmitted : e.submitted = false → e.totalMesh = 0 ∧ e.swept = false
  late : e.swept = true → e.submittedAtEpoch + claimWindowEpochs < currentEpoch now

structure Sound [Inhabited β] (s : Storage β) (now : UInt64) : Prop where
  scheduled : s.totalScheduled = s.epochs.total EpochRecord.unswept + s.epochs.total EpochRecord.sweptClaims
  rewarded : s.totalScheduled = s.totalRewarded + s.epochs.total EpochRecord.unclaimed
  epochs : ∀ epochId, (s.epochs.read epochId).Sound now
  released : s.totalScheduled ≤ s.released now
  rate : s.emissionPerEpoch ≤ maxEmissionPerEpoch
  baseline : s.unlockedBaseline ≤ storageRewardPool
  anchor : s.rateAnchorEpoch ≤ currentEpoch now + 1
  untouched : s.initialized = false →
    s.emissionPerEpoch = 0 ∧ s.unlockedBaseline = 0 ∧ s.owner = 0 ∧ s.poseRegistry = 0

theorem currentEpoch_lt (now : UInt64) : currentEpoch now + 1 < 2 ^ 64 := by
  have bound := now.toNat_lt
  unfold currentEpoch epochSeconds
  omega

theorem currentEpoch_mono {later : UInt64} (past : now ≤ later) : currentEpoch now ≤ currentEpoch later :=
  Nat.div_le_div_right (UInt64.le_iff_toNat_le.mp past)

variable [Inhabited β]

section Values

theorem Sound.unlockedToDate_eq (sound : Sound s now) : s.unlockedToDate now = .ok (s.released now) := by
  have early := currentEpoch_lt now
  have rate := sound.rate
  have baseline := sound.baseline
  have capped : ∀ unlocked, (if storageRewardPool < unlocked then storageRewardPool else unlocked) =
      min storageRewardPool unlocked := by
    intro unlocked
    rw [Nat.min_def]
    split <;> split <;> omega
  have small : (currentEpoch now - s.rateAnchorEpoch + 1) * s.emissionPerEpoch ≤ 2 ^ 64 * maxEmissionPerEpoch :=
    Nat.mul_le_mul (by omega) rate
  have bound : 2 ^ 64 * maxEmissionPerEpoch + storageRewardPool < 2 ^ 256 := by decide
  simp only [unlockedToDate, unlocked, Storage.released, linear, bind_ok, pure_ok]
  split
  · exact ⟨_, rfl, capped _⟩
  · simp only [bind_ok, checkedAdd_ok, checkedMul_ok]
    exact ⟨_, ⟨_, ⟨by omega, rfl⟩, _, ⟨by omega, rfl⟩, by omega, rfl⟩, capped _⟩

omit [Inhabited β] in
theorem released_mono (s : Storage β) {later : UInt64} (past : now ≤ later) : s.released now ≤ s.released later := by
  have more := linear_mono s.unlockedBaseline s.rateAnchorEpoch s.emissionPerEpoch (currentEpoch_mono past)
  unfold Storage.released
  omega

theorem Sound.released_next (sound : Sound s now) {later : UInt64} (next : currentEpoch later = currentEpoch now + 1) :
    s.released later ≤ s.released now + maxEmissionPerEpoch := by
  have more := linear_succ s.unlockedBaseline s.rateAnchorEpoch s.emissionPerEpoch (currentEpoch now)
  have rate := sound.rate
  unfold Storage.released
  rw [next]
  omega

theorem Sound.later (sound : Sound s now) {later : UInt64} (past : now ≤ later) : Sound s later := { sound with
  epochs := by
    intro epochId
    obtain ⟨within, unsubmitted, late⟩ := sound.epochs epochId
    exact ⟨within, unsubmitted, fun swept => Nat.lt_of_lt_of_le (late swept) (currentEpoch_mono past)⟩
  released := Nat.le_trans sound.released (released_mono s past)
  anchor := Nat.le_trans sound.anchor (Nat.succ_le_succ (currentEpoch_mono past)) }

end Values

structure Kept (s s' : Storage β) (now : UInt64) : Prop where
  sound : Sound s' now
  released : s'.released now = s.released now
  initialized : s'.initialized = s.initialized

variable {msg : Msg} {epochId : Nat}

section Calls

structure Terms (s s' : Storage β) : Prop where
  rate : s'.emissionPerEpoch = s.emissionPerEpoch
  baseline : s'.unlockedBaseline = s.unlockedBaseline
  anchor : s'.rateAnchorEpoch = s.rateAnchorEpoch
  initialized : s'.initialized = s.initialized
  owner : s'.owner = s.owner ∨ s.initialized = true
  registry : s'.poseRegistry = s.poseRegistry

theorem Sound.under (sound : Sound s now) (terms : Terms s s')
    (scheduled : s'.totalScheduled = s'.epochs.total EpochRecord.unswept + s'.epochs.total EpochRecord.sweptClaims)
    (rewarded : s'.totalScheduled = s'.totalRewarded + s'.epochs.total EpochRecord.unclaimed)
    (epochs : ∀ epochId, (s'.epochs.read epochId).Sound now) (bound : s'.totalScheduled ≤ s.released now) :
    Kept s s' now := by
  have released : s'.released now = s.released now := by
    unfold Storage.released
    rw [terms.baseline, terms.anchor, terms.rate]
  refine ⟨⟨scheduled, rewarded, epochs, ?_, ?_, ?_, ?_, ?_⟩, released, terms.initialized⟩
  · rw [released]
    exact bound
  · rw [terms.rate]
    exact sound.rate
  · rw [terms.baseline]
    exact sound.baseline
  · rw [terms.anchor]
    exact sound.anchor
  · rw [terms.initialized, terms.rate, terms.baseline, terms.registry]
    intro fresh
    obtain ⟨zero, none, nobody, unset⟩ := sound.untouched fresh
    refine ⟨zero, none, ?_, unset⟩
    rcases terms.owner with same | ready
    · rw [same]
      exact nobody
    · rw [ready] at fresh
      cases fresh

theorem Sound.aside (sound : Sound s now) (terms : Terms s s') (scheduled : s'.totalScheduled = s.totalScheduled)
    (rewarded : s'.totalRewarded = s.totalRewarded) (epochs : s'.epochs = s.epochs) : Kept s s' now := by
  apply sound.under terms
  · rw [scheduled, epochs]
    exact sound.scheduled
  · rw [scheduled, rewarded, epochs]
    exact sound.rewarded
  · rw [epochs]
    exact sound.epochs
  · rw [scheduled]
    exact sound.released

theorem Sound.owned (sound : Sound s now) (sender : msg.sender ≠ 0) (allowed : s.onlyOwner msg = .ok ()) :
    s.initialized = true := by
  cases fresh : s.initialized with
  | true => rfl
  | false =>
    have nobody := (sound.untouched fresh).2.2.1
    have owner : msg.sender = s.owner := Decidable.not_not.mp (revertIf_ok.mp allowed)
    exact absurd (owner.trans nobody) sender

theorem setEmissionPerEpoch_kept {newRate : Nat} (sound : Sound s now) (sender : msg.sender ≠ 0)
    (ran : s.setEmissionPerEpoch now msg newRate = .ok s') : Kept s s' now := by
  simp only [setEmissionPerEpoch, bind_ok, revertIf_ok, pure_ok, checkedAdd_ok, sound.unlockedToDate_eq] at ran
  obtain ⟨_, allowed, -, -, -, rate, _, unlocked, _, ⟨-, rfl⟩, rfl⟩ := ran
  cases unlocked
  have ready := sound.owned sender allowed
  have released : min storageRewardPool (linear (s.released now) (currentEpoch now + 1) newRate (currentEpoch now)) =
      s.released now := by
    rw [linear, if_pos (Nat.lt_succ_self _)]
    exact Nat.min_eq_right (Nat.min_le_left _ _)
  refine ⟨⟨sound.scheduled, sound.rewarded, sound.epochs, ?_, ?_, ?_, ?_, ?_⟩, released, rfl⟩
  · exact Nat.le_trans sound.released (Nat.le_of_eq released.symm)
  · exact Nat.le_of_not_lt rate
  · exact Nat.min_le_left _ _
  · exact Nat.le_refl _
  · intro fresh
    exact absurd (ready.symm.trans fresh) (by decide)

theorem unswept_default : (default : EpochRecord β).unswept = 0 := rfl

theorem sweptClaims_default : (default : EpochRecord β).sweptClaims = 0 := rfl

theorem unclaimed_default : (default : EpochRecord β).unclaimed = 0 := rfl

theorem Sound.write {e : EpochRecord β} (sound : Sound s now) (terms : Terms s s')
    (epochs : s'.epochs = s.epochs.set epochId e) (record : e.Sound now)
    (scheduled : s'.totalScheduled + ((s.epochs.read epochId).unswept + (s.epochs.read epochId).sweptClaims) =
      s.totalScheduled + (e.unswept + e.sweptClaims))
    (rewarded : s'.totalScheduled + s.totalRewarded + (s.epochs.read epochId).unclaimed =
      s.totalScheduled + s'.totalRewarded + e.unclaimed)
    (bound : s'.totalScheduled ≤ s.released now) : Kept s s' now := by
  have total := sound.scheduled
  have slack := sound.rewarded
  have unswept := s.epochs.total_set unswept_default epochId e
  have swept := s.epochs.total_set sweptClaims_default epochId e
  have unclaimed := s.epochs.total_set unclaimed_default epochId e
  apply sound.under terms
  · rw [epochs]
    omega
  · rw [epochs]
    omega
  · intro other
    rw [epochs, InsertionMap.read_set]
    split
    · exact record
    · exact sound.epochs other
  · exact bound

variable [DecidableEq β]

theorem submitStorageEpoch_kept {rewardRoot : β} {totalMesh : Nat} (sound : Sound s now)
    (ran : s.submitStorageEpoch now msg epochId rewardRoot totalMesh = .ok s') : Kept s s' now := by
  simp only [submitStorageEpoch, bind_ok, revertIf_ok, pure_ok, checkedAdd_ok, sound.unlockedToDate_eq] at ran
  obtain ⟨-, -, -, new, -, -, _, ⟨-, rfl⟩, _, unlocked, -, bound, rfl⟩ := ran
  cases unlocked
  obtain ⟨within, unsubmitted, late⟩ := sound.epochs epochId
  have fresh : (s.epochs.read epochId).submitted = false := Bool.not_eq_true _ ▸ new
  obtain ⟨zero, unswept⟩ := unsubmitted fresh
  have unclaimed : (s.epochs.read epochId).claimedMesh = 0 := by omega
  refine sound.write ⟨rfl, rfl, rfl, rfl, .inl rfl, rfl⟩ rfl ⟨?_, fun none => ?_, fun swept => ?_⟩ ?_ ?_ (Nat.le_of_not_lt bound)
  · rw [unclaimed]
    exact Nat.zero_le _
  · cases none
  · exact absurd (unswept.symm.trans swept) (by decide)
  · simp [EpochRecord.unswept, EpochRecord.sweptClaims, fresh, unswept]
  · simp only [EpochRecord.unclaimed, fresh, unswept, unclaimed]
    simp
    omega

variable {step : Step (Storage β) Pending}

theorem claim_kept {C : Crypto β} {env : Env β} {nodeId : β} {amount : Nat} {merkleProof : List β}
    (sound : Sound s env.timestamp) (ran : s.claim C env epochId nodeId amount merkleProof = .ok step) :
    (∃ s' operator, step = .call s' (.mint operator amount) ∧ Kept s s' env.timestamp) ∧ s.poseRegistry ≠ 0 := by
  simp only [claim, operatorOf, bind_ok, revertIf_ok, pure_ok, checkedAdd_ok] at ran
  obtain ⟨-, given, -, -, -, -, -, -, _, ⟨-, rfl⟩, -, window, -, -, _, ⟨-, rfl⟩, -, budget, operator,
    ⟨-, registry, -⟩, _, ⟨-, rfl⟩, rfl⟩ := ran
  obtain ⟨within, unsubmitted, late⟩ := sound.epochs epochId
  have submitted : (s.epochs.read epochId).submitted = true := Bool.not_eq_false _ ▸ given
  have unswept : (s.epochs.read epochId).swept = false := by
    cases swept : (s.epochs.read epochId).swept with
    | true => exact absurd (late swept) window
    | false => rfl
  refine ⟨⟨_, operator, rfl, sound.write ⟨rfl, rfl, rfl, rfl, .inl rfl, rfl⟩ rfl ⟨?_, unsubmitted, late⟩ ?_ ?_ sound.released⟩, registry⟩
  · exact Nat.le_of_not_lt budget
  · simp [EpochRecord.unswept, EpochRecord.sweptClaims, unswept]
  · simp only [EpochRecord.unclaimed, submitted, unswept]
    simp
    omega

omit [DecidableEq β] in
theorem sweepUnclaimed_kept (sound : Sound s now) (ran : s.sweepUnclaimed now epochId = .ok s') : Kept s s' now := by
  simp only [sweepUnclaimed, bind_ok, revertIf_ok, pure_ok, checkedAdd_ok, checkedSub_ok] at ran
  obtain ⟨-, given, -, once, _, ⟨-, rfl⟩, -, elapsed, _, ⟨-, rfl⟩, _, ⟨enough, rfl⟩, rfl⟩ := ran
  obtain ⟨within, unsubmitted, -⟩ := sound.epochs epochId
  have submitted : (s.epochs.read epochId).submitted = true := Bool.not_eq_false _ ▸ given
  have unswept : (s.epochs.read epochId).swept = false := Bool.not_eq_true _ ▸ once
  refine sound.write ⟨rfl, rfl, rfl, rfl, .inl rfl, rfl⟩ rfl ⟨within, ?_, fun _ => Nat.lt_of_not_le elapsed⟩ ?_ ?_ ?_
  · intro fresh
    exact absurd (submitted.symm.trans fresh) (by decide)
  · simp only [EpochRecord.unswept, EpochRecord.sweptClaims, submitted, unswept]
    simp
    omega
  · simp only [EpochRecord.unclaimed, submitted, unswept]
    simp
    omega
  · exact Nat.le_trans (Nat.sub_le _ _) sound.released

omit [DecidableEq β] in
theorem init_sound {meshToken poseRegistry treasury initialOwner : Address} {rate : Nat} (sound : Sound s now)
    (ran : s.init now meshToken poseRegistry treasury rate initialOwner = .ok s') :
    Sound s' now ∧ s.initialized = false ∧ s.released now ≤ s'.released now := by
  simp only [init, bind_ok, revertIf_ok, pure_ok] at ran
  obtain ⟨-, once, -, -, -, -, -, bound, rfl⟩ := ran
  have fresh : s.initialized = false := Bool.not_eq_true _ ▸ once
  obtain ⟨none, zero, -⟩ := sound.untouched fresh
  have nothing : s.released now = 0 := by
    unfold Storage.released linear
    rw [none, zero]
    split <;> simp
  have more : s.released now ≤ min storageRewardPool (linear 0 (currentEpoch now) rate (currentEpoch now)) := by
    rw [nothing]
    exact Nat.zero_le _
  refine ⟨⟨sound.scheduled, sound.rewarded, sound.epochs, ?_, ?_, ?_, ?_, ?_⟩, fresh, more⟩
  · exact Nat.le_trans sound.released more
  · exact Nat.le_of_not_lt bound
  · exact Nat.zero_le _
  · exact Nat.le_succ _
  · intro again
    cases again

end Calls

section Runs

def World.Sound (w : World (Storage β) (Call β) (Env β)) : Prop :=
  StorageRewardManager.Sound w.state w.env.timestamp

def World.released (w : World (Storage β) (Call β) (Env β)) : Nat := w.state.released w.env.timestamp

structure Since (w w' : World (Storage β) (Call β) (Env β)) : Prop where
  time : w'.env.timestamp = w.env.timestamp
  grown : World.released w ≤ World.released w'
  fixed : w.state.initialized = true → w'.state.initialized = true ∧ World.released w' = World.released w

variable (w : World (Storage β) (Call β) (Env β))

omit [Inhabited β] in
theorem Since.refl : Since w w := ⟨rfl, Nat.le_refl _, fun ready => ⟨ready, rfl⟩⟩

omit [Inhabited β] in
theorem Since.trans {w w' w'' : World (Storage β) (Call β) (Env β)} (first : Since w w') (second : Since w' w'') :
    Since w w'' where
  time := second.time.trans first.time
  grown := Nat.le_trans first.grown second.grown
  fixed := by
    intro ready
    obtain ⟨still, same⟩ := first.fixed ready
    obtain ⟨again, equal⟩ := second.fixed still
    exact ⟨again, equal.trans same⟩

theorem Kept.since (w w' : World (Storage β) (Call β) (Env β)) (kept : Kept w.state w'.state w.env.timestamp)
    (env : w'.env = w.env) : World.Sound w' ∧ Since w w' := by
  have same : World.released w' = World.released w := by
    unfold World.released
    rw [env]
    exact kept.released
  refine ⟨?_, congrArg Env.timestamp env, Nat.le_of_eq same.symm, fun ready => ⟨kept.initialized.trans ready, same⟩⟩
  unfold World.Sound
  rw [env]
  exact kept.sound

def Ends (t : Storage β) (step : Step (Storage β) Pending) : Prop := step = .done t ∨ ∃ rest, step = .call t rest

def Stays (s : Storage β) (now : UInt64) : Step (Storage β) Pending → Prop
  | .done s' => Kept s s' now
  | .call s' _ => Kept s s' now ∧ s.initialized = true
  | .pay _ _ _ _ => False

variable [DecidableEq β] {C : Crypto β}

theorem dispatch_stays {env : Env β} {call : Call β} (sound : Sound s env.timestamp) (sender : msg.sender ≠ 0)
    (ran : s.dispatch C env msg call = .ok step) :
    Stays s env.timestamp step ∨
      ∃ s', step = .done s' ∧ Sound s' env.timestamp ∧ s.initialized = false ∧
        s.released env.timestamp ≤ s'.released env.timestamp ∧ ∀ rate, call ≠ .setEmissionPerEpoch rate := by
  have registered : s.poseRegistry ≠ 0 → s.initialized = true := by
    intro registry
    cases fresh : s.initialized with
    | true => rfl
    | false => exact absurd (sound.untouched fresh).2.2.2 registry
  cases call with
  | init meshToken poseRegistry treasury rate initialOwner =>
    obtain ⟨s', finished, rfl⟩ := map_ok.mp ran
    obtain ⟨kept, fresh, grown⟩ := init_sound sound finished
    exact .inr ⟨s', rfl, kept, fresh, grown, nofun⟩
  | transferOwnership newOwner =>
    obtain ⟨s', finished, rfl⟩ := map_ok.mp ran
    simp only [transferOwnership, bind_ok, pure_ok] at finished
    obtain ⟨_, allowed, -, -, rfl⟩ := finished
    exact .inl (sound.aside ⟨rfl, rfl, rfl, rfl, .inr (sound.owned sender allowed), rfl⟩ rfl rfl rfl)
  | setTreasury _ | setRelayer _ _ =>
    obtain ⟨s', finished, rfl⟩ := map_ok.mp ran
    simp only [setTreasury, setRelayer, bind_ok, pure_ok] at finished
    obtain ⟨-, -, -, -, rfl⟩ := finished
    exact .inl (sound.aside ⟨rfl, rfl, rfl, rfl, .inl rfl, rfl⟩ rfl rfl rfl)
  | setEmissionPerEpoch newRate =>
    obtain ⟨s', finished, rfl⟩ := map_ok.mp ran
    exact .inl (setEmissionPerEpoch_kept sound sender finished)
  | submitStorageEpoch epochId rewardRoot totalMesh =>
    obtain ⟨s', finished, rfl⟩ := map_ok.mp ran
    exact .inl (submitStorageEpoch_kept sound finished)
  | claim epochId nodeId amount merkleProof =>
    obtain ⟨⟨s', operator, rfl, kept⟩, registry⟩ := claim_kept sound ran
    exact .inl ⟨kept, registered registry⟩
  | sweepUnclaimed epochId =>
    obtain ⟨s', finished, rfl⟩ := map_ok.mp ran
    exact .inl (sweepUnclaimed_kept sound finished)
  | payForStorage nodeId amount =>
    simp only [dispatch, payForStorage, operatorOf, bind_ok, revertIf_ok, pure_ok] at ran
    obtain ⟨-, -, operator, ⟨-, registry, -⟩, _, -, _, -, _, -, _, -, rfl⟩ := ran
    exact .inl ⟨sound.aside ⟨rfl, rfl, rfl, rfl, .inl rfl, rfl⟩ rfl rfl rfl, registered registry⟩

omit [DecidableEq β] [Inhabited β] in
/-- After a call of the token only the sums of what was paid change. -/
theorem resume_eq {pending : Pending} {ok : Bool} (ran : s.resume pending ok = .ok step) : ∃ paid collected burned,
    Ends { s with totalPaidToNodes := paid, totalToTreasury := collected, totalBurned := burned } step := by
  have burns (t : Storage β) (toBurn : Nat) : Ends t (t.burnShare toBurn) := by
    unfold burnShare
    split
    · exact .inr ⟨_, rfl⟩
    · exact .inl rfl
  have shares (t : Storage β) (toTreasury toBurn : Nat) : Ends t (t.payTreasuryShare toTreasury toBurn) := by
    unfold payTreasuryShare
    split
    · exact .inr ⟨_, rfl⟩
    · exact burns t toBurn
  cases ok with
  | false => cases ran
  | true =>
    cases pending with
    | mint operator amount =>
      cases ran
      exact ⟨_, _, _, .inl rfl⟩
    | burn toBurn =>
      cases ran
      exact ⟨_, _, _, .inl rfl⟩
    | payTreasury treasury toTreasury toBurn =>
      cases ran
      exact ⟨_, _, _, burns s toBurn⟩
    | payNode operator toNode toTreasury toBurn =>
      cases ran
      exact ⟨_, _, _, shares s toTreasury toBurn⟩
    | pull payer operator toNode toTreasury toBurn =>
      simp only [Storage.resume, Bool.true_eq_false, if_false, bind_ok, pure_ok] at ran
      obtain ⟨paid, -, collected, -, burned, -, rfl⟩ := ran
      refine ⟨paid, collected, burned, ?_⟩
      unfold payNodeShare
      split
      · exact .inr ⟨_, rfl⟩
      · exact shares _ toTreasury toBurn

omit [DecidableEq β] in
theorem resume_stays {pending : Pending} {ok : Bool} (sound : Sound s now) (ready : s.initialized = true)
    (ran : s.resume pending ok = .ok step) : Stays s now step := by
  obtain ⟨paid, collected, burned, rfl | ⟨rest, rfl⟩⟩ := resume_eq ran
  · exact sound.aside ⟨rfl, rfl, rfl, rfl, .inl rfl, rfl⟩ rfl rfl rfl
  · exact ⟨sound.aside ⟨rfl, rfl, rfl, rfl, .inl rfl, rfl⟩ rfl rfl rfl, ready⟩

def Waiting : Prop := w.state.initialized = true

theorem Stays.follows {w : World (Storage β) (Call β) (Env β)} (w' : World (Storage β) (Call β) (Env β))
    (stays : Stays w'.state w'.env.timestamp step) (since : Since w w')
    (busy : w'.state.initialized = true → Waiting w) :
    (w'.outcome (contract C) step).Follows World.Sound Waiting Since w := by
  cases step with
  | done state =>
    obtain ⟨sound, after⟩ := Kept.since w' { w' with state := state } stays rfl
    exact ⟨sound, since.trans after⟩
  | call state pending =>
    obtain ⟨kept, ready⟩ := stays
    obtain ⟨sound, after⟩ := Kept.since w' { w' with state := state } kept rfl
    exact ⟨busy ready, ⟨sound, since.trans after⟩, sound, since.trans after⟩
  | pay state payee amount pending => exact stays.elim

theorem manager_advances (C : Crypto β) :
    Advances World.Sound Waiting Since (contract C).component setting.callable setting.possible where
  trans := Since.trans
  execute := by
    intro w message outcome sound sender executed
    simp only [Contract.component, execute] at executed
    split at executed
    · cases executed
    · obtain ⟨step, ran, rfl⟩ := map_ok.mp executed
      have entered : Since w (w.enter message.1 message.2) := ⟨rfl, Nat.le_refl _, fun ready => ⟨ready, rfl⟩⟩
      rcases dispatch_stays sound sender ran with stays | ⟨s', rfl, kept, fresh, grown, -⟩
      · exact Stays.follows (w.enter message.1 message.2) stays entered id
      · refine ⟨kept, rfl, grown, fun ready => ?_⟩
        exact absurd (fresh.symm.trans ready) (by decide)
  resume := by
    intro entry w pending ok outcome waiting sound since resumed
    obtain ⟨step, ran, rfl⟩ := map_ok.mp resumed
    exact Stays.follows w (resume_stays sound (since.fixed waiting).1 ran) since fun _ => waiting
  outside := by
    intro m event sound possible
    cases event with
    | tick env => exact ⟨sound.later possible.2, fun busy => absurd possible.1 busy⟩
    | shift env =>
      have time : m.state.env.timestamp = env.timestamp := possible
      have same : Since m.state { m.state with env := env } := by
        refine ⟨time.symm, Nat.le_of_eq ?_, fun ready => ⟨ready, ?_⟩⟩
        · exact congrArg m.state.state.released time
        · exact congrArg m.state.state.released time.symm
      refine ⟨?_, fun _ => same⟩
      show StorageRewardManager.Sound m.state.state env.timestamp
      exact time ▸ sound
    | force amount => exact ⟨sound, fun _ => ⟨rfl, Nat.le_refl _, fun ready => ⟨ready, rfl⟩⟩⟩

omit [DecidableEq β] in
theorem deployed_sound (now : UInt64) : Sound (deployed : Storage β) now where
  scheduled := rfl
  rewarded := rfl
  epochs := fun _ => ⟨Nat.le_refl _, fun _ => ⟨rfl, rfl⟩, nofun⟩
  released := Nat.zero_le _
  rate := Nat.zero_le _
  baseline := Nat.zero_le _
  anchor := Nat.zero_le _
  untouched := fun _ => ⟨rfl, rfl, rfl, rfl⟩

variable {m : Machine (World (Storage β) (Call β) (Env β)) Pending}

theorem released_grows {event : Event (Msg × Call β) (Outside (Env β))} (sound : World.Sound m.state)
    (nested : Nested World.Sound Waiting Since m.state m.frames)
    (admitted : m.Admits setting.callable setting.possible event) :
    World.released m.state ≤ World.released (m.step (contract C).component event).state := by
  by_cases idle : ∃ ω, event = .outside ω ∧ m.frames = []
  · obtain ⟨ω, rfl, -⟩ := idle
    cases ω with
    | tick env => exact released_mono m.state.state admitted.2
    | shift env => exact Nat.le_of_eq (congrArg m.state.state.released admitted)
    | force amount => exact Nat.le_refl _
  · have inside : ∀ ω, event = .outside ω → m.frames ≠ [] := fun ω outer none => idle ⟨ω, outer, none⟩
    rcases (manager_advances C).cases Since.refl sound nested admitted inside with after | ⟨entry, waiting, before, after⟩
    · exact after.grown
    · exact Nat.le_of_eq ((before.fixed waiting).2.trans (after.fixed waiting).2.symm)

theorem setEmissionPerEpoch_released {newRate : Nat} (sound : World.Sound m.state) (sender : msg.sender ≠ 0) :
    World.released (m.step (contract C).component (.call (msg, .setEmissionPerEpoch newRate))).state =
      World.released m.state := by
  show World.released (Machine.proceed m.state m.frames
    ((contract C).component.execute m.state (msg, .setEmissionPerEpoch newRate))).state = _
  generalize executed : (contract C).component.execute m.state (msg, .setEmissionPerEpoch newRate) = result
  cases result with
  | error fault => rfl
  | ok outcome =>
    simp only [Contract.component, execute] at executed
    split at executed
    · cases executed
    · obtain ⟨step, ran, rfl⟩ := map_ok.mp executed
      obtain ⟨s', finished, rfl⟩ := map_ok.mp ran
      exact (setEmissionPerEpoch_kept sound sender finished).released

/-- No more is minted than scheduled, nor scheduled than released; what is released grows with the epochs by at
    most the greatest rate, and is left by changes of the rate. -/
theorem release_linear {balance : Nat} {self : Address} {env : Env β}
    {m : Machine (World (Storage β) (Call β) (Env β)) Pending}
    (reached : Reachable (contract C) setting (.fresh deployed balance self env) m) :
    m.state.state.totalScheduled =
        m.state.state.epochs.total (fun e => if e.submitted = true ∧ e.swept = false then e.totalMesh else 0) +
          m.state.state.epochs.total (fun e => if e.swept = true then e.claimedMesh else 0) ∧
      ∃ unlocked, m.state.state.unlockedToDate m.state.env.timestamp = .ok unlocked ∧
        m.state.state.totalRewarded ≤ m.state.state.totalScheduled ∧ m.state.state.totalScheduled ≤ unlocked ∧
        unlocked ≤ storageRewardPool ∧
        ∀ event, m.Admits setting.callable setting.possible event →
          ∃ next, (m.step (contract C).component event).state.state.unlockedToDate
              (m.step (contract C).component event).state.env.timestamp = .ok next ∧
            unlocked ≤ next ∧
            (∀ later, event = .outside (.tick later) →
              currentEpoch later.timestamp = currentEpoch m.state.env.timestamp + 1 →
              next ≤ unlocked + maxEmissionPerEpoch) ∧
            ∀ msg newRate, event = .call (msg, .setEmissionPerEpoch newRate) → next = unlocked := by
  have fresh : World.Sound (fresh (deployed : Storage β) balance self env) := deployed_sound _
  obtain ⟨sound, nested⟩ := (manager_advances C).reaches fresh reached
  refine ⟨sound.scheduled, World.released m.state, sound.unlockedToDate_eq, ?_, sound.released, Nat.min_le_left _ _, ?_⟩
  · have slack := sound.rewarded
    omega
  intro event admitted
  obtain ⟨after, -⟩ := (manager_advances C).step ⟨sound, nested⟩ admitted
  refine ⟨_, after.unlockedToDate_eq, released_grows sound nested admitted, ?_, ?_⟩
  · rintro later rfl next
    exact sound.released_next next
  · rintro msg newRate rfl
    exact setEmissionPerEpoch_released sound admitted

def releaseRun : List (Event (Msg × Call Nat) (Outside (Env Nat))) :=
  [.call (⟨1, 0⟩, .init 2 3 4 1000 1),
    .call (⟨1, 0⟩, .setRelayer 5 true),
    .call (⟨5, 0⟩, .submitStorageEpoch 0 1 1000),
    .call (⟨5, 0⟩, .submitStorageEpoch 1 1 1),
    .call (⟨1, 0⟩, .setEmissionPerEpoch maxEmissionPerEpoch),
    .outside (.tick ⟨3600, fun _ _ => some 6⟩),
    .call (⟨9, 0⟩, .claim 0 7 600 [1]),
    .call (⟨9, 0⟩, .claim 0 7 600 [1])]

def flatHash : Crypto Nat where
  keccak256 := fun _ => 1
  toUint := id
  ecrecover := fun _ _ _ _ => 0
  decodeEvidence := fun _ => none

def releaseMachine : Machine (World (Storage Nat) (Call Nat) (Env Nat)) Pending :=
  releaseRun.foldl (Machine.step (contract flatHash).component) ⟨.fresh deployed 0 100 ⟨0, fun _ _ => some 6⟩, []⟩

theorem releaseMachine_linear :
    (releaseMachine.frames.length = 1 ∧ releaseMachine.state.state.totalScheduled = 1000 ∧
      releaseMachine.state.state.unlockedToDate releaseMachine.state.env.timestamp = .ok (1000 + maxEmissionPerEpoch)) ∧
      releaseMachine.state.state.totalRewarded ≤ releaseMachine.state.state.totalScheduled := by
  have reached : Reachable (contract flatHash) setting (.fresh deployed 0 100 ⟨0, fun _ _ => some 6⟩) releaseMachine :=
    Reaches.run .start (by decide +kernel : Admitted _ _ _ releaseRun)
  obtain ⟨-, -, -, minted, -⟩ := release_linear reached
  exact ⟨by decide +kernel, minted⟩

end Runs

end Palimesh.Contracts.StorageRewardManager
