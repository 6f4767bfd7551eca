import Palimesh.Chain.BaseFee

namespace Palimesh.Chain

open List

section Fees

/-- The part of the fee by which it moves when the gas used is `delta` away from half of the limit. -/
def feeStep (fee delta target : Int) : Int := fee * delta / (8 * target)

variable {fee used target delta : Int} {gasLimit : Option Int} (positive : 0 < target)
include positive

variable {higher : Int}

theorem feeStep_mono {further : Int} (fees : 0 ≤ fee) (above : fee ≤ higher) (deltas : 0 ≤ delta)
    (away : delta ≤ further) : feeStep fee delta target ≤ feeStep higher further target := by
  apply Int.ediv_le_ediv (by omega)
  exact Int.mul_le_mul above away deltas (by omega)

theorem feeStep_le (fees : 0 ≤ fee) (deltas : 0 ≤ delta) (near : delta ≤ target) : 8 * feeStep fee delta target ≤ fee := by
  have whole : feeStep fee target target = fee / 8 := Int.mul_ediv_mul_of_pos_left fee 8 positive
  have most := feeStep_mono positive fees (Int.le_refl fee) deltas near
  omega

theorem feeStep_lipschitz (above : fee ≤ higher) (near : delta ≤ target) :
    feeStep higher delta target ≤ feeStep fee delta target + (higher - fee) := by
  unfold feeStep
  rw [← Int.add_mul_ediv_right _ _ (by omega)]
  apply Int.ediv_le_ediv (by omega)
  have moved : (higher - fee) * delta ≤ (higher - fee) * (8 * target) :=
    Int.mul_le_mul_of_nonneg_left (by omega) (by omega)
  rw [Int.sub_mul] at moved
  omega

variable (floor : minBaseFee ≤ fee) (even : gasLimit.getD blockGasLimit = 2 * target) (nonneg : 0 ≤ used)
include floor even

/-- Above half of the limit the fee rises, by one at least; up to half of it the fee falls, to the floor at most. -/
theorem calculateBaseFee_eq : calculateBaseFee ⟨fee, used, gasLimit⟩ =
    if target < used then fee + max 1 (feeStep fee (min used (2 * target) - target) target)
    else max minBaseFee (fee - feeStep fee (target - used) target) := by
  have step (delta : Int) (away : 0 ≤ delta) : ((fee * delta).tdiv target).tdiv 8 = feeStep fee delta target := by
    have product : 0 ≤ fee * delta := Int.mul_nonneg (by unfold minBaseFee at floor; omega) away
    rw [Int.tdiv_eq_ediv_of_nonneg product, Int.tdiv_eq_ediv_of_nonneg (Int.ediv_nonneg product (by omega)),
      Int.ediv_ediv_of_nonneg (by omega), mul_comm target, feeStep]
  have half : (2 * target * targetGasUtilization).tdiv 100 = target := by
    unfold targetGasUtilization
    rw [Int.tdiv_eq_ediv_of_nonneg (by omega)]
    omega
  have clamp : (if 2 * target < used then 2 * target else used) = min used (2 * target) := by
    split <;> omega
  simp only [calculateBaseFee, even, half, clamp, maxChangeDenominator]
  rw [if_neg (by omega), if_neg (by omega)]
  by_cases busy : target < used
  · rw [if_neg (by omega), if_pos (by omega), if_pos busy, step _ (by omega)]
    split <;> omega
  · split
    · have still : feeStep fee (target - used) target = 0 := by simp [feeStep, show target - used = 0 by omega]
      omega
    · rw [if_neg (by omega), step _ (by omega), Int.min_eq_left (by omega)]
      split <;> omega

include nonneg

theorem calculateBaseFee_bounds : let next := calculateBaseFee ⟨fee, used, gasLimit⟩
    minBaseFee ≤ next ∧ 8 * (next - fee) ≤ fee ∧ 8 * (fee - next) ≤ fee ∧ (fee < next ↔ target < used) := by
  have fees : 8 ≤ fee := by unfold minBaseFee at floor; omega
  rw [calculateBaseFee_eq positive floor even]
  split
  · have up := feeStep_le positive (by omega : 0 ≤ fee) (by omega : 0 ≤ min used (2 * target) - target) (by omega)
    omega
  · have down := feeStep_le positive (by omega : 0 ≤ fee) (by omega : 0 ≤ target - used) (by omega)
    have away : 0 ≤ feeStep fee (target - used) target :=
      Int.ediv_nonneg (Int.mul_nonneg (by omega) (by omega)) (by omega)
    omega

theorem calculateBaseFee_mono {more : Int} (loaded : used ≤ more) (above : fee ≤ higher) :
    calculateBaseFee ⟨fee, used, gasLimit⟩ ≤ calculateBaseFee ⟨higher, more, gasLimit⟩ := by
  have fees : 0 ≤ fee := by unfold minBaseFee at floor; omega
  rw [calculateBaseFee_eq positive floor even, calculateBaseFee_eq positive (by omega) even]
  split
  · have steps := feeStep_mono positive fees above (by omega : 0 ≤ min used (2 * target) - target)
      (by omega : _ ≤ min more (2 * target) - target)
    omega
  · have away : 0 ≤ feeStep fee (target - used) target := Int.ediv_nonneg (Int.mul_nonneg fees (by omega)) (by omega)
    split
    · omega
    · have slow := feeStep_lipschitz positive above (by omega : target - more ≤ target)
      have steps := feeStep_mono positive fees (Int.le_refl fee) (by omega : 0 ≤ target - more)
        (by omega : _ ≤ target - used)
      omega

end Fees

/-- The fee after some blocks, of which each has the gas it used and its limit. -/
def feeAfter (fee : Int) (blocks : List (Int × Option Int)) : Int :=
  blocks.foldl (fun fee block => calculateBaseFee ⟨fee, block.1, block.2⟩) fee

def OrdinaryGas (block : Int × Option Int) : Prop :=
  0 ≤ block.1 ∧ 2 ≤ block.2.getD blockGasLimit ∧ 2 ∣ block.2.getD blockGasLimit

theorem minBaseFee_le_feeAfter {fee : Int} (floor : minBaseFee ≤ fee) {blocks : List (Int × Option Int)}
    (ordinary : ∀ block ∈ blocks, OrdinaryGas block) : minBaseFee ≤ feeAfter fee blocks := by
  induction blocks generalizing fee with
  | nil => exact floor
  | cons block rest ih =>
    obtain ⟨⟨used, room, target, even⟩, others⟩ := forall_mem_cons.mp ordinary
    exact ih (calculateBaseFee_bounds (by omega) floor even used).1 others

/-- The fee stays at the floor or above, moves by an eighth at most, rises exactly above half of the limit, and
    grows with the gas used and the parent's fee. -/
theorem baseFee_dynamics {fee used : Int} {gasLimit : Option Int} (floor : minBaseFee ≤ fee)
    (ordinary : OrdinaryGas (used, gasLimit)) :
    let next := calculateBaseFee ⟨fee, used, gasLimit⟩
    minBaseFee ≤ next ∧ 8 * (next - fee) ≤ fee ∧ 8 * (fee - next) ≤ fee ∧ (fee < next ↔ gasLimit.getD blockGasLimit < 2 * used) ∧
      (∀ more, used ≤ more → next ≤ calculateBaseFee ⟨fee, more, gasLimit⟩) ∧
      (∀ higher, fee ≤ higher → next ≤ calculateBaseFee ⟨higher, used, gasLimit⟩) ∧
      ∀ blocks, (∀ block ∈ blocks, OrdinaryGas block) → minBaseFee ≤ feeAfter fee blocks := by
  obtain ⟨nonneg, room, target, even⟩ := ordinary
  have positive : 0 < target := by dsimp only at room even; omega
  obtain ⟨stays, up, down, rises⟩ := calculateBaseFee_bounds positive floor even nonneg
  refine ⟨stays, up, down, ?_, fun more loaded => ?_, fun higher above => ?_, fun blocks => minBaseFee_le_feeAfter floor⟩
  · rw [rises, even]
    omega
  · exact calculateBaseFee_mono positive floor even nonneg loaded (Int.le_refl fee)
  · exact calculateBaseFee_mono positive floor even nonneg (Int.le_refl used) above

theorem baseFee_dynamics_full : minBaseFee < calculateBaseFee ⟨minBaseFee, 30000000, none⟩ :=
  (baseFee_dynamics le_rfl ⟨by decide, by decide, by decide⟩).2.2.2.1.mpr (by decide)

section Emission

/-- The reward of a height of the chain, which halves from era to era. -/
def paidAt (reward interval height : Nat) : Nat :=
  if 64 ≤ height / interval then 0 else reward / 2 ^ (height / interval)

variable {reward interval : Nat}

theorem getBlockReward_eq (funded : 0 < reward) (halves : 0 < interval) {height : Nat} (mined : 0 < height) :
    getBlockReward height reward interval = paidAt reward interval height := by
  have halvings : (height : Int).tdiv interval = (height / interval : Nat) := (Int.ofNat_tdiv height interval).symm
  unfold getBlockReward paidAt
  rw [if_neg (by omega), if_neg (by omega), if_neg (by omega), halvings]
  split
  · rw [if_pos (by omega)]
    rfl
  · rw [if_neg (by omega), Int.toNat_natCast, ← Nat.shiftRight_eq_div_pow]
    rfl

theorem paidAt_antitone {height later : Nat} (after : height ≤ later) :
    paidAt reward interval later ≤ paidAt reward interval height := by
  have eras : height / interval ≤ later / interval := Nat.div_le_div_right after
  unfold paidAt
  split
  · exact Nat.zero_le _
  · rw [if_neg (by omega)]
    exact Nat.div_le_div_left (Nat.pow_le_pow_right (by decide) eras) (Nat.two_pow_pos _)

/-- What the rest of the era and all later eras can still pay is within the bound. -/
theorem paid_reserve (halves : 0 < interval) (length : Nat) :
    ((range length).map fun i => paidAt reward interval (i + 1)).sum + reward +
      (2 * interval - length % interval - 1) * (reward / 2 ^ (length / interval)) ≤ 2 * interval * reward := by
  have whole (w : Nat) : 2 * interval * w = w + (2 * interval - 1) * w := by
    rw [Nat.add_comm, ← Nat.succ_mul, Nat.succ_eq_add_one, Nat.sub_add_cancel (by omega)]
  induction length with
  | zero => simp [whole reward]
  | succ length ih =>
    have pays : paidAt reward interval (length + 1) ≤ reward / 2 ^ ((length + 1) / interval) := by
      unfold paidAt
      split
      · exact Nat.zero_le _
      · exact Nat.le_refl _
    rw [range_succ, map_append, sum_append, map_singleton, sum_singleton]
    have before := Nat.div_add_mod length interval
    have after := Nat.div_add_mod (length + 1) interval
    have room := Nat.mod_lt length halves
    by_cases ends : interval ∣ length + 1
    · have era : (length + 1) / interval = length / interval + 1 := by rw [Nat.succ_div, if_pos ends]
      rw [era, Nat.mul_succ] at after
      rw [era, Nat.pow_succ, ← Nat.div_div_eq_div_mul] at pays ⊢
      have half := Nat.mul_le_mul_left interval (Nat.mul_div_le (reward / 2 ^ (length / interval)) 2)
      rw [← Nat.mul_assoc, Nat.mul_comm interval, whole] at half
      have last : 2 * interval - length % interval - 1 = interval := by omega
      rw [last] at ih
      rw [(by omega : (length + 1) % interval = 0), Nat.sub_zero]
      omega
    · have era : (length + 1) / interval = length / interval := by rw [Nat.succ_div, if_neg ends]; rfl
      rw [era] at after pays ⊢
      have next : 2 * interval - length % interval - 1 = 2 * interval - (length + 1) % interval - 1 + 1 := by omega
      rw [next, Nat.succ_mul] at ih
      omega

/-- All that is ever minted is less than two eras at the first reward, and the reward never rises. -/
theorem emission_bounded {reward interval : Int} (funded : 0 < reward) (halves : 0 < interval) :
    (∀ length, ((List.range length).map fun i => getBlockReward (i + 1 : Nat) reward interval).sum <
      2 * reward * interval) ∧
    ∀ height later, 0 < height → height ≤ later →
      getBlockReward later reward interval ≤ getBlockReward height reward interval := by
  lift reward to Nat using le_of_lt funded
  lift interval to Nat using le_of_lt halves
  rw [Int.natCast_pos] at funded halves
  constructor
  · intro length
    have sums : ((range length).map fun i => getBlockReward (i + 1 : Nat) reward interval).sum =
        (((range length).map fun i => paidAt reward interval (i + 1)).sum : Nat) := by
      rw [Nat.cast_list_sum, map_map]
      exact congrArg sum (map_congr_left fun i _ => getBlockReward_eq funded halves (Nat.succ_pos i))
    have reserve := @paid_reserve reward interval halves length
    rw [sums, Int.mul_right_comm]
    exact_mod_cast (by omega : _ < 2 * interval * reward)
  · intro height later mined after
    lift height to Nat using le_of_lt mined
    lift later to Nat using by omega
    rw [getBlockReward_eq funded halves (by omega), getBlockReward_eq funded halves (by omega)]
    exact Int.ofNat_le.mpr (paidAt_antitone (Int.ofNat_le.mp after))

theorem emission_bounded_default : getBlockReward (2 * defaultHalvingIntervalBlocks) 5 defaultHalvingIntervalBlocks ≤
    getBlockReward 1 5 defaultHalvingIntervalBlocks :=
  (emission_bounded (by decide) (by decide)).2 _ _ (by decide) (by decide)

end Emission

end Palimesh.Chain
