import Mathlib

namespace Palimesh.Contracts.EmissionSchedule

open Finset

def miningSupplyCap : Nat := 750000000 * 10 ^ 18

def epochsPerYear : Nat := 8760

def targetNodeCount : Nat := 100

def annualRate : Nat → Nat
  | 0 => 500
  | 1 => 400
  | 2 => 300
  | 3 => 250
  | _ => 200

def baseEmission (epoch : Nat) : Nat := miningSupplyCap * annualRate (epoch / epochsPerYear) / (10000 * epochsPerYear)

def scaledEmission (epochId activeNodeCount : Nat) : Nat :=
  if activeNodeCount < targetNodeCount then baseEmission epochId * activeNodeCount / targetNodeCount
  else baseEmission epochId

def getEpochEmission (epochId totalMinted activeNodeCount : Nat) : Nat :=
  if miningSupplyCap ≤ totalMinted then 0
  else min (scaledEmission epochId activeNodeCount) (miningSupplyCap - totalMinted)

/-- The loop of `cumulativeEmission`, a year or less in each round. -/
def emitYears (upToEpoch epoch total : Nat) : Nat :=
  if epoch ≤ upToEpoch ∧ total < miningSupplyCap then
    let yearEnd := (epoch / epochsPerYear + 1) * epochsPerYear - 1
    let batchEnd := min yearEnd upToEpoch
    let batchTotal := baseEmission epoch * (batchEnd - epoch + 1)
    emitYears upToEpoch (batchEnd + 1) (total + min batchTotal (miningSupplyCap - total))
  else total
termination_by upToEpoch + 1 - epoch
decreasing_by
  unfold epochsPerYear
  omega

def cumulativeEmission (upToEpoch : Nat) : Nat := emitYears upToEpoch 0 0

def mint (total : Nat) (epoch : Nat × Nat) : Nat := total + getEpochEmission epoch.1 total epoch.2

theorem scaledEmission_le (epochId activeNodeCount : Nat) : scaledEmission epochId activeNodeCount ≤ baseEmission epochId := by
  unfold scaledEmission
  split
  · rename_i few
    exact Nat.div_le_of_le_mul (mul_comm targetNodeCount _ ▸ Nat.mul_le_mul_left _ few.le)
  · exact le_rfl

theorem mint_eq {total : Nat} (within : total ≤ miningSupplyCap) (epoch : Nat × Nat) :
    mint total epoch = min miningSupplyCap (total + scaledEmission epoch.1 epoch.2) := by
  unfold mint getEpochEmission
  split <;> omega

theorem foldl_mint {total : Nat} (within : total ≤ miningSupplyCap) (epochs : List (Nat × Nat)) :
    epochs.foldl mint total =
      min miningSupplyCap (total + (epochs.map fun epoch => scaledEmission epoch.1 epoch.2).sum) := by
  induction epochs generalizing total with
  | nil => exact (Nat.min_eq_right within).symm
  | cons epoch epochs ih =>
    rw [List.foldl_cons, mint_eq within, ih (min_le_left _ _), List.map_cons, List.sum_cons]
    omega

theorem emitYears_eq (upToEpoch epoch total : Nat) (within : total ≤ miningSupplyCap) :
    emitYears upToEpoch epoch total = min miningSupplyCap (total + ∑ e ∈ Ico epoch (upToEpoch + 1), baseEmission e) := by
  fun_induction emitYears upToEpoch epoch total with
  | case1 epoch total going yearEnd batchEnd batchTotal ih =>
    have ahead : epoch ≤ batchEnd := by
      simp only [batchEnd, yearEnd, epochsPerYear]
      omega
    -- the rate is the same in all epochs of a batch
    have constant : ∀ e ∈ Ico epoch (batchEnd + 1), baseEmission e = baseEmission epoch := by
      intro e inside
      have sameYear : e / epochsPerYear = epoch / epochsPerYear := by
        simp only [mem_Ico, batchEnd, yearEnd, epochsPerYear] at inside ⊢
        omega
      rw [baseEmission, baseEmission, sameYear]
    have batch : ∑ e ∈ Ico epoch (batchEnd + 1), baseEmission e = batchTotal := by
      rw [sum_congr rfl constant, sum_const, Nat.card_Ico, Nat.nsmul_eq_mul, mul_comm, Nat.sub_add_comm ahead]
    rw [ih (by omega), ← sum_Ico_consecutive baseEmission (Nat.le_add_right_of_le ahead)
      (Nat.add_le_add_right (min_le_right _ _) 1), batch]
    omega
  | case2 epoch total stopped =>
    by_cases reached : epoch ≤ upToEpoch
    · omega
    · rw [Ico_eq_empty (by omega), sum_empty]
      omega

/-- The closed form is what minting epoch by epoch at full activity gives, and no order of epochs mints more. -/
theorem emission_capped (upToEpoch : Nat) :
    ((List.range (upToEpoch + 1)).map fun epoch => (epoch, targetNodeCount)).foldl mint 0 =
        cumulativeEmission upToEpoch ∧
      ∀ epochs : List (Nat × Nat), (epochs.map Prod.fst).Nodup → (∀ epoch ∈ epochs, epoch.1 ≤ upToEpoch) →
        epochs.foldl mint 0 ≤ miningSupplyCap ∧ epochs.foldl mint 0 ≤ cumulativeEmission upToEpoch := by
  rw [cumulativeEmission, emitYears_eq _ _ _ (Nat.zero_le _), Nat.zero_add, ← range_eq_Ico]
  constructor
  · rw [foldl_mint (Nat.zero_le _), Nat.zero_add, List.map_map]
    rfl
  · intro epochs distinct early
    rw [foldl_mint (Nat.zero_le _), Nat.zero_add]
    refine ⟨Nat.min_le_left _ _, min_le_min_left _ ?_⟩
    calc (epochs.map fun epoch => scaledEmission epoch.1 epoch.2).sum
        ≤ (epochs.map fun epoch => baseEmission epoch.1).sum :=
          List.sum_le_sum fun epoch _ => scaledEmission_le epoch.1 epoch.2
      _ = ∑ e ∈ (epochs.map Prod.fst).toFinset, baseEmission e := by
          rw [List.sum_toFinset _ distinct, List.map_map]
          rfl
      _ ≤ ∑ e ∈ range (upToEpoch + 1), baseEmission e := by
          refine sum_le_sum_of_subset fun e member => ?_
          obtain ⟨epoch, listed, rfl⟩ := List.mem_map.mp (List.mem_toFinset.mp member)
          exact mem_range.mpr (Nat.lt_succ_of_le (early epoch listed))

theorem emission_capped_reordered : [(1, 5), (0, 200)].foldl mint 0 ≤ cumulativeEmission 1 :=
  ((emission_capped 1).2 [(1, 5), (0, 200)] (by decide) (by decide)).2

end Palimesh.Contracts.EmissionSchedule
