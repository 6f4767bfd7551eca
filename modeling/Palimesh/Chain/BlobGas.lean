import Mathlib

namespace Palimesh.Chain

def exponentialLoop (numerator denominator : Int) : Nat → Int → Int → Int → Option Int
  | 0, _, _, _ => none
  | fuel + 1, i, output, acc =>
    if 0 < acc then
      exponentialLoop numerator denominator fuel (i + 1) (output + acc) ((acc * numerator).tdiv (denominator * i))
    else some output

/-- Nothing comes out while the loop still runs. -/
def fakeExponential (fuel : Nat) (factor numerator denominator : Int) : Option Int :=
  (exponentialLoop numerator denominator fuel 1 0 (factor * denominator)).map (·.tdiv denominator)

def minBlobGasPrice : Int := 1

def blobGasPriceUpdateFraction : Int := 3338477

def computeBlobGasPrice (fuel : Nat) (excessBlobGas : Int) : Option Int :=
  fakeExponential fuel minBlobGasPrice excessBlobGas blobGasPriceUpdateFraction

variable {numerator numerator' denominator i acc : Int}

theorem next_nonpos (divisor : 0 < denominator * i) (positive : 0 < acc) (negative : numerator < 0) :
    (acc * numerator).tdiv (denominator * i) ≤ 0 := by
  rw [← Int.zero_tdiv (denominator * i)]
  exact Int.tdiv_le_tdiv divisor (mul_nonpos_of_nonneg_of_nonpos positive.le negative.le)

theorem next_lt (proper : 1 ≤ denominator) (started : 1 ≤ i) (positive : 0 < acc) (late : numerator < i) :
    (acc * numerator).tdiv (denominator * i) < acc := by
  have longer : i ≤ denominator * i := le_mul_of_one_le_left (by omega) proper
  by_cases negative : numerator < 0
  · exact lt_of_le_of_lt (next_nonpos (by omega) positive negative) positive
  · rw [Int.tdiv_eq_ediv_of_nonneg (mul_nonneg positive.le (not_lt.mp negative))]
    exact Int.ediv_lt_of_lt_mul (by omega) (mul_lt_mul_of_pos_left (by omega) positive)

/-- The rounds up to the numerator are counted; after it the addend falls. -/
theorem loop_ends (numerator : Int) (proper : 1 ≤ denominator) (i output acc : Int) (started : 1 ≤ i) :
    ∃ fuel result, ∀ more, exponentialLoop numerator denominator (fuel + more) i output acc = some result := by
  by_cases positive : 0 < acc
  · obtain ⟨fuel, result, ends⟩ := loop_ends numerator proper (i + 1) (output + acc)
      ((acc * numerator).tdiv (denominator * i)) (by omega)
    refine ⟨fuel + 1, result, fun more => ?_⟩
    rw [Nat.add_right_comm, exponentialLoop, if_pos positive, ends]
  · exact ⟨1, output, fun more => by rw [Nat.add_comm, exponentialLoop, if_neg positive]⟩
termination_by ((numerator + 1 - i).toNat, acc.toNat)
decreasing_by
  by_cases early : i ≤ numerator
  · exact Prod.Lex.left _ _ (by omega)
  · have falls := next_lt proper started positive (not_le.mp early)
    rw [Int.toNat_of_nonpos (by omega : numerator + 1 - (i + 1) ≤ 0), Int.toNat_of_nonpos (by omega : numerator + 1 - i ≤ 0)]
    exact Prod.Lex.right _ (by omega)

variable {fuel : Nat} {output output' acc' result result' : Int}

theorem output_le (ran : exponentialLoop numerator denominator fuel i output acc = some result) : output ≤ result := by
  induction fuel generalizing i output acc with
  | zero => cases ran
  | succ fuel ih =>
    rw [exponentialLoop] at ran
    split at ran
    · have later := ih ran
      omega
    · cases ran
      rfl

theorem next_le (proper : 1 ≤ denominator) (larger : numerator ≤ numerator') (started : 1 ≤ i) (positive : 0 < acc)
    (le : acc ≤ acc') (next : 0 < (acc * numerator).tdiv (denominator * i)) :
    (acc * numerator).tdiv (denominator * i) ≤ (acc' * numerator').tdiv (denominator * i) := by
  have divisor : 0 < denominator * i := by positivity
  have nonneg : 0 ≤ numerator := not_lt.mp fun negative => absurd next (not_lt.mpr (next_nonpos divisor positive negative))
  exact Int.tdiv_le_tdiv divisor (mul_le_mul le larger nonneg (by omega))

theorem loop_mono (proper : 1 ≤ denominator) (larger : numerator ≤ numerator') (started : 1 ≤ i)
    (outputs : output ≤ output') (addends : 0 < acc → acc ≤ acc')
    (ran : exponentialLoop numerator denominator fuel i output acc = some result)
    (ran' : exponentialLoop numerator' denominator fuel i output' acc' = some result') : result ≤ result' := by
  induction fuel generalizing i output output' acc acc' with
  | zero => cases ran
  | succ fuel ih =>
    by_cases positive : 0 < acc
    · have le := addends positive
      rw [exponentialLoop, if_pos positive] at ran
      rw [exponentialLoop, if_pos (by omega)] at ran'
      exact ih (by omega) (by omega) (next_le proper larger started positive le) ran ran'
    · have before := output_le ran'
      rw [exponentialLoop, if_neg positive] at ran
      cases ran
      omega

theorem blobGasPrice_monotone :
    (∀ factor numerator denominator, 0 ≤ numerator → 1 ≤ denominator → ∃ fuel result, ∀ more,
      fakeExponential (fuel + more) factor numerator denominator = some result) ∧
    ∃ price : Int → Int, (∀ excess, ∃ fuel, ∀ more, computeBlobGasPrice (fuel + more) excess = some (price excess)) ∧
      (∀ excess, 1 ≤ price excess) ∧ Monotone price := by
  constructor
  · intro factor numerator denominator _ proper
    obtain ⟨fuel, result, ends⟩ := loop_ends numerator proper 1 0 (factor * denominator) le_rfl
    exact ⟨fuel, _, fun more => congrArg (Option.map _) (ends more)⟩
  · choose fuel result ends using fun excess => loop_ends excess (by decide : 1 ≤ blobGasPriceUpdateFraction) 1 0 3338477 le_rfl
    refine ⟨fun excess => (result excess).tdiv 3338477, fun excess => ⟨fuel excess, fun more => ?_⟩, ?_, ?_⟩
    · exact congrArg (Option.map _) (ends excess more)
    · intro excess
      have first := ends excess 1
      rw [exponentialLoop, if_pos (by decide)] at first
      exact Int.le_tdiv_of_mul_le (by decide) (output_le first)
    · intro excess excess' larger
      have last := ends excess' (fuel excess)
      rw [Nat.add_comm] at last
      exact Int.tdiv_le_tdiv (by decide) (loop_mono (by decide) larger le_rfl le_rfl (fun _ => le_rfl) (ends excess _) last)

end Palimesh.Chain
