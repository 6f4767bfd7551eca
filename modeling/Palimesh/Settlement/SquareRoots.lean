import Palimesh.Settlement.Witness

namespace Palimesh.Settlement

open Protocol.Guarded

/-- The loop of `_sqrt` with the compiler's checks. -/
def checkedLoop (x : Nat) : Nat → Nat → Nat → Result Nat
  | 0, y, _ => return y
  | fuel + 1, y, z =>
    if z < y then do
      let sum ← checkedAdd 256 (x / z) z
      checkedLoop x fuel z (sum / 2)
    else return y

def checkedSqrt (x : Nat) : Result Nat :=
  if x = 0 then return 0
  else do
    let sum ← checkedAdd 256 x 1
    checkedLoop x x x (sum / 2)

/-- Its loop is that of `_sqrt`, which begins in the same way. -/
def isqrt (n : Int) : Except String Int :=
  if n < 0 then .error "isqrt on negative"
  else if n < 2 then .ok n
  else .ok (sqrtLoop n.toNat n.toNat n.toNat ((n.toNat + n.toNat / n.toNat) / 2))

structure ScoringConfig where
  storageThresholdBps : Int
  storageCapGb : Int
  minSamples : Int

structure EpochNodeStats where
  storageBps : Nat
  storageGb : Int
  storageSamples : Option Int := none

def storageWeight (stat : EpochNodeStats) (cfg : ScoringConfig) : Except String Int :=
  if stat.storageSamples.any (· < cfg.minSamples) ∨ stat.storageBps < cfg.storageThresholdBps then .ok 0
  else do
    let cappedGb := if cfg.storageCapGb < stat.storageGb then cfg.storageCapGb else stat.storageGb
    let capFactor ← isqrt (cfg.storageCapGb * 1000000)
    let nodeFactor ← isqrt (cappedGb * 1000000)
    return if capFactor = 0 then 0 else (stat.storageBps * nodeFactor).tdiv capFactor

variable {x y z fuel : Nat}

theorem sqrt_le_mean (positive : 0 < y) : x.sqrt ≤ (x / y + y) / 2 := by
  have squared := x.sqrt_le
  generalize x.sqrt = r at squared ⊢
  have product : (2 * r - y) * y ≤ r * r := by
    rcases le_total (2 * r) y with small | large
    · simp [Nat.sub_eq_zero_of_le small]
    · zify [large]
      nlinarith [sq_nonneg ((r : ℤ) - y)]
  have quotient : 2 * r - y ≤ x / y := (Nat.le_div_iff_mul_le positive).mpr (product.trans squared)
  generalize x / y = q at quotient ⊢
  omega

/-- Every round gets closer to the root from above, and the first that does not has found it. -/
theorem sqrtLoop_eq (positive : 0 < x) (above : x.sqrt ≤ y) (enough : y ≤ fuel) :
    sqrtLoop x fuel y ((x / y + y) / 2) = x.sqrt := by
  have root : 0 < x.sqrt := Nat.sqrt_pos.mpr positive
  induction fuel generalizing y with
  | zero => omega
  | succ fuel ih =>
    rw [sqrtLoop]
    split
    · exact ih (sqrt_le_mean (by omega)) (by omega)
    · rename_i closest
      have quotient : y ≤ x / y := by omega
      exact le_antisymm (Nat.le_sqrt.mpr ((Nat.le_div_iff_mul_le (by omega)).mp quotient)) above

theorem sqrt_eq (x : Nat) : sqrt x = x.sqrt := by
  unfold sqrt
  split
  · rename_i zero
    rw [zero, Nat.sqrt_zero]
  · rename_i nonzero
    rw [add_comm x 1, ← Nat.div_self (Nat.pos_of_ne_zero nonzero)]
    exact sqrtLoop_eq (Nat.pos_of_ne_zero nonzero) (Nat.sqrt_le_self x) le_rfl

theorem checkedLoop_eq (bound : x + 1 < 2 ^ 256) (first : 0 < z) (last : z ≤ x) :
    checkedLoop x fuel y z = .ok (sqrtLoop x fuel y z) := by
  induction fuel generalizing y z with
  | zero => rfl
  | succ fuel ih =>
    unfold checkedLoop sqrtLoop
    split
    · have product := Nat.div_mul_le_self x z
      have quotient : 1 ≤ x / z := (Nat.one_le_div_iff first).mpr last
      have sum : x / z + z ≤ x + 1 := by nlinarith
      rw [checkedAdd, checked, if_pos (by omega)]
      exact ih (by omega) (by omega)
    · rfl

theorem isqrt_ok {n root : Int} : isqrt n = .ok root ↔ 0 ≤ n ∧ root = n.toNat.sqrt := by
  unfold isqrt
  split
  · simp
    omega
  · split
    · obtain rfl | rfl : n = 0 ∨ n = 1 := by omega
      · simp [eq_comm]
      · simp [eq_comm]
    · rw [add_comm, sqrtLoop_eq (by omega) (Nat.sqrt_le_self _) le_rfl, Except.ok.injEq, eq_comm, and_iff_right (by omega)]

variable {stat : EpochNodeStats} {cfg : ScoringConfig} {weight : Int}

/-- The node's share of the cap, by the square roots. -/
def scaled (bps : Nat) (gb cap : Int) : Nat := bps * (min gb cap * 1000000).toNat.sqrt / (cap * 1000000).toNat.sqrt

theorem scaled_le (bps : Nat) (gb cap : Int) : scaled bps gb cap ≤ bps := by
  have roots := Nat.sqrt_le_sqrt (Int.toNat_le_toNat (show min gb cap * 1000000 ≤ cap * 1000000 by omega))
  exact Nat.div_le_of_le_mul (by rw [mul_comm]; exact Nat.mul_le_mul_right _ roots)

theorem scaled_mono (bps : Nat) {gb gb' : Int} (larger : gb ≤ gb') (cap : Int) : scaled bps gb cap ≤ scaled bps gb' cap := by
  have roots := Nat.sqrt_le_sqrt (Int.toNat_le_toNat (show min gb cap * 1000000 ≤ min gb' cap * 1000000 by omega))
  exact Nat.div_le_div_right (Nat.mul_le_mul_left bps roots)

theorem storageWeight_ok
    (counted : ¬(stat.storageSamples.any (· < cfg.minSamples) ∨ stat.storageBps < cfg.storageThresholdBps)) :
    storageWeight stat cfg = .ok weight ↔
      0 ≤ cfg.storageCapGb ∧ 0 ≤ stat.storageGb ∧ weight = scaled stat.storageBps stat.storageGb cfg.storageCapGb := by
  have capped : (if cfg.storageCapGb < stat.storageGb then cfg.storageCapGb else stat.storageGb) =
      min stat.storageGb cfg.storageCapGb := by
    rw [min_def]
    split <;> split <;> omega
  have quotient (a b c : Nat) : (if (c : Int) = 0 then 0 else ((a : Int) * b).tdiv c) = (a * b / c : Nat) := by
    split
    · rename_i zero
      rw [Int.natCast_eq_zero.mp zero, Nat.div_zero, Nat.cast_zero]
    · rfl
  simp only [storageWeight, if_neg counted, bind_ok, pure_ok, isqrt_ok, capped, and_assoc, exists_and_left, exists_eq_left,
    quotient, scaled]
  omega

theorem witnessCount_eq (n : Nat) : ∃ root, IsLeast { m | n ≤ m * m } root ∧ witnessCount n = min (min root n) 32 := by
  refine ⟨if n.sqrt * n.sqrt < n then n.sqrt + 1 else n.sqrt, ⟨?_, ?_⟩, ?_⟩
  · split
    · exact Nat.le_of_succ_le (Nat.succ_le_succ_sqrt n)
    · exact not_lt.mp ‹_›
  · intro m enough
    split
    · rename_i short
      exact lt_of_not_ge fun small => absurd (enough.trans (Nat.mul_le_mul small small)) (not_le.mpr short)
    · exact (Nat.sqrt_le_sqrt enough).trans_eq (Nat.sqrt_eq m)
  · rw [witnessCount, sqrt_eq]

theorem checkedSqrt_eq (bound : x + 1 < 2 ^ 256) : checkedSqrt x = .ok x.sqrt := by
  unfold checkedSqrt
  split
  · rename_i zero
    rw [zero, Nat.sqrt_zero]
    rfl
  · rename_i nonzero
    rw [← sqrt_eq, sqrt, if_neg nonzero, checkedAdd, checked, if_pos bound]
    exact checkedLoop_eq bound (by omega) (by omega)

end Palimesh.Settlement
