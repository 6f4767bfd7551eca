import Mathlib

namespace Collections.Positional

open List

def value (base : Nat) (digits : List Nat) : Nat := digits.foldl (fun acc digit => acc * base + digit) 0

def digits (base : Nat) : Nat → Nat → List Nat
  | 0, _ => []
  | width + 1, n => digits base width (n / base) ++ [n % base]

variable {base : Nat}

theorem value_concat (ds : List Nat) (d : Nat) : value base (ds ++ [d]) = value base ds * base + d := by
  rw [value, foldl_append]
  rfl

theorem foldl_start (start : Nat) (ds : List Nat) :
    ds.foldl (fun acc digit => acc * base + digit) start = start * base ^ ds.length + value base ds := by
  induction ds using List.reverseRecOn with
  | nil => simp [value]
  | append_singleton ds d ih =>
    rw [value_concat, foldl_append, foldl_cons, foldl_nil, ih, length_append, length_singleton,
      pow_succ]
    ring

theorem value_cons (d : Nat) (ds : List Nat) : value base (d :: ds) = d * base ^ ds.length + value base ds := by
  rw [value, foldl_cons, Nat.zero_mul, Nat.zero_add, foldl_start]

theorem leading_lt {a b v w unit : Nat} (small : v < unit) (less : a < b) : a * unit + v < b * unit + w :=
  calc a * unit + v < a * unit + unit := Nat.add_lt_add_left small _
    _ = (a + 1) * unit := (Nat.succ_mul a unit).symm
    _ ≤ b * unit := Nat.mul_le_mul_right _ less
    _ ≤ b * unit + w := Nat.le_add_right _ _

theorem value_lt {ds : List Nat} (bounded : ∀ d ∈ ds, d < base) : value base ds < base ^ ds.length := by
  induction ds with
  | nil => simp [value]
  | cons d ds ih =>
    obtain ⟨first, rest⟩ := List.forall_mem_cons.mp bounded
    have below : d * base ^ ds.length + value base ds < base * base ^ ds.length + 0 := leading_lt (ih rest) first
    rwa [value_cons, length_cons, pow_succ']

@[simp] theorem length_digits (width n : Nat) : (digits base width n).length = width := by
  induction width generalizing n with
  | zero => rfl
  | succ width ih => rw [digits, length_append, ih, length_singleton]

theorem digits_lt (positive : 0 < base) {width n : Nat} : ∀ d ∈ digits base width n, d < base := by
  induction width generalizing n with
  | zero => simp [digits]
  | succ width ih =>
    intro d member
    rcases List.mem_append.mp member with before | last
    · exact ih d before
    · rw [List.mem_singleton.mp last]
      exact Nat.mod_lt _ positive

theorem value_digits (width n : Nat) : value base (digits base width n) = n % base ^ width := by
  induction width generalizing n with
  | zero => simp [digits, value, Nat.mod_one]
  | succ width ih => rw [digits, value_concat, ih, pow_succ', Nat.mod_mul, Nat.mul_comm, Nat.add_comm]

def lexLe : List Nat → List Nat → Bool
  | [], _ => true
  | _ :: _, [] => false
  | x :: xs, y :: ys => x < y || (x == y && lexLe xs ys)

theorem lexLe_iff_value_le {xs ys : List Nat} (same : xs.length = ys.length) (xsBounded : ∀ d ∈ xs, d < base)
    (ysBounded : ∀ d ∈ ys, d < base) : lexLe xs ys = true ↔ value base xs ≤ value base ys := by
  induction xs generalizing ys with
  | nil =>
    rw [eq_nil_of_length_eq_zero same.symm]
    simp [lexLe]
  | cons x xs ih =>
    cases ys with
    | nil => cases same
    | cons y ys =>
      have lengths : xs.length = ys.length := Nat.succ.inj same
      have xsSmall := value_lt (List.forall_mem_cons.mp xsBounded).2
      have ysSmall := value_lt (List.forall_mem_cons.mp ysBounded).2
      have tails := ih lengths (List.forall_mem_cons.mp xsBounded).2 (List.forall_mem_cons.mp ysBounded).2
      rw [value_cons, value_cons, lengths]
      rw [lengths] at xsSmall
      rcases Nat.lt_trichotomy x y with less | rfl | greater
      · have below : x * base ^ ys.length + value base xs < y * base ^ ys.length + value base ys :=
          leading_lt xsSmall less
        simp [lexLe, less, Nat.le_of_lt below]
      · simp [lexLe, tails]
      · have above : y * base ^ ys.length + value base ys < x * base ^ ys.length + value base xs :=
          leading_lt ysSmall greater
        have notLess : ¬ x < y := Nat.not_lt_of_gt greater
        have differ : x ≠ y := Nat.ne_of_gt greater
        simp [lexLe, notLess, differ, Nat.not_le_of_gt above]

theorem digits_value {ds : List Nat} (bounded : ∀ d ∈ ds, d < base) : digits base ds.length (value base ds) = ds := by
  induction ds using List.reverseRecOn with
  | nil => rfl
  | append_singleton ds d ih =>
    have last : d < base := bounded d (by simp)
    have rest := ih fun e member => bounded e (mem_append_left _ member)
    rw [value_concat, length_append, length_singleton, digits, Nat.mul_comm, Nat.mul_add_mod, Nat.mod_eq_of_lt last,
      Nat.mul_add_div (Nat.zero_lt_of_lt last), Nat.div_eq_of_lt last, Nat.add_zero, rest]

theorem value_injective {xs ys : List Nat} (same : xs.length = ys.length) (xsBounded : ∀ d ∈ xs, d < base)
    (ysBounded : ∀ d ∈ ys, d < base) (equal : value base xs = value base ys) : xs = ys := by
  rw [← digits_value xsBounded, same, equal, digits_value ysBounded]

def pairUp (base : Nat) : List Nat → List Nat
  | high :: low :: rest => (high * base + low) :: pairUp base rest
  | _ => []

theorem length_pairUp : ∀ ds : List Nat, (pairUp base ds).length = ds.length / 2
  | [] => rfl
  | [_] => by simp [pairUp]
  | _ :: _ :: rest => by
    rw [pairUp, length_cons, length_pairUp rest]
    simp only [length_cons]
    omega

theorem pairUp_lt : ∀ {ds : List Nat}, (∀ d ∈ ds, d < base) → ∀ d ∈ pairUp base ds, d < base * base
  | [], _ => by simp [pairUp]
  | [_], _ => by simp [pairUp]
  | high :: low :: rest, bounded => by
    rw [pairUp]
    simp only [forall_mem_cons] at bounded ⊢
    refine ⟨?_, pairUp_lt bounded.2.2⟩
    have pair : high * base + low < base * base + 0 := leading_lt bounded.2.1 bounded.1
    exact pair

theorem value_pairUp : ∀ {ds : List Nat}, ds.length % 2 = 0 → value (base * base) (pairUp base ds) = value base ds
  | [], _ => rfl
  | [_], odd => by cases odd
  | high :: low :: rest, even => by
    have restEven : rest.length % 2 = 0 := by
      simp only [length_cons] at even
      omega
    have twice : 2 * (rest.length / 2) = rest.length := by omega
    have unit : (base * base) ^ (rest.length / 2) = base ^ rest.length := by
      rw [← pow_two, ← pow_mul, twice]
    rw [pairUp, value_cons, value_cons, value_cons, value_pairUp restEven, length_pairUp, unit, length_cons,
      pow_succ]
    ring

end Collections.Positional
