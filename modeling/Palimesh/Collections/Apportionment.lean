import Mathlib

namespace Collections.Apportionment

open List

section Floors

variable {weights : List Int} {budget total : Int}

theorem sum_div_add_mod (weights : List Int) (budget total : Int) :
    total * (weights.map fun w => w * budget / total).sum + (weights.map fun w => w * budget % total).sum =
      weights.sum * budget := by
  induction weights with
  | nil => simp
  | cons w weights ih =>
    have division := Int.mul_ediv_add_emod (w * budget) total
    simp only [map_cons, sum_cons, mul_add, add_mul]
    linarith

theorem sum_mod_nonneg (weights : List Int) (budget : Int) (positive : 0 < total) :
    0 ≤ (weights.map fun w => w * budget % total).sum := by
  apply sum_nonneg
  intro part member
  obtain ⟨w, -, rfl⟩ := List.mem_map.mp member
  exact Int.emod_nonneg _ (Int.ne_of_gt positive)

theorem sum_mod_le (budget : Int) (positive : 0 < total) (nonneg : ∀ w ∈ weights, 0 ≤ w) :
    (weights.map fun w => w * budget % total).sum ≤ total * weights.countP (0 < ·) := by
  induction weights with
  | nil => simp
  | cons w weights ih =>
    obtain ⟨first, rest⟩ := List.forall_mem_cons.mp nonneg
    have below := ih rest
    have part := Int.emod_lt_of_pos (w * budget) positive
    rw [map_cons, sum_cons]
    by_cases counts : 0 < w
    · rw [countP_cons_of_pos (by simpa using counts)]
      push_cast
      linarith
    · have zero : w = 0 := by omega
      rw [countP_cons_of_neg (by simpa using counts), zero, zero_mul, Int.zero_emod, zero_add]
      exact below

theorem remainder_bounds (positive : 0 < total) (nonneg : ∀ w ∈ weights, 0 ≤ w) (adds : weights.sum = total) :
    0 ≤ budget - (weights.map fun w => w * budget / total).sum ∧
      budget - (weights.map fun w => w * budget / total).sum ≤ weights.countP (0 < ·) := by
  have division := sum_div_add_mod weights budget total
  have lower := sum_mod_nonneg weights budget positive
  have upper := sum_mod_le budget positive nonneg
  rw [adds] at division
  have left : total * (budget - (weights.map fun w => w * budget / total).sum) =
      (weights.map fun w => w * budget % total).sum := by
    linarith
  constructor
  · exact nonneg_of_mul_nonneg_right (left ▸ lower) positive
  · exact le_of_mul_le_mul_left (left ▸ upper) positive

end Floors

section Raised

variable {α : Type} (f : α → α) (xs : List α)

def raise (positions : List Nat) : List α :=
  positions.foldl (fun xs i => xs.modify i f) xs

@[simp] theorem raise_nil : raise f xs [] = xs := rfl

@[simp] theorem raise_cons (i : Nat) (positions : List Nat) :
    raise f xs (i :: positions) = raise f (xs.modify i f) positions := rfl

theorem getElem?_raise {positions : List Nat} (nodup : positions.Nodup) (j : Nat) :
    (raise f xs positions)[j]? = xs[j]?.map fun x => if j ∈ positions then f x else x := by
  induction positions generalizing xs with
  | nil => simp
  | cons i positions ih =>
    obtain ⟨outside, nodup⟩ := List.nodup_cons.mp nodup
    rw [raise_cons, ih _ nodup, getElem?_modify, Option.map_eq_map, Option.map_map]
    apply congrArg (fun g => Option.map g xs[j]?)
    funext x
    by_cases here : i = j
    · subst here
      simp [outside]
    · simp [here, Ne.symm here]

theorem map_raise {γ : Type} {f : α → α} {g : α → γ} (same : ∀ x, g (f x) = g x) (xs : List α) (positions : List Nat) :
    (raise f xs positions).map g = xs.map g := by
  induction positions generalizing xs with
  | nil => rfl
  | cons i positions ih =>
    rw [raise_cons, ih]
    apply ext_getElem?
    intro j
    rw [getElem?_map, getElem?_modify, getElem?_map]
    cases xs[j]? with
    | none => rfl
    | some x =>
      by_cases here : i = j
      · simp [here, same]
      · simp [here]

theorem sum_modify {f : α → α} {g : α → Int} (up : ∀ x, g (f x) = g x + 1) {xs : List α} {i : Nat} (inside : i < xs.length) :
    ((xs.modify i f).map g).sum = (xs.map g).sum + 1 := by
  induction xs generalizing i with
  | nil => cases inside
  | cons x xs ih =>
    cases i with
    | zero =>
      simp [up]
      ring
    | succ i =>
      have rest := ih (Nat.lt_of_succ_lt_succ inside)
      simp [rest]
      ring

theorem sum_raise {f : α → α} {g : α → Int} (up : ∀ x, g (f x) = g x + 1) {xs : List α} {positions : List Nat}
    (inside : ∀ i ∈ positions, i < xs.length) :
    ((raise f xs positions).map g).sum = (xs.map g).sum + positions.length := by
  induction positions generalizing xs with
  | nil => simp
  | cons i positions ih =>
    obtain ⟨first, rest⟩ := List.forall_mem_cons.mp inside
    rw [raise_cons, ih (by simpa using rest), sum_modify up first, length_cons]
    push_cast
    ring

end Raised

theorem rel_of_take {α : Type} {r : α → α → Prop} {ranked : List α} (ordered : ranked.Pairwise r) {k : Nat} {a b : α}
    (early : a ∈ ranked.take k) (member : b ∈ ranked) (late : b ∉ ranked.take k) : r a b := by
  rw [← take_append_drop k ranked] at ordered member
  rcases List.mem_append.mp member with inside | inside
  · exact absurd inside late
  · exact (List.pairwise_append.mp ordered).2.2 a early b inside

end Collections.Apportionment
