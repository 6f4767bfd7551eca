import Mathlib

namespace Protocol

variable {α : Type} [DecidableEq α]

structure Supermajority (weight : α → Nat) (everyone members : Finset α) : Prop where
  inside : members ⊆ everyone
  heavy : 2 * everyone.sum weight < 3 * members.sum weight

theorem overlap_weight (weight : α → Nat) {everyone left right : Finset α}
    (first : left ⊆ everyone) (second : right ⊆ everyone) :
    left.sum weight + right.sum weight ≤ everyone.sum weight + (left ∩ right).sum weight := by
  have split : (left ∪ right).sum weight + (left ∩ right).sum weight =
      left.sum weight + right.sum weight := Finset.sum_union_inter
  have bound : (left ∪ right).sum weight ≤ everyone.sum weight :=
    Finset.sum_le_sum_of_subset (Finset.union_subset first second)
  omega

theorem Supermajority.common_outside {weight : α → Nat} {everyone left right faulty : Finset α}
    (first : Supermajority weight everyone left) (second : Supermajority weight everyone right)
    (few : 3 * faulty.sum weight ≤ everyone.sum weight) :
    ∃ member, member ∈ left ∧ member ∈ right ∧ member ∉ faulty := by
  by_contra absent
  push Not at absent
  have covered : left ∩ right ⊆ faulty := by
    intro member both
    exact absent member (Finset.mem_inter.mp both).1 (Finset.mem_inter.mp both).2
  have small : (left ∩ right).sum weight ≤ faulty.sum weight := Finset.sum_le_sum_of_subset covered
  have overlap := overlap_weight weight first.inside second.inside
  have leftHeavy := first.heavy
  have rightHeavy := second.heavy
  omega

end Protocol
