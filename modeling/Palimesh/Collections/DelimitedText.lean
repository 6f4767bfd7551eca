import Mathlib

namespace Collections

open List

theorem split_at_first {α : Type} {mark : α} {x y x' y' : List α} (free : mark ∉ x) (free' : mark ∉ x')
    (same : x ++ mark :: y = x' ++ mark :: y') : x = x' ∧ y = y' := by
  induction x generalizing x' with
  | nil =>
    cases x' with
    | nil => simpa using same
    | cons head rest =>
      simp only [nil_append, cons_append, List.cons.injEq] at same
      exact absurd (by simp [same.1]) free'
  | cons head rest ih =>
    cases x' with
    | nil =>
      simp only [nil_append, cons_append, List.cons.injEq] at same
      exact absurd (by simp [same.1]) free
    | cons head' rest' =>
      simp only [cons_append, List.cons.injEq] at same
      simp only [mem_cons, not_or] at free free'
      obtain ⟨tail, after⟩ := ih free.2 free'.2 same.2
      exact ⟨by rw [same.1, tail], after⟩

theorem split_at_last {α : Type} {mark : α} {x y x' y' : List α} (free : mark ∉ y) (free' : mark ∉ y')
    (same : x ++ mark :: y = x' ++ mark :: y') : x = x' ∧ y = y' := by
  have reversed := congrArg List.reverse same
  simp only [reverse_append, reverse_cons, append_assoc, singleton_append] at reversed
  obtain ⟨tails, heads⟩ := split_at_first (by simpa using free) (by simpa using free') reversed
  exact ⟨reverse_injective heads, reverse_injective tails⟩

variable {mark : Char}

theorem notMem_nat (other : mark.isDigit = false) (n : Nat) : mark ∉ n.repr.toList := by
  rw [Nat.repr_eq_ofList_toDigits, String.toList_ofList]
  intro member
  have digit := Nat.isDigit_of_mem_toDigits (by decide) (by decide) member
  rw [other] at digit
  cases digit

theorem notMem_int (other : mark.isDigit = false) (noSign : mark ≠ '-') (n : Int) : mark ∉ (toString n).toList := by
  cases n with
  | ofNat n => exact notMem_nat other n
  | negSucc n =>
    change mark ∉ ("-" ++ n.succ.repr).toList
    rw [String.toList_append, mem_append, not_or]
    refine ⟨?_, notMem_nat other n.succ⟩
    have sign : "-".toList = ['-'] := by decide
    rw [sign, mem_singleton]
    exact noSign

end Collections
