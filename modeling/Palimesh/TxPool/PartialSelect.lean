import Mathlib

namespace Palimesh.TxPool

variable {T : Type} (compare : T → T → Int) (pivot : T)

/-- The inner loop of `partialSelect`: what is smaller than the pivot moves in front of `storeIdx`. -/
def partitionBelow : Nat → Nat → Nat → Array T → Nat × Array T
  | 0, _, storeIdx, arr => (storeIdx, arr)
  | steps + 1, i, storeIdx, arr =>
    match arr[i]? with
    | none => (storeIdx, arr)
    | some x =>
      if compare x pivot < 0 then
        partitionBelow steps (i + 1) (storeIdx + 1) (arr.swapIfInBounds storeIdx i)
      else partitionBelow steps (i + 1) storeIdx arr

def partitionRange (lo hi : Nat) (arr : Array T) : Nat × Array T :=
  let (storeIdx, arr) := partitionBelow compare pivot (hi - lo) lo lo (arr.swapIfInBounds (lo + (hi - lo) / 2) hi)
  (storeIdx, arr.swapIfInBounds storeIdx hi)

def selectLoop (k : Nat) : Nat → Nat → Nat → Array T → Array T
  | 0, _, _, arr => arr
  | fuel + 1, lo, hi, arr =>
    if lo < hi then
      match arr[lo + (hi - lo) / 2]? with
      | none => arr
      | some pivot =>
        let (storeIdx, arr) := partitionRange compare pivot lo hi arr
        if storeIdx < k - 1 then selectLoop k fuel (storeIdx + 1) hi arr
        else if k - 1 < storeIdx then selectLoop k fuel lo (storeIdx - 1) arr
        else arr
    else arr

/-- Quickselect: the range shrinks in every round, so that as many rounds as there are elements suffice. -/
def partialSelect (arr : Array T) (k : Int) (compare : T → T → Int) : Array T :=
  if k ≤ 0 ∨ (arr.size : Int) ≤ k then arr
  else selectLoop compare k.toNat arr.size 0 (arr.size - 1) arr

theorem swapIfInBounds_perm (arr : Array T) (i j : Nat) : (arr.swapIfInBounds i j).toList.Perm arr.toList := by
  by_cases inside : i < arr.size ∧ j < arr.size
  · have swapped : arr.swapIfInBounds i j = arr.swap i j inside.1 inside.2 := by
      simp [Array.swapIfInBounds, inside.1, inside.2]
    rw [swapped]
    exact Array.perm_iff_toList_perm.mp (Array.swap_perm inside.1 inside.2)
  · have same : arr.swapIfInBounds i j = arr := by
      grind [Array.swapIfInBounds]
    rw [same]

theorem partitionBelow_perm (steps i storeIdx : Nat) (arr : Array T) :
    (partitionBelow compare pivot steps i storeIdx arr).2.toList.Perm arr.toList := by
  induction steps generalizing i storeIdx arr with
  | zero => exact List.Perm.refl _
  | succ steps ih =>
    unfold partitionBelow
    split
    · exact List.Perm.refl _
    · split
      · exact (ih _ _ _).trans (swapIfInBounds_perm arr storeIdx i)
      · exact ih _ _ _

theorem partitionRange_perm (lo hi : Nat) (arr : Array T) :
    (partitionRange compare pivot lo hi arr).2.toList.Perm arr.toList :=
  ((swapIfInBounds_perm _ _ _).trans (partitionBelow_perm _ _ _ _ _ _)).trans (swapIfInBounds_perm _ _ _)

theorem selectLoop_perm (k fuel lo hi : Nat) (arr : Array T) :
    (selectLoop compare k fuel lo hi arr).toList.Perm arr.toList := by
  induction fuel generalizing lo hi arr with
  | zero => exact List.Perm.refl _
  | succ fuel ih =>
    unfold selectLoop
    split
    · split
      · exact List.Perm.refl _
      · rename_i pivot _
        have round := partitionRange_perm compare pivot lo hi arr
        dsimp only
        split
        · exact (ih _ _ _).trans round
        · split
          · exact (ih _ _ _).trans round
          · exact round
    · exact List.Perm.refl _

theorem partialSelect_perm (arr : Array T) (k : Int) (compare : T → T → Int) :
    (partialSelect arr k compare).toList.Perm arr.toList := by
  unfold partialSelect
  split
  · exact List.Perm.refl _
  · exact selectLoop_perm _ _ _ _ _ _

example : partialSelect #[5, 3, 9, 1, 4] 2 (fun a b : Int => a - b) = #[1, 3, 4, 5, 9] := by decide

end Palimesh.TxPool
