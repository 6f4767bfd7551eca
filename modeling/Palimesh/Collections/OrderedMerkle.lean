import Palimesh.Collections.MerkleTree

/-! Merkle trees whose pairs are ordered: a proof says at each step on which side its sibling stands. -/

namespace Collections.OrderedMerkle

open MerkleTree List Function

variable {α : Type} (combine : α → α → α)

def join (node sibling : α) (right : Bool) : α := if right then combine sibling node else combine node sibling

def climb (node : α) (steps : List (α × Bool)) : α := steps.foldl (fun node step => join combine node step.1 step.2) node

/-- The position below `top` that turns lead to in a tree whose lowest level has `width` nodes. Where a right node
    is missing, a right turn leads to the left one. -/
def address : Nat → List Bool → Nat → Nat
  | _, [], top => top
  | width, right :: turns, top =>
    let above := address ((width + 1) / 2) turns top
    if right = true ∧ 2 * above + 1 < width then 2 * above + 1 else 2 * above

def height : Nat → Nat → Nat
  | 0, _ => 0
  | fuel + 1, width => if width ≤ 1 then 0 else height fuel ((width + 1) / 2) + 1

theorem climbLevels_eq : ∀ (fuel : Nat) (level : List α),
    climbLevels combine fuel level = (levelUp combine)^[height fuel level.length] level
  | 0, _ => rfl
  | fuel + 1, level => by
    rw [climbLevels, height]
    split
    · rfl
    · rw [climbLevels_eq fuel, length_levelUp, iterate_succ_apply]

theorem climb_cons (node sibling : α) (right : Bool) (steps : List (α × Bool)) :
    climb combine node ((sibling, right) :: steps) = climb combine (join combine node sibling right) steps := rfl

theorem climb_append (node : α) (first last : List (α × Bool)) :
    climb combine node (first ++ last) = climb combine (climb combine node first) last := foldl_append

def turns : Nat → Nat → List Bool
  | 0, _ => []
  | steps + 1, position => decide (position % 2 = 1) :: turns steps (position / 2)

theorem levelUp_join {level : List α} {position : Nat} {node : α} (here : level[position]? = some node) :
    (levelUp combine level)[position / 2]? =
      some (join combine node (sibling level position node) (decide (position % 2 = 1))) := by
  rw [levelUp_sibling combine here, join]
  rcases Nat.mod_two_eq_zero_or_one position with side | side <;> simp [side]

/-- What of injectivity is needed for one tree: over each pair of its nodes stands a combination of this pair only,
    if one of the two candidates is a proper node, as every combination is. -/
structure Binds (proper : α → Prop) (level : List α) (height : Nat) : Prop where
  closed : ∀ a b, proper (combine a b)
  pairs : ∀ rounds < height, ∀ c ∈ (levelUp combine)^[rounds] level, ∀ d ∈ (levelUp combine)^[rounds] level,
    combine c d ∈ (levelUp combine)^[rounds + 1] level →
      ∀ a b, combine a b = combine c d → proper a ∨ proper b → a = c ∧ b = d

variable {combine} {proper : α → Prop} {level : List α} {height : Nat}

theorem Binds.proper_join (binds : Binds combine proper level height) (node sibling : α) (right : Bool) :
    proper (join combine node sibling right) := by
  unfold join
  split <;> exact binds.closed _ _

theorem Binds.above (binds : Binds combine proper level (height + 1)) :
    Binds combine proper (levelUp combine level) height where
  closed := binds.closed
  pairs := by
    intro rounds low
    exact binds.pairs (rounds + 1) (Nat.succ_lt_succ low)

theorem Binds.rise {rounds : Nat} (binds : Binds combine proper level (height + rounds)) :
    Binds combine proper ((levelUp combine)^[rounds] level) height := by
  induction rounds generalizing level with
  | zero => exact binds
  | succ rounds ih =>
    exact ih (Binds.above binds)

theorem Binds.position {node : α} {steps : List (α × Bool)} {top : Nat}
    (binds : Binds combine proper level steps.length) (isProper : proper node)
    (reaches : ((levelUp combine)^[steps.length] level)[top]? = some (climb combine node steps)) :
    level[address level.length (steps.map Prod.snd) top]? = some node := by
  induction steps generalizing node level with
  | nil => exact reaches
  | cons step steps ih =>
    obtain ⟨sibling, right⟩ := step
    have parent := ih binds.above (binds.proper_join node sibling right) reaches
    rw [length_levelUp] at parent
    have member := mem_of_getElem? parent
    rw [map_cons, address]
    generalize address ((level.length + 1) / 2) (steps.map Prod.snd) top = above at parent
    obtain ⟨left, below, pair⟩ := exists_below parent
    rw [pair] at member
    have children := binds.pairs 0 (Nat.succ_pos _) left (mem_of_below below (.inl rfl)) _
      (mem_of_below below (.inr rfl)) member
    rw [iterate_zero_apply] at children
    cases right with
    | false =>
      have same := (children _ _ pair (.inl isProper)).1
      simpa [same] using below
    | true =>
      have same := (children _ _ pair (.inr isProper)).2
      cases next : level[2 * above + 1]? with
      | none =>
        have outside := List.getElem?_eq_none_iff.mp next
        rw [next] at same
        rw [if_neg (by omega), same]
        exact below
      | some other =>
        have inside := (List.getElem?_eq_some_iff.mp next).1
        rw [next] at same
        rw [if_pos ⟨rfl, inside⟩, same]
        exact next

/-- A proper node from which a path leads to the top is on the level as far below it as the path is long. -/
theorem Binds.level_of_climb (binds : Binds combine proper level height) (bare : ∀ leaf ∈ level, ∀ a b, leaf ≠ combine a b)
    {node : α} (isProper : proper node) {steps : List (α × Bool)}
    (reaches : (levelUp combine)^[height] level = [climb combine node steps]) :
    steps.length ≤ height ∧ ((levelUp combine)^[height - steps.length] level)[
      address ((levelUp combine)^[height - steps.length] level).length (steps.map Prod.snd) 0]? = some node := by
  have short : steps.length ≤ height := by
    by_contra long
    -- The last steps lead up from a leaf, which the first ones have made a combination.
    obtain ⟨first, last, rfl, count⟩ : ∃ first last, steps = first ++ last ∧ last.length = height :=
      ⟨steps.take (steps.length - height), steps.drop (steps.length - height), (take_append_drop _ _).symm,
        by rw [length_drop]; omega⟩
    rcases eq_nil_or_concat' first with rfl | ⟨before, step, rfl⟩
    · simp at long
      omega
    rw [climb_append] at reaches
    have combined : climb combine node (before ++ [step]) = join combine (climb combine node before) step.1 step.2 := by
      rw [climb_append]
      rfl
    rw [combined] at reaches
    subst count
    have leaf := binds.position (binds.proper_join _ _ _)
      (show ((levelUp combine)^[last.length] level)[0]? = some (climb combine _ last) by rw [reaches]; rfl)
    have member := mem_of_getElem? leaf
    unfold join at member
    split at member <;> exact bare _ member _ _ rfl
  refine ⟨short, ?_⟩
  have split : steps.length + (height - steps.length) = height := by omega
  rw [← split] at binds
  apply Binds.position binds.rise isProper
  rw [← iterate_add_apply, split, reaches]
  rfl

end Collections.OrderedMerkle
