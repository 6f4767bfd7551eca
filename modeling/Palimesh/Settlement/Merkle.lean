import Palimesh.Collections.MerkleTree
import Palimesh.Settlement.Contract

namespace Palimesh.Settlement

open Collections List MerkleTree

variable {β : Type} (C : Crypto β)

def pairHash (l r : β) : β :=
  if C.toUint l < C.toUint r then C.keccak256 [.bytes32 l, .bytes32 r] else C.keccak256 [.bytes32 r, .bytes32 l]

namespace MerkleProofLite

def hashWith (computed proofElement : β) : β :=
  if C.toUint computed ≤ C.toUint proofElement then C.keccak256 [.bytes32 computed, .bytes32 proofElement]
  else C.keccak256 [.bytes32 proofElement, .bytes32 computed]

/-- `verify` and `verifyMemory`, which differ in where the proof is stored only. -/
def verify [DecidableEq β] (proof : List β) (root leaf : β) : Bool := proof.foldl (hashWith C) leaf = root

end MerkleProofLite

variable [Inhabited β]

/-- One round in place: `level[i]` is overwritten after `level[2 * i]` has been read. -/
def hashRound (level : List β) (n rounds : Nat) : List β :=
  (List.range rounds).foldl (fun level i =>
    let li := 2 * i
    let ri := if li + 1 < n then li + 1 else li
    level.set i (pairHash C (level.getD li default) (level.getD ri default))) level

def rebuildLoop : Nat → List β → Nat → β
  | 0, level, _ => level.getD 0 default
  | fuel + 1, level, n =>
    let nextN := (n + 1) / 2
    let next := hashRound C level n nextN
    if 1 < nextN then rebuildLoop fuel next nextN else next.getD 0 default

def rebuildMerkleRoot (leaves : List β) : β :=
  if leaves.length = 0 then default else rebuildLoop C leaves.length leaves leaves.length

/-- What `rounds` writes have done so far: the nodes of the next level below that, the old level
    from there on, which is all that later writes read. -/
theorem hashRound_written (level : List β) {n : Nat} (inside : n ≤ level.length) (rounds : Nat)
    (bounded : rounds ≤ (n + 1) / 2) :
    (hashRound C level n rounds).length = level.length ∧
      (∀ j < rounds, (hashRound C level n rounds)[j]? = (levelUp (pairHash C) (level.take n))[j]?) ∧
      ∀ j ≥ rounds, (hashRound C level n rounds)[j]? = level[j]? := by
  induction rounds with
  | zero => exact ⟨rfl, by simp, fun _ _ => rfl⟩
  | succ i ih =>
    obtain ⟨length, written, kept⟩ := ih (by omega)
    have unfolded : hashRound C level n (i + 1) =
        (hashRound C level n i).set i (pairHash C ((hashRound C level n i).getD (2 * i) default)
          ((hashRound C level n i).getD (if 2 * i + 1 < n then 2 * i + 1 else 2 * i) default)) := by
      rw [hashRound, range_succ, foldl_append]
      rfl
    have read : ∀ j, i ≤ j → j < n → (hashRound C level n i).getD j default = level[j]?.getD default := by
      intro j above _
      rw [getD_eq_getElem?_getD, kept j above]
    have here : level[2 * i]? = some level[2 * i] := getElem?_eq_getElem (by omega)
    have left : (level.take n)[2 * i]? = some level[2 * i] := by
      rw [getElem?_take_of_lt (by omega), here]
    rw [unfolded]
    refine ⟨by rw [length_set, length], ?_, ?_⟩
    · intro j below
      rw [getElem?_set]
      by_cases same : i = j
      · subst same
        rw [if_pos rfl, if_pos (by omega), getElem?_levelUp, left, read (2 * i) (by omega) (by omega), here]
        by_cases paired : 2 * i + 1 < n
        · have next : level[2 * i + 1]? = some level[2 * i + 1] := getElem?_eq_getElem (by omega)
          have right : (level.take n)[2 * i + 1]? = some level[2 * i + 1] := by
            rw [getElem?_take_of_lt paired, next]
          rw [if_pos paired, read (2 * i + 1) (by omega) paired, next, Option.map_some, right]
          rfl
        · have lone : (level.take n)[2 * i + 1]? = none := by
            apply getElem?_eq_none
            rw [length_take]
            omega
          rw [if_neg paired, read (2 * i) (by omega) (by omega), here, Option.map_some, lone]
          rfl
      · rw [if_neg same]
        exact written j (by omega)
    · intro j above
      rw [getElem?_set, if_neg (by omega)]
      exact kept j (by omega)

theorem hashRound_take (level : List β) {n : Nat} (inside : n ≤ level.length) :
    (hashRound C level n ((n + 1) / 2)).take ((n + 1) / 2) = levelUp (pairHash C) (level.take n) := by
  obtain ⟨_, written, _⟩ := hashRound_written C level inside ((n + 1) / 2) (Nat.le_refl _)
  have width := length_levelUp (pairHash C) (level.take n)
  rw [length_take, Nat.min_eq_left inside] at width
  apply ext_getElem?
  intro j
  by_cases below : j < (n + 1) / 2
  · rw [getElem?_take_of_lt below, written j below]
  · rw [getElem?_eq_none (by rw [length_take]; omega), getElem?_eq_none (by omega)]

theorem rebuildLoop_climbs : ∀ (fuel : Nat) (level : List β) (n : Nat), 0 < n → n ≤ level.length → n ≤ fuel →
    (climbLevels (pairHash C) fuel (levelUp (pairHash C) (level.take n))).head? =
      some (rebuildLoop C fuel level n) := by
  intro fuel
  induction fuel with
  | zero =>
    intro _ n positive _ small
    omega
  | succ fuel ih =>
    intro level n positive inside small
    obtain ⟨length, _, _⟩ := hashRound_written C level inside ((n + 1) / 2) (Nat.le_refl _)
    have taken : ((hashRound C level n ((n + 1) / 2)).take ((n + 1) / 2)).length = (n + 1) / 2 := by
      rw [length_take]
      omega
    rw [← hashRound_take C level inside, climbLevels, rebuildLoop, taken]
    by_cases wide : 1 < (n + 1) / 2
    · rw [if_neg (by omega), if_pos wide]
      exact ih _ _ (by omega) (by omega) (by omega)
    · rw [if_pos (by omega), if_neg wide, head?_take, if_neg (by omega), head?_eq_getElem?,
        getD_eq_getElem?_getD, getElem?_eq_getElem (show 0 < _ by omega)]
      rfl

theorem rebuildMerkleRoot_root {leaves : List β} (nonempty : leaves ≠ []) :
    root (pairHash C) leaves = some (rebuildMerkleRoot C leaves) := by
  have positive := List.length_pos_iff.mpr nonempty
  have climbs := rebuildLoop_climbs C leaves.length leaves leaves.length positive (Nat.le_refl _) (Nat.le_refl _)
  rw [take_length] at climbs
  rw [root, climbs, rebuildMerkleRoot, if_neg (by omega)]

end Palimesh.Settlement
