import Palimesh.Chain.Engine

namespace Palimesh.Chain

open List

variable (order : String → String → Prop) [DecidableRel order]

def normalized (validators : List String) : List String := (validators.map toLowerCase).eraseDups.insertionSort order

def record (entries : List ValidatorSetEra) (fromHeight : Int) (validators : List String) : List ValidatorSetEra :=
  let era : ValidatorSetEra := ⟨fromHeight, normalized order validators⟩
  if era.validators = [] then entries
  else if entries.getLast?.map ValidatorSetEra.validators = some era.validators then entries
  else ((entries.filter fun e => e.fromHeight ≠ fromHeight) ++ [era]).insertionSort fun a b => a.fromHeight ≤ b.fromHeight

/-- The schedule after membership sets were recorded one after the other, each at its height. -/
def recorded (changes : List (Int × List String)) : List ValidatorSetEra :=
  changes.foldl (fun entries change => record order entries change.1 change.2) []

def begun (entries : List ValidatorSetEra) (height : Int) : List ValidatorSetEra :=
  entries.takeWhile fun era => era.fromHeight ≤ height

def keepSet (sets : List (List String)) (validators : List String) : List (List String) :=
  if normalized order validators = [] then sets
  else if sets.getLast? = some (normalized order validators) then sets
  else sets ++ [normalized order validators]

variable {order} {entries : List ValidatorSetEra} {height : Int}

theorem recorded_sets {changes : List (Int × List String)} (ascending : changes.Pairwise fun a b => a.1 < b.1) :
    (recorded order changes).map ValidatorSetEra.validators = (changes.map Prod.snd).foldl (keepSet order) [] ∧
      (recorded order changes).map ValidatorSetEra.fromHeight <+ changes.map Prod.fst := by
  induction changes using reverseRecOn with
  | nil => exact ⟨rfl, .slnil⟩
  | append_singleton changes change ih =>
    obtain ⟨sets, heights⟩ := ih (pairwise_append.mp ascending).1
    have longer := heights.append (.refl [change.1])
    have rising : Pairwise (fun a b : ValidatorSetEra => a.fromHeight < b.fromHeight)
        (recorded order changes ++ [⟨change.1, normalized order change.2⟩]) := by
      rw [← pairwise_map (f := ValidatorSetEra.fromHeight), map_append]
      rw [← pairwise_map (f := Prod.fst), map_append] at ascending
      exact ascending.sublist longer
    have kept := heights.trans ((sublist_append_left changes [change]).map Prod.fst)
    rw [recorded, foldl_append, foldl_cons, foldl_nil, ← recorded, map_append, foldl_append, ← sets, map_singleton,
      foldl_cons, foldl_nil]
    unfold record keepSet
    rw [getLast?_map]
    dsimp only
    split
    · exact ⟨rfl, kept⟩
    · split
      · exact ⟨rfl, kept⟩
      · rw [filter_eq_self.mpr fun era member => decide_eq_true
            (Int.ne_of_lt ((pairwise_append.mp rising).2.2 era member _ (mem_singleton_self _))),
          (rising.imp Int.le_of_lt).insertionSort_eq, map_append, map_append, map_append]
        exact ⟨rfl, longer⟩

theorem mem_allowedAt {allowed : List String} (known : allowedAt entries height = some allowed) {era : ValidatorSetEra}
    {i : Nat} (found : entries[i]? = some era)
    (near : i ≤ (begun entries height).length ∧ (begun entries height).length ≤ i + 2) {proposer : String}
    (member : proposer ∈ era.validators) : proposer ∈ allowed := by
  unfold allowedAt at known
  split at known
  · cases known
  · rename_i oldest later
    split at known
    · cases known
    · rename_i reached
      have started : 0 < (begun (oldest :: later) height).length := by
        rw [begun, takeWhile_cons, if_pos (decide_eq_true (Int.not_lt.mp reached))]
        exact Nat.succ_pos _
      unfold begun at near started
      cases known
      generalize (takeWhile _ (oldest :: later)).length = n at near started
      refine mem_flatMap.mpr ⟨era, ?_, member⟩
      rw [List.mem_append, List.mem_append]
      -- the era is the one before, the one in force or the one after
      rcases (by omega : i + 2 = n ∨ i + 1 = n ∨ i = n) with rfl | rfl | rfl
      · rw [if_neg (by omega)]
        exact .inl (.inl (Option.mem_toList.mpr found))
      · exact .inl (.inr (Option.mem_toList.mpr found))
      · rw [Nat.sub_add_cancel started]
        exact .inr (Option.mem_toList.mpr found)

def rotation (heights : List Int) : List (Int × List String) := heights.zip [["a"], ["b"], ["c"], ["d"]]

end Palimesh.Chain
