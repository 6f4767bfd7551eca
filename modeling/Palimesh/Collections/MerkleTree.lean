import Mathlib

namespace Collections.MerkleTree

open List Function Option

variable {α : Type} (combine : α → α → α)

/-- One level up: neighbours are combined, an odd last node with itself. -/
def levelUp : List α → List α
  | [] => []
  | [last] => [combine last last]
  | left :: right :: rest => combine left right :: levelUp rest

theorem length_levelUp : ∀ level : List α, (levelUp combine level).length = (level.length + 1) / 2
  | [] => by simp [levelUp]
  | [_] => by simp [levelUp]
  | _ :: _ :: rest => by
    rw [levelUp, length_cons, length_levelUp rest]
    simp only [length_cons]
    omega

theorem getElem?_levelUp : ∀ (level : List α) (i : Nat),
    (levelUp combine level)[i]? =
      level[2 * i]?.map fun left => combine left (level[2 * i + 1]?.getD left)
  | [], i => by simp [levelUp]
  | [last], i => by
    cases i with
    | zero => rfl
    | succ i => simp [levelUp]
  | left :: right :: rest, i => by
    cases i with
    | zero => rfl
    | succ i =>
      have twice : 2 * (i + 1) = 2 * i + 2 := by omega
      rw [levelUp, twice]
      simpa using getElem?_levelUp rest i

variable {node : α}

theorem mem_levelUp : ∀ {level : List α}, node ∈ levelUp combine level →
    ∃ left ∈ level, ∃ right ∈ level, node = combine left right
  | [], member => by cases member
  | [last], member => by
    simp only [levelUp, mem_singleton] at member
    exact ⟨last, by simp, last, by simp, member⟩
  | left :: right :: rest, member => by
    rcases List.mem_cons.mp member with here | below
    · exact ⟨left, by simp, right, by simp, here⟩
    · obtain ⟨l, inLeft, r, inRight, same⟩ := mem_levelUp below
      exact ⟨l, by simp [inLeft], r, by simp [inRight], same⟩

theorem pair_levelUp : ∀ {level : List α}, node ∈ level →
    ∃ other, combine node other ∈ levelUp combine level ∨ combine other node ∈ levelUp combine level
  | [], member => by cases member
  | [last], member => by
    obtain rfl := List.mem_singleton.mp member
    exact ⟨node, .inl (by simp [levelUp])⟩
  | left :: right :: rest, member => by
    simp only [mem_cons] at member
    rcases member with rfl | rfl | below
    · exact ⟨right, .inl (by simp [levelUp])⟩
    · exact ⟨left, .inr (by simp [levelUp])⟩
    · obtain ⟨other, above⟩ := pair_levelUp below
      exact ⟨other, above.imp (mem_cons_of_mem _) (mem_cons_of_mem _)⟩

def climbLevels : Nat → List α → List α
  | 0, level => level
  | fuel + 1, level => if level.length ≤ 1 then level else climbLevels fuel (levelUp combine level)

theorem length_climbLevels : ∀ {fuel : Nat} {level : List α}, level ≠ [] → level.length ≤ fuel + 1 →
    (climbLevels combine fuel level).length = 1
  | 0, level, nonempty, small => by
    have positive := List.length_pos_iff.mpr nonempty
    simp only [climbLevels]
    omega
  | fuel + 1, level, nonempty, small => by
    have positive := List.length_pos_iff.mpr nonempty
    rw [climbLevels]
    split
    · omega
    · rename_i wide
      have halved := length_levelUp combine level
      have above : levelUp combine level ≠ [] := by
        apply List.length_pos_iff.mp
        omega
      exact length_climbLevels above (by omega)

theorem climbLevels_iterate : ∀ (fuel : Nat) (level : List α),
    ∃ rounds, climbLevels combine fuel level = (levelUp combine)^[rounds] level
  | 0, level => ⟨0, rfl⟩
  | fuel + 1, level => by
    rw [climbLevels]
    split
    · exact ⟨0, rfl⟩
    · obtain ⟨rounds, same⟩ := climbLevels_iterate fuel (levelUp combine level)
      exact ⟨rounds + 1, same⟩

def climb (leaf : α) (siblings : List α) : α := siblings.foldl combine leaf

theorem climb_append (leaf : α) (siblings : List α) (last : α) :
    climb combine leaf (siblings ++ [last]) = combine (climb combine leaf siblings) last := by
  rw [climb, foldl_append, climb]
  rfl

def sibling (level : List α) (position : Nat) (node : α) : α :=
  level[if position % 2 = 0 then position + 1 else position - 1]?.getD node

variable {level : List α}

theorem levelUp_sibling {position : Nat} (here : level[position]? = some node) :
    (levelUp combine level)[position / 2]? = some (if position % 2 = 0 then combine node (sibling level position node)
      else combine (sibling level position node) node) := by
  rw [getElem?_levelUp]
  rcases Nat.mod_two_eq_zero_or_one position with even | odd
  · have half : 2 * (position / 2) = position := by omega
    rw [half, here, sibling, if_pos even, if_pos even]
    rfl
  · have half : 2 * (position / 2) = position - 1 := by omega
    have next : position - 1 + 1 = position := by omega
    have inside : position < level.length := (List.getElem?_eq_some_iff.mp here).1
    have before : level[position - 1]? = some level[position - 1] := getElem?_eq_getElem (by omega)
    have notEven : ¬ position % 2 = 0 := by omega
    rw [half, next, here, sibling, if_neg notEven, if_neg notEven, before]
    rfl

/-- The root over some leaves: at least one round, so that a single leaf is combined with itself. -/
def root (leaves : List α) : Option α := (climbLevels combine leaves.length (levelUp combine leaves)).head?

variable {top : α}

theorem mem_of_root {leaves : List α} (isRoot : root combine leaves = some top) :
    ∃ rounds, top ∈ (levelUp combine)^[rounds] leaves := by
  obtain ⟨rounds, same⟩ := climbLevels_iterate combine leaves.length (levelUp combine leaves)
  refine ⟨rounds + 1, ?_⟩
  rw [iterate_succ_apply, ← same]
  exact mem_of_head? isRoot

theorem ne_nil_of_root {leaves : List α} (isRoot : root combine leaves = some top) : leaves ≠ [] := by
  rintro rfl
  cases isRoot

theorem iterate_of_root {leaves : List α} (isRoot : root combine leaves = some top) :
    ∃ rounds, (levelUp combine)^[rounds] leaves = [top] := by
  have positive := List.length_pos_iff.mpr (ne_nil_of_root combine isRoot)
  have halved := length_levelUp combine leaves
  have above : levelUp combine leaves ≠ [] := by
    apply List.length_pos_iff.mp
    omega
  have single := length_climbLevels combine above (show _ ≤ leaves.length + 1 by omega)
  obtain ⟨only, climbed⟩ := List.length_eq_one_iff.mp single
  obtain ⟨rounds, same⟩ := climbLevels_iterate combine leaves.length (levelUp combine leaves)
  rw [root, climbed] at isRoot
  cases isRoot
  exact ⟨rounds + 1, same.symm.trans climbed⟩

def Inside (leaves : List α) (top node : α) : Prop :=
  ∃ rounds more, node ∈ (levelUp combine)^[rounds] leaves ∧ (levelUp combine)^[more + rounds] leaves = [top]

variable {rounds : Nat}

theorem inside_of_iterate {leaves : List α} {height : Nat}
    (isTop : (levelUp combine)^[height] leaves = [top]) (low : rounds ≤ height)
    (member : node ∈ (levelUp combine)^[rounds] leaves) : Inside combine leaves top node :=
  ⟨rounds, height - rounds, member, by rw [Nat.sub_add_cancel low, isTop]⟩

variable {leaf : α} {siblings : List α}

/-- A value from which siblings lead into a level is a leaf, if neither is a combination. The verifier may order
    a pair differently. -/
theorem mem_of_climb {verifier : α → α → α}
    (injective : ∀ {a b c d : α}, verifier a b = combine c d → (a = c ∧ b = d) ∨ (a = d ∧ b = c)) {leaves : List α}
    (leavesBare : ∀ l ∈ leaves, ∀ a b, l ≠ verifier a b) (bare : ∀ a b, leaf ≠ combine a b)
    (reaches : climb verifier leaf siblings ∈ (levelUp combine)^[rounds] leaves) :
    leaf ∈ leaves := by
  -- From the top down: the last sibling combines two nodes of the level below.
  induction siblings using List.reverseRecOn generalizing rounds with
  | nil =>
    cases rounds with
    | zero => exact reaches
    | succ rounds =>
      rw [iterate_succ_apply'] at reaches
      obtain ⟨a, _, b, _, same⟩ := mem_levelUp combine reaches
      exact absurd same (bare a b)
  | append_singleton siblings last ih =>
    rw [climb_append] at reaches
    cases rounds with
    | zero => exact absurd rfl (leavesBare _ reaches _ _)
    | succ rounds =>
      rw [iterate_succ_apply'] at reaches
      obtain ⟨a, inLeft, b, inRight, same⟩ := mem_levelUp combine reaches
      rcases injective same with ⟨rfl, _⟩ | ⟨rfl, _⟩
      · exact ih inLeft
      · exact ih inRight

section Binding

variable {combine} (injective : ∀ {a b c d : α}, combine a b = combine c d → (a = c ∧ b = d) ∨ (a = d ∧ b = c))

include injective

theorem subset_of_levelUp {level' : List α} (above : levelUp combine level ⊆ levelUp combine level') :
    level ⊆ level' := by
  intro node member
  obtain ⟨other, paired⟩ := pair_levelUp combine member
  rcases paired with left | right
  · obtain ⟨a, inLeft, b, inRight, same⟩ := mem_levelUp combine (above left)
    rcases injective same with ⟨rfl, -⟩ | ⟨rfl, -⟩
    · exact inLeft
    · exact inRight
  · obtain ⟨a, inLeft, b, inRight, same⟩ := mem_levelUp combine (above right)
    rcases injective same with ⟨-, rfl⟩ | ⟨-, rfl⟩
    · exact inRight
    · exact inLeft

variable {leaves leaves' : List α}

theorem subset_of_rounds {more : Nat}
    (above : (levelUp combine)^[rounds] leaves ⊆ (levelUp combine)^[more + rounds] leaves') :
    leaves ⊆ (levelUp combine)^[more] leaves' := by
  induction rounds with
  | zero => exact above
  | succ rounds ih =>
    rw [iterate_succ_apply', ← add_assoc, iterate_succ_apply'] at above
    exact ih (subset_of_levelUp injective above)

theorem rounds_le (nonempty : leaves ≠ []) (bare : ∀ l ∈ leaves, ∀ a b, l ≠ combine a b) {rounds' : Nat}
    (same : (levelUp combine)^[rounds] leaves = (levelUp combine)^[rounds'] leaves') : rounds' ≤ rounds := by
  by_contra less
  obtain ⟨extra, rfl⟩ : ∃ extra, rounds' = extra + 1 + rounds := ⟨rounds' - rounds - 1, by omega⟩
  have inside := subset_of_rounds injective (fun node member => same ▸ member)
  obtain ⟨leaf, rest, rfl⟩ := exists_cons_of_ne_nil nonempty
  have combined := inside mem_cons_self
  rw [iterate_succ_apply'] at combined
  obtain ⟨a, -, b, -, isPair⟩ := mem_levelUp combine combined
  exact bare leaf mem_cons_self a b isPair

theorem subset_of_top (nonempty : leaves ≠ []) (nonempty' : leaves' ≠ [])
    (bare : ∀ l ∈ leaves, ∀ a b, l ≠ combine a b) (bare' : ∀ l ∈ leaves', ∀ a b, l ≠ combine a b) {rounds' : Nat}
    (same : (levelUp combine)^[rounds] leaves = (levelUp combine)^[rounds'] leaves') : leaves ⊆ leaves' := by
  have lower := rounds_le injective nonempty bare same
  have upper := rounds_le injective nonempty' bare' same.symm
  obtain rfl := le_antisymm upper lower
  have inside : leaves ⊆ (levelUp combine)^[0] leaves' := by
    apply subset_of_rounds injective
    intro node member
    rw [zero_add, ← same]
    exact member
  exact inside

/-- The root of distinct leaves that are no combinations determines them up to their order. -/
theorem perm_of_root (isRoot : root combine leaves = some top) (isRoot' : root combine leaves' = some top)
    (bare : ∀ l ∈ leaves, ∀ a b, l ≠ combine a b) (bare' : ∀ l ∈ leaves', ∀ a b, l ≠ combine a b)
    (distinct : leaves.Nodup) (distinct' : leaves'.Nodup) : leaves.Perm leaves' := by
  obtain ⟨rounds, level⟩ := iterate_of_root combine isRoot
  obtain ⟨rounds', level'⟩ := iterate_of_root combine isRoot'
  have nonempty := ne_nil_of_root combine isRoot
  have nonempty' := ne_nil_of_root combine isRoot'
  have same := level.trans level'.symm
  apply (perm_ext_iff_of_nodup distinct distinct').mpr
  intro leaf
  constructor
  · exact fun member => subset_of_top injective nonempty nonempty' bare bare' same member
  · exact fun member => subset_of_top injective nonempty' nonempty bare' bare same.symm member

end Binding

section Positions

/-- What of injectivity is needed for one tree only: its inner nodes, up to some height, are combinations
    of one pair, its leaves are no combinations, and there are no two equal ones. -/
structure Separates (leaves : List α) (height : Nat) : Prop where
  pairs : ∀ {rounds : Nat} {a b c d : α}, rounds < height → combine c d ∈ (levelUp combine)^[rounds + 1] leaves →
    combine a b = combine c d → (a = c ∧ b = d) ∨ (a = d ∧ b = c)
  bare : ∀ leaf ∈ leaves, ∀ a b, leaf ≠ combine a b
  distinct : leaves.Nodup

variable {combine} {leaves : List α} {height : Nat}

theorem exists_below {i : Nat} (here : (levelUp combine level)[i]? = some node) :
    ∃ left, level[2 * i]? = some left ∧ node = combine left (level[2 * i + 1]?.getD left) := by
  rw [getElem?_levelUp, map_eq_some_iff] at here
  obtain ⟨left, below, same⟩ := here
  exact ⟨left, below, same.symm⟩

theorem half_of_below (distinct : level.Nodup) {i position : Nat} {left : α} (below : level[2 * i]? = some left)
    (here : level[position]? = some node) (child : node = left ∨ node = level[2 * i + 1]?.getD left) :
    position / 2 = i := by
  have inside := (List.getElem?_eq_some_iff.mp here).1
  have first : node = left → position / 2 = i := by
    rintro rfl
    have same := (getElem?_inj inside distinct).mp (here.trans below.symm)
    omega
  rcases child with isLeft | isRight
  · exact first isLeft
  · cases next : level[2 * i + 1]? with
    | none =>
      rw [next] at isRight
      exact first isRight
    | some right =>
      rw [next] at isRight
      have same := (getElem?_inj inside distinct).mp (here.trans ((congrArg some isRight).trans next.symm))
      omega

theorem mem_of_below {i : Nat} {left : α} (below : level[2 * i]? = some left)
    (child : node = left ∨ node = level[2 * i + 1]?.getD left) : node ∈ level := by
  rcases child with rfl | rfl
  · exact mem_of_getElem? below
  · cases next : level[2 * i + 1]? with
    | none => exact mem_of_getElem? below
    | some right => exact mem_of_getElem? next

variable (separates : Separates combine leaves height)
include separates

theorem Separates.nodup (low : rounds ≤ height) : ((levelUp combine)^[rounds] leaves).Nodup := by
  induction rounds with
  | zero => exact separates.distinct
  | succ rounds ih =>
    have distinct := ih (Nat.le_of_succ_le low)
    apply List.nodup_iff_getElem?_ne_getElem?.mpr
    intro i j less inside same
    rw [iterate_succ_apply'] at inside same
    have there := getElem?_eq_getElem inside
    obtain ⟨c, belowC, nodeC⟩ := exists_below there
    obtain ⟨a, belowA, nodeA⟩ := exists_below (same.trans there)
    have member := getElem_mem inside
    rw [nodeC, ← iterate_succ_apply' (levelUp combine)] at member
    have half : (2 * i) / 2 = j := by
      refine half_of_below distinct belowC belowA ?_
      exact (separates.pairs low member (nodeA.symm.trans nodeC)).imp And.left And.left
    omega

theorem Separates.mem_below {last : α} (low : rounds < height)
    (member : combine node last ∈ (levelUp combine)^[rounds + 1] leaves) :
    node ∈ (levelUp combine)^[rounds] leaves := by
  obtain ⟨i, here⟩ := getElem?_of_mem member
  rw [iterate_succ_apply'] at here
  obtain ⟨left, below, same⟩ := exists_below here
  exact mem_of_below below ((separates.pairs low (same ▸ member) same).imp And.left And.left)

/-- Siblings that lead from a leaf into a level are as many as the level is high, and lead to the node
    over the leaf's position. -/
theorem Separates.position (outer : ∀ rounds < height, leaf ∉ (levelUp combine)^[rounds + 1] leaves)
    (low : rounds ≤ height)
    (reaches : climb combine leaf siblings ∈ (levelUp combine)^[rounds] leaves) :
    siblings.length = rounds ∧ ∃ position, leaves[position]? = some leaf ∧
      ((levelUp combine)^[rounds] leaves)[position / 2 ^ rounds]? = some (climb combine leaf siblings) := by
  induction siblings using List.reverseRecOn generalizing rounds with
  | nil =>
    cases rounds with
    | zero =>
      obtain ⟨position, here⟩ := getElem?_of_mem reaches
      exact ⟨rfl, position, here, by simpa using here⟩
    | succ rounds => exact absurd reaches (outer rounds low)
  | append_singleton siblings last ih =>
    rw [climb_append] at reaches ⊢
    cases rounds with
    | zero => exact absurd rfl (separates.bare _ reaches _ _)
    | succ rounds =>
      obtain ⟨q, here⟩ := getElem?_of_mem reaches
      rw [iterate_succ_apply'] at here
      obtain ⟨left, below, node⟩ := exists_below here
      have child := (separates.pairs low (node ▸ reaches) node).imp And.left And.left
      obtain ⟨length, position, start, above⟩ := ih (Nat.le_of_succ_le low) (separates.mem_below low reaches)
      have half := half_of_below (separates.nodup (Nat.le_of_succ_le low)) below above child
      refine ⟨by rw [length_append, length, length_singleton], position, start, ?_⟩
      rw [Nat.pow_succ, ← Nat.div_div_eq_div_mul, half, iterate_succ_apply']
      exact here

theorem Separates.climb_unique (outer : ∀ rounds < height, leaf ∉ (levelUp combine)^[rounds + 1] leaves)
    {siblings' : List α} (low : rounds ≤ height)
    (reaches : climb combine leaf siblings ∈ (levelUp combine)^[rounds] leaves)
    (reaches' : climb combine leaf siblings' ∈ (levelUp combine)^[rounds] leaves) : siblings = siblings' := by
  induction rounds generalizing siblings siblings' with
  | zero =>
    have none := (separates.position outer low reaches).1
    have none' := (separates.position outer low reaches').1
    rw [List.length_eq_zero_iff.mp none, List.length_eq_zero_iff.mp none']
  | succ rounds ih =>
    obtain ⟨length, position, start, above⟩ := separates.position outer low reaches
    obtain ⟨length', position', start', above'⟩ := separates.position outer low reaches'
    have inside := (List.getElem?_eq_some_iff.mp start).1
    obtain rfl := (getElem?_inj inside separates.distinct).mp (start.trans start'.symm)
    have top := Option.some.inj (above.symm.trans above')
    rcases eq_nil_or_concat' siblings with rfl | ⟨before, last, rfl⟩
    · cases length
    rcases eq_nil_or_concat' siblings' with rfl | ⟨before', last', rfl⟩
    · cases length'
    rw [climb_append] at reaches reaches' top
    rw [climb_append] at top
    obtain rfl := ih (Nat.le_of_succ_le low) (separates.mem_below low reaches) (separates.mem_below low reaches')
    rcases separates.pairs low reaches' top with ⟨-, same⟩ | ⟨first, second⟩
    · rw [same]
    · rw [second, ← first]

end Positions

def levels : Nat → List α → List (List α)
  | 0, level => [level]
  | fuel + 1, level => if level.length ≤ 1 then [level] else level :: levels fuel (levelUp combine level)

theorem levels_ne_nil : ∀ (fuel : Nat) (level : List α), levels combine fuel level ≠ []
  | 0, _ => cons_ne_nil _ _
  | fuel + 1, level => by
    rw [levels]
    split <;> exact cons_ne_nil _ _

theorem getLast_levels : ∀ (fuel : Nat) (level : List α),
    (levels combine fuel level).getLast? = some (climbLevels combine fuel level)
  | 0, _ => rfl
  | fuel + 1, level => by
    rw [levels, climbLevels]
    split
    · rfl
    · rw [getLast?_cons, getLast_levels fuel, getD_some]

def path (absent : α) : List (List α) → Nat → List α
  | level :: above :: rest, position =>
    sibling level position (level.getD position absent) :: path absent (above :: rest) (position / 2)
  | _, _ => []

theorem eq_singleton {position : Nat} (here : level[position]? = some node) (narrow : level.length ≤ 1) :
    level = [node] := by
  obtain ⟨inside, rfl⟩ := List.getElem?_eq_some_iff.mp here
  obtain ⟨only, rfl⟩ := List.length_eq_one_iff.mp (show level.length = 1 by omega)
  simp

theorem climb_path (symmetric : ∀ a b, combine a b = combine b a) (absent : α) : ∀ (fuel : Nat) (level : List α)
    (position : Nat) (node : α), level[position]? = some node → level.length ≤ fuel + 1 →
    climbLevels combine fuel level = [climb combine node (path absent (levels combine fuel level) position)] := by
  intro fuel
  induction fuel with
  | zero =>
    intro level position node here small
    rw [eq_singleton here small]
    rfl
  | succ fuel ih =>
    intro level position node here small
    rw [climbLevels, levels]
    by_cases narrow : level.length ≤ 1
    · rw [eq_singleton here narrow]
      rfl
    · have halved := length_levelUp combine level
      have shown : level.getD position absent = node := by
        rw [getD_eq_getElem?_getD, here, getD_some]
      have half := levelUp_sibling combine here
      rw [symmetric (sibling _ _ _), ite_self] at half
      have climbed := ih _ _ _ half (by omega)
      obtain ⟨above, rest, unfolded⟩ := exists_cons_of_ne_nil (levels_ne_nil combine fuel (levelUp combine level))
      rw [if_neg narrow, if_neg narrow, climbed, unfolded, path, shown]
      rfl

section Map

variable {γ : Type} {combine} {combine' : γ → γ → γ} {f : α → γ} {good : α → Prop}

theorem forall_levelUp (closed : ∀ a b, good a → good b → good (combine a b)) (all : ∀ node ∈ level, good node) :
    ∀ node ∈ levelUp combine level, good node := by
  intro node member
  obtain ⟨left, inLeft, right, inRight, rfl⟩ := mem_levelUp combine member
  exact closed _ _ (all left inLeft) (all right inRight)

theorem forall_climbLevels (closed : ∀ a b, good a → good b → good (combine a b)) : ∀ (fuel : Nat) {level : List α},
    (∀ node ∈ level, good node) → ∀ node ∈ climbLevels combine fuel level, good node
  | 0, _, all => all
  | fuel + 1, level, all => by
    rw [climbLevels]
    split
    · exact all
    · exact forall_climbLevels closed fuel (forall_levelUp closed all)

variable (homomorphic : ∀ a b, good a → good b → f (combine a b) = combine' (f a) (f b))

include homomorphic

theorem map_levelUp : ∀ {level : List α}, (∀ node ∈ level, good node) →
    (levelUp combine level).map f = levelUp combine' (level.map f)
  | [], _ => by simp [levelUp]
  | [last], all => by
    have here := all last (by simp)
    simp [levelUp, homomorphic _ _ here here]
  | left :: right :: rest, all => by
    simp only [forall_mem_cons] at all
    simp only [levelUp, map_cons, homomorphic _ _ all.1 all.2.1, map_levelUp all.2.2]

variable (closed : ∀ a b, good a → good b → good (combine a b))

include closed

theorem map_climbLevels : ∀ (fuel : Nat) {level : List α}, (∀ node ∈ level, good node) →
    (climbLevels combine fuel level).map f = climbLevels combine' fuel (level.map f)
  | 0, _, _ => rfl
  | fuel + 1, level, all => by
    rw [climbLevels, climbLevels, length_map]
    split
    · rfl
    · rw [map_climbLevels fuel (forall_levelUp closed all), map_levelUp homomorphic all]

theorem map_levels : ∀ (fuel : Nat) {level : List α}, (∀ node ∈ level, good node) →
    (levels combine fuel level).map (List.map f) = levels combine' fuel (level.map f)
  | 0, _, _ => rfl
  | fuel + 1, level, all => by
    rw [levels, levels, length_map]
    split
    · rfl
    · rw [map_cons, map_levels fuel (forall_levelUp closed all), map_levelUp homomorphic all]

end Map

theorem map_path {γ : Type} (f : α → γ) (absent : α) : ∀ (levels : List (List α)) (position : Nat),
    (path absent levels position).map f = path (f absent) (levels.map (List.map f)) position
  | [], _ => rfl
  | [_], _ => rfl
  | level :: above :: rest, position => by
    have shown : (level.map f).getD position (f absent) = f (level.getD position absent) := by
      rw [getD_eq_getElem?_getD, getD_eq_getElem?_getD, getElem?_map, Option.getD_map]
    simp only [path, map_cons, shown, sibling, getElem?_map, Option.getD_map]
    rw [map_path f absent (above :: rest)]
    rfl

end Collections.MerkleTree
