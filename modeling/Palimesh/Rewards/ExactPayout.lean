import Palimesh.Collections.Apportionment
import Palimesh.Rewards.RewardManifest

namespace Palimesh.Rewards

open Collections Aggregator Settlement List ScaledLeaf

/-- A node id in hex of either case: an address, or thirty-two bytes. -/
structure IsNodeId (nodeId : Text) : Prop where
  start : (lowerCase nodeId).take 2 = ['0', 'x']
  width : ((lowerCase nodeId).drop 2).length = 40 ∨ ((lowerCase nodeId).drop 2).length = 64
  hex : ∀ c ∈ (lowerCase nodeId).drop 2, c ∈ hexChars

structure RewardManifest.Valid (manifest : RewardManifest) : Prop where
  ids : ∀ leaf ∈ manifest.leaves, IsNodeId leaf.nodeId
  nonneg : ∀ leaf ∈ manifest.leaves, 0 ≤ leaf.amount
  adds : (manifest.leaves.map RewardLeafEntry.amount).sum = manifest.totalReward
  distinct : (manifest.leaves.map fun leaf => toBytes32NodeId leaf.nodeId).Nodup

variable {collation : Collation} {manifest : RewardManifest} {budget : Int} {scaled : List ScaledLeaf}

section Scaling

/-- Amounts that divide a budget over a manifest's leaves: exactly, each within one of its share and at most what
    it was, and not less for a larger leaf. -/
structure Scaled (manifest : RewardManifest) (budget : Int) (scaled : List ScaledLeaf) : Prop where
  same : (scaled.map fun s => (⟨s.nodeId, s.rawAmount⟩ : RewardLeafEntry)) = manifest.leaves
  adds : (scaled.map ScaledLeaf.amount).sum = budget
  bounded : ∀ s ∈ scaled, 0 ≤ s.amount ∧ s.amount ≤ s.rawAmount
  near : ∀ s ∈ scaled, s.rawAmount * budget ≤ (s.amount + 1) * manifest.totalReward ∧
    s.amount * manifest.totalReward ≤ s.rawAmount * budget + manifest.totalReward
  monotone : ∀ s ∈ scaled, ∀ s' ∈ scaled, s'.rawAmount < s.rawAmount → s'.amount ≤ s.amount

def raised (ranked : List (ScaledLeaf × Nat)) (count : Nat) : List Nat :=
  ((ranked.filter fun entry => decide (0 < entry.1.rawAmount)).take count).map Prod.snd

theorem addRemainder_eq (ranked : List (ScaledLeaf × Nat)) {count : Nat} (positive : 0 < count) (leaves : List ScaledLeaf) :
    addRemainder ranked count leaves = Apportionment.raise increment leaves (raised ranked count) := by
  induction ranked generalizing count leaves with
  | nil => simp [addRemainder, raised]
  | cons entry ranked ih =>
    obtain ⟨leaf, i⟩ := entry
    unfold addRemainder raised
    by_cases skipped : leaf.rawAmount ≤ 0
    · rw [if_pos skipped, filter_cons_of_neg (by simpa using skipped)]
      exact ih positive leaves
    · obtain ⟨rest, rfl⟩ := Nat.exists_eq_add_of_lt positive
      rw [if_neg skipped, filter_cons_of_pos (by simpa using skipped)]
      have more : ((0 + rest + 1 : Nat) : Int) - 1 = rest := by push_cast; omega
      rw [more, zero_add, take_succ_cons, map_cons, Apportionment.raise_cons]
      by_cases last : rest = 0
      · subst last
        simp
      · rw [if_neg (by omega)]
        exact ih (Nat.pos_of_ne_zero last) _

section Ranking

variable {leaves : List ScaledLeaf} {count i j : Nat}

def ranking (collation : Collation) (leaves : List ScaledLeaf) : List (ScaledLeaf × Nat) :=
  leaves.zipIdx.mergeSort fun a b => collation.ranks a.1 b.1

theorem ranks_trans (collation : Collation) (a b c : ScaledLeaf) (ab : collation.ranks a b = true)
    (bc : collation.ranks b c = true) : collation.ranks a c = true := by
  unfold Collation.ranks at *
  split at ab <;> split at bc
  · rename_i first second
    rw [if_pos (first.trans second)]
    exact collation.trans _ _ _ ab bc
  · rename_i first second
    rw [if_neg (by omega), first]
    exact bc
  · rename_i first second
    rw [if_neg (by omega), ← second]
    exact ab
  · have ab := of_decide_eq_true ab
    have bc := of_decide_eq_true bc
    rw [if_neg (by omega)]
    exact decide_eq_true (by omega)

theorem ranks_total (collation : Collation) (a b : ScaledLeaf) :
    (collation.ranks a b || collation.ranks b a) = true := by
  unfold Collation.ranks
  by_cases same : a.rawAmount = b.rawAmount
  · rw [if_pos same, if_pos same.symm, Bool.or_eq_true]
    exact collation.total _ _
  · rw [if_neg same, if_neg (Ne.symm same), Bool.or_eq_true, decide_eq_true_iff, decide_eq_true_iff]
    omega

theorem ranking_pairwise (collation : Collation) (leaves : List ScaledLeaf) :
    (ranking collation leaves).Pairwise fun a b => collation.ranks a.1 b.1 = true :=
  pairwise_mergeSort (fun a b c => ranks_trans collation a.1 b.1 c.1) (fun a b => ranks_total collation a.1 b.1) _

theorem mem_ranking {leaf : ScaledLeaf} : (leaf, i) ∈ ranking collation leaves ↔ leaves[i]? = some leaf := by
  rw [ranking, (mergeSort_perm _ _).mem_iff, mem_zipIdx_iff_getElem?]

theorem raised_nodup : (raised (ranking collation leaves) count).Nodup := by
  have order : ((ranking collation leaves).map Prod.snd).Perm (List.range' 0 leaves.length) := by
    rw [← zipIdx_map_snd]
    exact (mergeSort_perm _ _).map _
  have sub : (raised (ranking collation leaves) count).Sublist ((ranking collation leaves).map Prod.snd) :=
    ((take_sublist _ _).trans filter_sublist).map _
  exact sub.nodup (order.nodup_iff.mpr nodup_range')

theorem mem_raised (member : i ∈ raised (ranking collation leaves) count) :
    ∃ leaf, leaves[i]? = some leaf ∧ 0 < leaf.rawAmount ∧
      (leaf, i) ∈ ((ranking collation leaves).filter fun entry => decide (0 < entry.1.rawAmount)).take count := by
  obtain ⟨⟨leaf, position⟩, early, rfl⟩ := List.mem_map.mp member
  obtain ⟨ranked, counts⟩ := List.mem_filter.mp (mem_of_mem_take early)
  exact ⟨leaf, mem_ranking.mp ranked, of_decide_eq_true counts, early⟩

theorem length_raised (enough : count ≤ (leaves.map rawAmount).countP (0 < ·)) :
    (raised (ranking collation leaves) count).length = count := by
  have counted : ((ranking collation leaves).filter fun entry => decide (0 < entry.1.rawAmount)).length =
      (leaves.map rawAmount).countP (0 < ·) := by
    rw [← countP_eq_length_filter, ranking, (mergeSort_perm _ _).countP_eq]
    conv => rhs; rw [← zipIdx_map_fst 0 leaves]
    rw [map_map, countP_map]
    rfl
  rw [raised, length_map, length_take, counted]
  omega

theorem raised_of_lt {small large : ScaledLeaf} (member : i ∈ raised (ranking collation leaves) count)
    (first : leaves[i]? = some small) (second : leaves[j]? = some large) (less : small.rawAmount < large.rawAmount) :
    j ∈ raised (ranking collation leaves) count := by
  obtain ⟨leaf, here, positive, early⟩ := mem_raised member
  obtain rfl := Option.some.inj (here.symm.trans first)
  have counts : (large, j) ∈ (ranking collation leaves).filter fun entry => decide (0 < entry.1.rawAmount) :=
    List.mem_filter.mpr ⟨mem_ranking.mpr second, decide_eq_true (Int.lt_trans positive less)⟩
  by_contra late
  have behind : (large, j) ∉ ((ranking collation leaves).filter fun entry => decide (0 < entry.1.rawAmount)).take count :=
    fun inside => late (List.mem_map.mpr ⟨_, inside, rfl⟩)
  have before := Apportionment.rel_of_take ((ranking_pairwise collation leaves).filter _) early counts behind
  simp only [Collation.ranks] at before
  rw [if_neg (by omega)] at before
  have wrong := of_decide_eq_true before
  omega

end Ranking

section Shares

variable (valid : manifest.Valid) (funded : 0 < budget) (within : budget ≤ manifest.totalReward)

def rounded (manifest : RewardManifest) (budget : Int) : List ScaledLeaf :=
  manifest.leaves.map (scaleLeaf budget manifest.totalReward)

variable {leaf : RewardLeafEntry}

theorem scaleLeaf_amount {total : Int} (nonneg : 0 ≤ leaf.amount) (funded : 0 < budget) :
    (scaleLeaf budget total leaf).amount = leaf.amount * budget / total := by
  simp only [scaleLeaf]
  split
  · rw [show leaf.amount = 0 by omega, zero_mul, Int.zero_ediv]
  · exact Int.tdiv_eq_ediv_of_nonneg (Int.mul_nonneg nonneg (le_of_lt funded))

include valid funded

variable {s : ScaledLeaf}

theorem mem_rounded (member : s ∈ rounded manifest budget) :
    0 ≤ s.rawAmount ∧ s.amount = s.rawAmount * budget / manifest.totalReward := by
  obtain ⟨leaf, inside, rfl⟩ := List.mem_map.mp member
  exact ⟨valid.nonneg leaf inside, scaleLeaf_amount (valid.nonneg leaf inside) funded⟩

theorem sum_rounded : ((rounded manifest budget).map amount).sum =
    ((manifest.leaves.map RewardLeafEntry.amount).map fun w => w * budget / manifest.totalReward).sum := by
  rw [rounded, map_map, map_map]
  apply congrArg List.sum
  apply map_congr_left
  intro leaf member
  exact scaleLeaf_amount (valid.nonneg leaf member) funded

include within

theorem remainder_bounds :
    0 ≤ budget - ((rounded manifest budget).map amount).sum ∧
      budget - ((rounded manifest budget).map amount).sum ≤
        ((rounded manifest budget).map rawAmount).countP (0 < ·) := by
  have raws : (rounded manifest budget).map rawAmount = manifest.leaves.map RewardLeafEntry.amount := by
    rw [rounded, map_map]
    rfl
  rw [sum_rounded valid funded, raws]
  apply Apportionment.remainder_bounds (by omega) _ valid.adds
  intro w member
  obtain ⟨leaf, inside, rfl⟩ := List.mem_map.mp member
  exact valid.nonneg leaf inside

theorem budget_lt_total (left : 0 < budget - ((rounded manifest budget).map amount).sum) :
    budget < manifest.totalReward := by
  rcases Int.lt_or_eq_of_le within with less | whole
  · exact less
  · have exact : ((manifest.leaves.map RewardLeafEntry.amount).map fun w => w * budget / manifest.totalReward).sum =
        (manifest.leaves.map RewardLeafEntry.amount).sum := by
      rw [← whole, map_congr_left fun w _ => Int.mul_ediv_cancel w (Int.ne_of_gt funded), map_id']
    rw [sum_rounded valid funded, exact, valid.adds, whole] at left
    omega

def lucky (collation : Collation) (manifest : RewardManifest) (budget : Int) : List Nat :=
  raised (ranking collation (rounded manifest budget))
    (budget - ((rounded manifest budget).map ScaledLeaf.amount).sum).toNat

def handedOut (collation : Collation) (manifest : RewardManifest) (budget : Int) : List ScaledLeaf :=
  Apportionment.raise ScaledLeaf.increment (rounded manifest budget) (lucky collation manifest budget)

theorem scaleLeaves_eq : scaleLeaves collation manifest budget manifest.totalReward = handedOut collation manifest budget := by
  have nonempty : manifest.leaves.length ≠ 0 := by
    intro empty
    have adds := valid.adds
    rw [List.length_eq_zero_iff.mp empty] at adds
    simp only [map_nil, sum_nil] at adds
    omega
  have bounds := (remainder_bounds valid funded within).1
  have count := Int.toNat_of_nonneg bounds
  unfold scaleLeaves
  rw [if_neg (by omega)]
  show (if 0 < budget - ((rounded manifest budget).map amount).sum then
      addRemainder (ranking collation (rounded manifest budget))
        (budget - ((rounded manifest budget).map amount).sum) (rounded manifest budget)
    else rounded manifest budget) = _
  split
  · rw [← count]
    exact addRemainder_eq _ (by omega) _
  · rw [handedOut, lucky,
      show (budget - ((rounded manifest budget).map amount).sum).toNat = 0 by omega]
    rfl

theorem length_lucky : ((lucky collation manifest budget).length : Int) =
    budget - ((rounded manifest budget).map amount).sum := by
  have bounds := remainder_bounds valid funded within
  rw [lucky, length_raised (by omega)]
  exact Int.toNat_of_nonneg bounds.1

theorem handedOut_adds : ((handedOut collation manifest budget).map amount).sum = budget := by
  have inside : ∀ i ∈ lucky collation manifest budget, i < (rounded manifest budget).length := by
    intro i there
    obtain ⟨leaf, here, -⟩ := mem_raised there
    exact (List.getElem?_eq_some_iff.mp here).1
  rw [handedOut, Apportionment.sum_raise (fun _ => rfl) inside, length_lucky valid funded within]
  omega

section

variable (member : s ∈ handedOut collation manifest budget)
include member

omit within in
theorem mem_handedOut :
    ∃ (i : Nat) (leaf : ScaledLeaf), (rounded manifest budget)[i]? = some leaf ∧
      s = (if i ∈ lucky collation manifest budget then leaf.increment else leaf) ∧ 0 ≤ leaf.rawAmount ∧
      leaf.amount = leaf.rawAmount * budget / manifest.totalReward := by
  obtain ⟨i, here⟩ := getElem?_of_mem member
  have nodup : (lucky collation manifest budget).Nodup := raised_nodup
  rw [handedOut, Apportionment.getElem?_raise _ _ nodup] at here
  obtain ⟨leaf, there, rfl⟩ := Option.map_eq_some_iff.mp here
  exact ⟨i, leaf, there, rfl, mem_rounded valid funded (mem_of_getElem? there)⟩

theorem handedOut_bounded : 0 ≤ s.amount ∧ s.amount ≤ s.rawAmount := by
  obtain ⟨i, leaf, here, rfl, nonneg, amount⟩ := mem_handedOut valid funded member
  have positive : 0 < manifest.totalReward := by omega
  have low : 0 ≤ leaf.amount := by
    rw [amount]
    exact Int.ediv_nonneg (Int.mul_nonneg nonneg (by omega)) (by omega)
  split
  · rename_i more
    obtain ⟨other, there, counts, -⟩ := mem_raised more
    obtain rfl := Option.some.inj (there.symm.trans here)
    have left : ((lucky collation manifest budget).length : Int) = _ := length_lucky valid funded within
    have pos := length_pos_of_mem more
    have less := budget_lt_total valid funded within (by omega)
    have below : other.amount < other.rawAmount := by
      rw [amount]
      exact Int.ediv_lt_of_lt_mul positive (Int.mul_lt_mul_of_pos_left less counts)
    exact ⟨Int.le_add_one low, below⟩
  · refine ⟨low, ?_⟩
    rw [amount]
    exact Int.ediv_le_of_le_mul positive (Int.mul_le_mul_of_nonneg_left within nonneg)

theorem handedOut_near :
    s.rawAmount * budget ≤ (s.amount + 1) * manifest.totalReward ∧
      s.amount * manifest.totalReward ≤ s.rawAmount * budget + manifest.totalReward := by
  obtain ⟨i, leaf, here, rfl, -, amount⟩ := mem_handedOut valid funded member
  have positive : 0 < manifest.totalReward := by omega
  have lower := Int.ediv_mul_le (leaf.rawAmount * budget) (Int.ne_of_gt positive)
  have upper := Int.lt_ediv_add_one_mul_self (leaf.rawAmount * budget) positive
  rw [← amount] at lower upper
  split
  · simp only [increment, add_mul, one_mul] at upper ⊢
    omega
  · omega

theorem handedOut_monotone {s' : ScaledLeaf} (member' : s' ∈ handedOut collation manifest budget)
    (less : s'.rawAmount < s.rawAmount) : s'.amount ≤ s.amount := by
  obtain ⟨i, leaf, here, rfl, -, amount⟩ := mem_handedOut valid funded member
  obtain ⟨j, leaf', here', rfl, -, amount'⟩ := mem_handedOut valid funded member'
  have raws : ∀ (leaf : ScaledLeaf) (more : Prop) [Decidable more],
      (if more then leaf.increment else leaf).rawAmount = leaf.rawAmount := by
    intro leaf more _
    split <;> rfl
  rw [raws, raws] at less
  have order : leaf'.amount ≤ leaf.amount := by
    rw [amount, amount']
    exact Int.ediv_le_ediv (by omega) (Int.mul_le_mul_of_nonneg_right (le_of_lt less) (by omega))
  by_cases more' : j ∈ lucky collation manifest budget
  · have more : i ∈ lucky collation manifest budget := raised_of_lt more' here' here less
    rw [if_pos more', if_pos more]
    exact Int.add_le_add_right order 1
  · rw [if_neg more']
    split
    · exact Int.le_add_one order
    · exact order

end

theorem handedOut_scaled : Scaled manifest budget (handedOut collation manifest budget) where
  same := by
    have kept : ∀ s : ScaledLeaf, (⟨s.increment.nodeId, s.increment.rawAmount⟩ : RewardLeafEntry) = ⟨s.nodeId, s.rawAmount⟩ :=
      fun _ => rfl
    rw [handedOut, Apportionment.map_raise kept, rounded, map_map]
    exact map_id' _
  adds := handedOut_adds valid funded within
  bounded := fun _ member => handedOut_bounded valid funded within member
  near := fun _ member => handedOut_near valid funded within member
  monotone := fun _ member _ member' less => handedOut_monotone valid funded within member member' less

end Shares

theorem scaleLeaves_scaled (valid : manifest.Valid) (nonneg : 0 ≤ budget) (within : budget ≤ manifest.totalReward) :
    Scaled manifest budget (scaleLeaves collation manifest budget manifest.totalReward) := by
  by_cases funded : 0 < budget
  · rw [scaleLeaves_eq valid funded within]
    exact handedOut_scaled valid funded within
  · obtain rfl : budget = 0 := by omega
    have zeros : scaleLeaves collation manifest 0 manifest.totalReward =
        manifest.leaves.map fun leaf => ⟨leaf.nodeId, 0, leaf.amount⟩ := if_pos (.inl (Int.le_refl 0))
    have zero : ∀ s ∈ scaleLeaves collation manifest 0 manifest.totalReward, s.amount = 0 ∧ 0 ≤ s.rawAmount := by
      intro s member
      obtain ⟨leaf, inside, rfl⟩ := List.mem_map.mp member
      exact ⟨rfl, valid.nonneg leaf inside⟩
    constructor
    · rw [zeros, map_map]
      exact map_id' _
    · apply sum_eq_zero
      intro amount member
      obtain ⟨s, inside, rfl⟩ := List.mem_map.mp member
      exact (zero s inside).1
    · intro s member
      rw [(zero s member).1]
      exact ⟨Int.le_refl 0, (zero s member).2⟩
    · intro s member
      rw [(zero s member).1]
      omega
    · intro s member s' member' less
      rw [(zero s member).1, (zero s' member').1]

end Scaling

variable {hex : Text}

section NodeIds

variable {nodeId : Text}

theorem length_toHex32 (text : Text) : (toHex32 text).length = text.length + 2 := rfl

theorem drop_toHex32 (text : Text) : (toHex32 text).drop 2 = text := rfl

theorem IsNodeId.eq_toHex32 (isId : IsNodeId nodeId) : lowerCase nodeId = toHex32 ((lowerCase nodeId).drop 2) := by
  conv => lhs; rw [← take_append_drop 2 (lowerCase nodeId), isId.start]
  rfl

theorem IsNodeId.length (isId : IsNodeId nodeId) : (lowerCase nodeId).length = ((lowerCase nodeId).drop 2).length + 2 := by
  conv => lhs; rw [isId.eq_toHex32]
  rfl

theorem hexChar_lower : ∀ c ∈ hexChars, c.toLower = c := by
  rw [← all_iff_forall_prop]
  decide

theorem lowerCase_hex {text : Text} (hex : ∀ c ∈ text, c ∈ hexChars) : lowerCase text = text := by
  conv => rhs; rw [← map_id text]
  exact map_congr_left fun c member => hexChar_lower c (hex c member)

theorem lowerCase_of_isHex32 (isHex : IsHex32 hex) : lowerCase hex = hex := by
  conv => lhs; rw [← take_append_drop 2 hex, isHex.start]
  conv => rhs; rw [← take_append_drop 2 hex, isHex.start]
  have rest := lowerCase_hex isHex.lower
  unfold lowerCase at rest ⊢
  rw [map_append, rest]
  rfl

theorem IsNodeId.widened (isId : IsNodeId nodeId) : IsHex32 (toBytes32NodeId nodeId) := by
  have length := isId.length
  rcases isId.width with short | long
  · rw [toBytes32NodeId, if_pos (by omega)]
    refine ⟨rfl, ?_, ?_⟩
    · rw [drop_toHex32, padStart, length_append, length_replicate, short]
    · intro c member
      rcases List.mem_append.mp member with zero | digit
      · rw [eq_of_mem_replicate zero]
        decide
      · exact isId.hex c digit
  · rw [toBytes32NodeId, if_neg (by omega)]
    exact ⟨isId.start, long, isId.hex⟩

theorem length_of_isHex32 (isHex : IsHex32 hex) : hex.length = 66 := by
  have width := isHex.width
  rw [length_drop] at width
  omega

theorem mem_candidates (isId : IsNodeId nodeId) {stored : Text} (isHex : IsHex32 stored) :
    stored ∈ candidateManifestNodeIds nodeId ↔ stored = toBytes32NodeId nodeId := by
  have wide := length_of_isHex32 isHex
  have length := isId.length
  unfold candidateManifestNodeIds normalizeManifestNodeId toBytes32NodeId
  rcases isId.width with short | long
  · rw [if_neg (by omega), if_pos (by omega), if_pos (by omega), mem_pair]
    constructor
    · rintro (rfl | same)
      · omega
      · exact same
    · exact .inr
  · rw [if_pos (by omega), if_neg (by omega), mem_pair]
    constructor
    · rintro (same | rfl)
      · exact same
      · rw [length_toHex32, length_drop] at wide
        omega
    · exact .inl

end NodeIds

section Settling

theorem mem_rewardLeaves {leaf : RewardLeaf} : leaf ∈ rewardLeaves manifest scaled ↔
    ∃ s ∈ scaled, 0 < s.amount ∧ leaf = ⟨manifest.epochId.1, toBytes32NodeId s.nodeId, s.amount⟩ := by
  rw [rewardLeaves, mem_map]
  constructor
  · rintro ⟨s, inside, rfl⟩
    obtain ⟨member, positive⟩ := List.mem_filter.mp inside
    exact ⟨s, member, of_decide_eq_true positive, rfl⟩
  · rintro ⟨s, member, positive, rfl⟩
    exact ⟨s, List.mem_filter.mpr ⟨member, decide_eq_true positive⟩, rfl⟩

def settledLeaves (manifest : RewardManifest) (scaled : List ScaledLeaf) : List RewardLeafEntry :=
  (rewardLeaves manifest scaled).map fun leaf => ⟨leaf.nodeId, leaf.amount⟩

theorem mem_settledLeaves {entry : RewardLeafEntry} : entry ∈ settledLeaves manifest scaled ↔
    ∃ s ∈ scaled, 0 < s.amount ∧ entry = ⟨toBytes32NodeId s.nodeId, s.amount⟩ := by
  rw [settledLeaves, mem_map]
  constructor
  · rintro ⟨leaf, member, rfl⟩
    obtain ⟨s, inside, positive, rfl⟩ := mem_rewardLeaves.mp member
    exact ⟨s, inside, positive, rfl⟩
  · rintro ⟨s, inside, positive, rfl⟩
    exact ⟨_, mem_rewardLeaves.mpr ⟨s, inside, positive, rfl⟩, rfl⟩

theorem settledLeaves_sum (nonneg : ∀ s ∈ scaled, 0 ≤ s.amount) :
    ((settledLeaves manifest scaled).map RewardLeafEntry.amount).sum = (scaled.map amount).sum := by
  rw [settledLeaves, rewardLeaves, map_map, map_map]
  induction scaled with
  | nil => rfl
  | cons s scaled ih =>
    obtain ⟨first, rest⟩ := List.forall_mem_cons.mp nonneg
    rw [map_cons, sum_cons, ← ih rest]
    by_cases positive : 0 < s.amount
    · rw [filter_cons_of_pos (by simpa using positive), map_cons, sum_cons]
      rfl
    · rw [filter_cons_of_neg (by simpa using positive), show s.amount = 0 by omega, zero_add]

def RewardManifest.paid (manifest : RewardManifest) (nodeId : Text) : Int :=
  ((manifest.leaves.filter fun leaf => decide (leaf.nodeId = toBytes32NodeId nodeId)).map RewardLeafEntry.amount).sum

section

variable (scale : Scaled manifest budget scaled)
include scale

theorem Scaled.exists_mem (member : leaf ∈ manifest.leaves) :
    ∃ s ∈ scaled, s.nodeId = leaf.nodeId ∧ s.rawAmount = leaf.amount := by
  rw [← scale.same] at member
  obtain ⟨s, inside, rfl⟩ := List.mem_map.mp member
  exact ⟨s, inside, rfl, rfl⟩

variable (valid : manifest.Valid)
include valid

theorem Scaled.isNodeId (member : s ∈ scaled) : IsNodeId s.nodeId := by
  have inside : (⟨s.nodeId, s.rawAmount⟩ : RewardLeafEntry) ∈ manifest.leaves := by
    rw [← scale.same]
    exact List.mem_map.mpr ⟨s, member, rfl⟩
  exact valid.ids _ inside

theorem Scaled.distinct : (scaled.map fun s => toBytes32NodeId s.nodeId).Nodup := by
  have distinct := valid.distinct
  rw [← scale.same, map_map] at distinct
  exact distinct

theorem rewardLeaves_ids : ((rewardLeaves manifest scaled).map RewardLeaf.nodeId).Nodup := by
  rw [rewardLeaves, map_map]
  exact (List.filter_sublist.map _).nodup (scale.distinct valid)

theorem settledLeaves_ids : ((settledLeaves manifest scaled).map RewardLeafEntry.nodeId).Nodup := by
  rw [settledLeaves, map_map]
  exact rewardLeaves_ids scale valid

end

theorem filter_id {leaves : List RewardLeafEntry} (distinct : (leaves.map RewardLeafEntry.nodeId).Nodup)
    (member : leaf ∈ leaves) :
    (leaves.filter fun other => decide (other.nodeId = leaf.nodeId)) = [leaf] := by
  induction leaves with
  | nil => cases member
  | cons first leaves ih =>
    obtain ⟨fresh, distinct⟩ := List.nodup_cons.mp distinct
    rcases List.mem_cons.mp member with rfl | inside
    · have others : (leaves.filter fun other => decide (other.nodeId = leaf.nodeId)) = [] := by
        rw [filter_eq_nil_iff]
        intro other there same
        exact fresh (List.mem_map.mpr ⟨other, there, of_decide_eq_true same⟩)
      rw [filter_cons_of_pos (by simp), others]
    · have differ : first.nodeId ≠ leaf.nodeId := fun same => fresh (List.mem_map.mpr ⟨leaf, inside, same.symm⟩)
      rw [filter_cons_of_neg (by simpa using differ)]
      exact ih distinct inside

variable {settled : RewardManifest}

theorem paid_eq (scale : Scaled manifest budget scaled) (valid : manifest.Valid)
    (leaves : settled.leaves = settledLeaves manifest scaled) (member : s ∈ scaled) :
    settled.paid s.nodeId = s.amount := by
  rw [RewardManifest.paid, leaves]
  by_cases positive : 0 < s.amount
  · have inside : ⟨toBytes32NodeId s.nodeId, s.amount⟩ ∈ settledLeaves manifest scaled :=
      mem_settledLeaves.mpr ⟨s, member, positive, rfl⟩
    rw [filter_id (settledLeaves_ids scale valid) inside]
    simp
  · have nobody : ((settledLeaves manifest scaled).filter fun leaf =>
        decide (leaf.nodeId = toBytes32NodeId s.nodeId)) = [] := by
      rw [filter_eq_nil_iff]
      intro entry there same
      obtain ⟨other, inside, counts, rfl⟩ := mem_settledLeaves.mp there
      obtain rfl := inj_on_of_nodup_map (scale.distinct valid) inside member (of_decide_eq_true same)
      exact positive counts
    have zero := (scale.bounded s member).1
    rw [nobody, map_nil, sum_nil]
    omega

theorem manifestKey_injective (epochId : SafeInteger) : Function.Injective (manifestKey epochId) := by
  intro a b same
  exact (List.cons.inj (append_cancel_left same)).2

theorem settlement_tree (chain : Chain) (scale : Scaled manifest budget scaled) (valid : manifest.Valid) :
    ∃ tree, buildRewardTree chain.keccak (rewardLeaves manifest scaled) = .ok tree ∧
      (∀ leaf ∈ settledLeaves manifest scaled, ∃ proof hash,
        tree.proofs.get? (manifestKey manifest.epochId leaf.nodeId) = some proof ∧
        hashRewardLeaf chain.keccak ⟨manifest.epochId.1, leaf.nodeId, leaf.amount⟩ = .ok hash ∧
        MerkleProofLite.verify chain.crypto (proof.map bytes32) (bytes32 tree.root) (bytes32 hash) = true ∧
        (leaf.amount < 2 ^ 256 → bytes32 hash =
          PoSeManager.rewardLeaf chain.crypto manifest.epochId.1 (bytes32 leaf.nodeId) leaf.amount.toNat)) ∧
      ∀ candidate, candidate.length ≠ 66 → tree.proofs.get? (manifestKey manifest.epochId candidate) = none := by
  have small : manifest.epochId.1 < 2 ^ 64 := Nat.lt_trans manifest.epochId.2 (by decide)
  have hex : ∀ leaf ∈ rewardLeaves manifest scaled, IsHex32 leaf.nodeId ∧ leaf.epochId = manifest.epochId.1 := by
    intro leaf member
    obtain ⟨s, inside, -, rfl⟩ := mem_rewardLeaves.mp member
    exact ⟨(scale.isNodeId valid inside).widened, rfl⟩
  have key : ∀ leaf ∈ rewardLeaves manifest scaled, proofKey leaf = manifestKey manifest.epochId leaf.nodeId := by
    intro leaf member
    obtain ⟨isHex, epoch⟩ := hex leaf member
    rw [proofKey, lowerCase_of_isHex32 isHex, epoch]
    rfl
  by_cases empty : rewardLeaves manifest scaled = []
  · refine ⟨_, by rw [empty]; rfl, ?_, fun _ _ => rfl⟩
    intro leaf member
    rw [settledLeaves, empty] at member
    cases member
  · have keys : ((rewardLeaves manifest scaled).map proofKey).Nodup := by
      have ids := (rewardLeaves_ids scale valid).map (manifestKey_injective manifest.epochId)
      rw [map_map] at ids
      rw [map_congr_left key]
      exact ids
    have hashes : ∀ leaf ∈ rewardLeaves manifest scaled,
        hashRewardLeaf chain.keccak leaf = .ok (toHex32 (wordDigits (leaf.digest chain))) :=
      fun leaf member => hashRewardLeaf_digest (hex leaf member).2 small
    obtain ⟨proofs, built, proves, others⟩ := buildRewardTree_proves empty keys hashes
    refine ⟨_, built, ?_, ?_⟩
    · intro entry member
      obtain ⟨leaf, inside, rfl⟩ := List.mem_map.mp member
      obtain ⟨proof, got, -, accepted⟩ := proves leaf inside
      obtain ⟨isHex, epoch⟩ := hex leaf inside
      have same : (⟨manifest.epochId.1, leaf.nodeId, leaf.amount⟩ : RewardLeaf) = leaf := by
        rw [← epoch]
      refine ⟨proof, toHex32 (wordDigits (leaf.digest chain)), ?_, ?_, ?_, ?_⟩
      · rw [← key leaf inside]
        exact got
      · rw [same]
        exact hashRewardLeaf_digest epoch small
      · rw [bytes32_word]
        exact accepted
      · intro fits
        obtain ⟨s, -, positive, rfl⟩ := mem_rewardLeaves.mp inside
        have valid : RewardLeaf.Valid manifest.epochId.1 ⟨manifest.epochId.1, toBytes32NodeId s.nodeId, s.amount⟩ :=
          ⟨rfl, (lowerCase_of_isHex32 isHex).symm ▸ isHex, positive, fits⟩
        rw [bytes32_word, valid.digest_eq]
        rfl
    · intro candidate wide
      apply others
      intro member
      obtain ⟨leaf, inside, same⟩ := List.mem_map.mp member
      rw [key leaf inside] at same
      have text := manifestKey_injective _ same
      exact wide (text ▸ length_of_isHex32 (hex leaf inside).1)

theorem lookupRewardClaim_eq (ids : (settled.leaves.map RewardLeafEntry.nodeId).Nodup)
    (hex : ∀ leaf ∈ settled.leaves, IsHex32 leaf.nodeId) (member : leaf ∈ settled.leaves) {proof : List Text}
    (got : settled.proofs.get? (manifestKey settled.epochId leaf.nodeId) = some proof)
    (others : ∀ candidate, candidate.length ≠ 66 → settled.proofs.get? (manifestKey settled.epochId candidate) = none)
    {nodeId : Text} (isId : IsNodeId nodeId) (same : toBytes32NodeId nodeId = leaf.nodeId) :
    lookupRewardClaim settled nodeId = some ⟨settled.epochId, leaf.nodeId, leaf.amount, proof, settled.rewardRoot,
      settled.totalReward, decide (settled.settled = some true)⟩ := by
  have found : (settled.leaves.find? fun entry =>
      (candidateManifestNodeIds nodeId).contains (normalizeManifestNodeId entry.nodeId)) = some leaf := by
    have matching : ∀ entry ∈ settled.leaves,
        normalizeManifestNodeId entry.nodeId ∈ candidateManifestNodeIds nodeId ↔ entry.nodeId = leaf.nodeId := by
      intro entry inside
      rw [normalizeManifestNodeId, lowerCase_of_isHex32 (hex entry inside), mem_candidates isId (hex entry inside), same]
    cases search : settled.leaves.find? fun entry =>
        (candidateManifestNodeIds nodeId).contains (normalizeManifestNodeId entry.nodeId) with
    | none =>
      have absent := List.find?_eq_none.mp search leaf member
      exact absurd (contains_iff_mem.mpr ((matching leaf member).mpr rfl)) absent
    | some entry =>
      have inside := mem_of_find?_eq_some search
      have hit := find?_some search
      rw [contains_iff_mem] at hit
      rw [inj_on_of_nodup_map ids inside member ((matching entry inside).mp hit)]
  have length := isId.length
  unfold lookupRewardClaim
  dsimp only
  rw [found]
  dsimp only
  unfold toBytes32NodeId at same
  unfold candidateManifestNodeIds normalizeManifestNodeId
  rcases isId.width with short | long
  · -- nothing is stored under the address itself
    rw [if_pos (by omega)] at same
    rw [if_neg (by omega), if_pos (by omega), findSome?_cons, others _ (by omega), Option.map_none,
      findSome?_cons, same, got]
    rfl
  · rw [if_neg (by omega)] at same
    rw [if_pos (by omega), findSome?_cons, same, got]
    rfl

theorem isNodeId_of_isHex32 (isHex : IsHex32 hex) : IsNodeId hex ∧ toBytes32NodeId hex = hex := by
  have lower := lowerCase_of_isHex32 isHex
  have wide := length_of_isHex32 isHex
  refine ⟨⟨?_, ?_, ?_⟩, ?_⟩
  · rw [lower]
    exact isHex.start
  · rw [lower]
    exact .inr isHex.width
  · rw [lower]
    exact isHex.lower
  · rw [toBytes32NodeId, lower, if_neg (by omega)]

/-- A settlement pays out the budget, up to what was earned, to each node within one of its share, and every
    node can look up a proof that the contracts accept. -/
theorem settlement_exact (collation : Collation) (chain : Chain) (now : Nat) (valid : manifest.Valid) (nonneg : 0 ≤ budget) :
    ∃ settled, createSettledRewardManifest collation chain.keccak now manifest budget = .ok settled ∧
      settled.totalReward = min budget manifest.totalReward ∧
      (settled.leaves.map RewardLeafEntry.amount).sum = settled.totalReward ∧
      (∀ leaf ∈ manifest.leaves,
        leaf.amount * settled.totalReward ≤ (settled.paid leaf.nodeId + 1) * manifest.totalReward ∧
        settled.paid leaf.nodeId * manifest.totalReward ≤ leaf.amount * settled.totalReward + manifest.totalReward ∧
        0 ≤ settled.paid leaf.nodeId ∧ settled.paid leaf.nodeId ≤ leaf.amount) ∧
      (∀ small ∈ manifest.leaves, ∀ large ∈ manifest.leaves, small.amount < large.amount →
        settled.paid small.nodeId ≤ settled.paid large.nodeId) ∧
      ∀ leaf ∈ settled.leaves, (IsNodeId leaf.nodeId ∧ toBytes32NodeId leaf.nodeId = leaf.nodeId) ∧
        ∀ nodeId, IsNodeId nodeId → toBytes32NodeId nodeId = leaf.nodeId → ∃ claim hash,
          lookupRewardClaim settled nodeId = some claim ∧ claim.nodeId = leaf.nodeId ∧ claim.amount = leaf.amount ∧
          claim.rewardRoot = settled.rewardRoot ∧
          hashRewardLeaf chain.keccak ⟨settled.epochId.1, leaf.nodeId, leaf.amount⟩ = .ok hash ∧
          MerkleProofLite.verify chain.crypto (claim.proof.map bytes32) (bytes32 settled.rewardRoot) (bytes32 hash) = true ∧
          (leaf.amount < 2 ^ 256 → bytes32 hash =
            PoSeManager.rewardLeaf chain.crypto settled.epochId.1 (bytes32 leaf.nodeId) leaf.amount.toNat) := by
  have total : 0 ≤ manifest.totalReward := by
    rw [← valid.adds]
    apply sum_nonneg
    intro amount member
    obtain ⟨leaf, inside, rfl⟩ := List.mem_map.mp member
    exact valid.nonneg leaf inside
  have effective : (if budget < manifest.totalReward then budget else manifest.totalReward) =
      min budget manifest.totalReward := by
    split <;> omega
  have scale : Scaled manifest (min budget manifest.totalReward)
      (scaleLeaves collation manifest (min budget manifest.totalReward) manifest.totalReward) :=
    scaleLeaves_scaled valid (by omega) (by omega)
  obtain ⟨tree, built, proves, others⟩ := settlement_tree chain scale valid
  generalize result : scaleLeaves collation manifest (min budget manifest.totalReward) manifest.totalReward = scaled
    at scale built proves
  refine ⟨{ manifest with
    rewardRoot := tree.root
    totalReward := min budget manifest.totalReward
    leaves := settledLeaves manifest scaled
    proofs := tree.proofs
    settled := some true
    sourceTotalReward := some manifest.totalReward
    settlementBudgetWei := some budget
    settledAtMs := some now }, ?_, rfl, ?_, ?_, ?_, ?_⟩
  · unfold createSettledRewardManifest
    dsimp only
    rw [effective, result, built]
    rfl
  · exact (settledLeaves_sum fun s member => (scale.bounded s member).1).trans scale.adds
  · intro leaf member
    obtain ⟨s, inside, id, raw⟩ := scale.exists_mem member
    rw [← id, ← raw, paid_eq scale valid rfl inside]
    exact ⟨(scale.near s inside).1, (scale.near s inside).2, scale.bounded s inside⟩
  · intro small memberSmall large memberLarge less
    obtain ⟨s, inside, id, raw⟩ := scale.exists_mem memberSmall
    obtain ⟨s', inside', id', raw'⟩ := scale.exists_mem memberLarge
    rw [← id, ← id', paid_eq scale valid rfl inside, paid_eq scale valid rfl inside']
    exact scale.monotone s' inside' s inside (by omega)
  · have hex : ∀ leaf ∈ settledLeaves manifest scaled, IsHex32 leaf.nodeId := by
      intro leaf member
      obtain ⟨s, inside, -, rfl⟩ := mem_settledLeaves.mp member
      exact (scale.isNodeId valid inside).widened
    intro leaf member
    refine ⟨isNodeId_of_isHex32 (hex leaf member), ?_⟩
    intro nodeId isId same
    obtain ⟨proof, hash, got, hashed, accepted, word⟩ := proves leaf member
    exact ⟨_, hash, lookupRewardClaim_eq (settledLeaves_ids scale valid) hex member got others isId same, rfl, rfl, rfl,
      hashed, accepted, word⟩

section Sample

def anyOrder : Collation := ⟨fun _ _ => true, fun _ _ => .inl rfl, fun _ _ _ _ _ => rfl⟩

def sampleChain : Chain := ⟨fun data => data.length, fun _ _ _ _ => 0, fun _ => none⟩

def sampleManifest : RewardManifest where
  epochId := ⟨7, by decide⟩
  rewardRoot := []
  totalReward := 3
  leaves := [⟨toHex32 (List.replicate 40 'A'), 2⟩, ⟨toHex32 (List.replicate 64 'b'), 1⟩]
  proofs := .empty
  settled := none
  sourceTotalReward := none
  settlementBudgetWei := none
  settledAtMs := none

theorem sampleManifest_valid : sampleManifest.Valid where
  ids := by
    intro leaf member
    rcases List.mem_pair.mp member with rfl | rfl
    · refine ⟨by decide, by decide, ?_⟩
      rw [← all_iff_forall_prop]
      decide
    · refine ⟨by decide, by decide, ?_⟩
      rw [← all_iff_forall_prop]
      decide
  nonneg := by decide
  adds := rfl
  distinct := by decide

theorem sampleManifest_settles : sampleManifest.Valid ∧ ∃ settled,
    createSettledRewardManifest anyOrder sampleChain.keccak 0 sampleManifest 2 = .ok settled ∧
      settled.totalReward = min 2 3 ∧ (settled.leaves.map RewardLeafEntry.amount).sum = settled.totalReward := by
  obtain ⟨settled, made, total, sum, -⟩ := settlement_exact anyOrder sampleChain 0 sampleManifest_valid (by decide : (0 : Int) ≤ 2)
  exact ⟨sampleManifest_valid, settled, made, total, sum⟩

end Sample

end Settling

end Palimesh.Rewards
