import Palimesh.Chain.Block
import Palimesh.Collections.InsertionMap
import Palimesh.Protocol.WeightedQuorum

namespace Palimesh.Bft

open Collections Protocol List InsertionMap

structure Validator where
  id : String
  stake : Nat
deriving DecidableEq, Repr

def totalStake (validators : List Validator) : Nat :=
  validators.foldl (fun sum v => sum + v.stake) 0

def maxSafeInteger : Nat := 9007199254740991

def quorumThreshold (validators : List Validator) (relaxedQuorum : Bool) : Nat :=
  let total := totalStake validators
  if total = 0 then maxSafeInteger
  else if relaxedQuorum then total * 2 / 3
  else total * 2 / 3 + 1

structure BftVote where
  blockHash : Hex
  stateRoot : Option Hex
deriving DecidableEq, Repr

abbrev Votes := InsertionMap String BftVote

structure VoteGroup where
  ids : List String
  blockHash : Option Hex
  stateRoot : Option Hex
deriving DecidableEq, Repr

/-- A vote without a root matches every root; so does every vote when the anchor has none. -/
def BftVote.joins (anchor vote : BftVote) : Bool :=
  vote.blockHash = anchor.blockHash &&
    (anchor.stateRoot.isNone || vote.stateRoot.isNone || vote.stateRoot = anchor.stateRoot)

def pickWinningVoteGroup (votes : Votes) (anchorId : String) : VoteGroup :=
  match votes.get? anchorId with
  | none => ⟨[], none, none⟩
  | some anchor =>
    ⟨(votes.entries.filter fun entry => anchor.joins entry.2).map Prod.fst,
      some anchor.blockHash, anchor.stateRoot⟩

section

variable (validators : List Validator)

def stakeMap : InsertionMap String Nat :=
  validators.foldl (fun stakes v => stakes.set (toLowerCase v.id) v.stake) .empty

def stakeOf (id : String) : Nat :=
  ((stakeMap validators).get? (toLowerCase id)).getD 0

def accumulatedStake (voterIds : List String) (validators : List Validator) : Nat :=
  voterIds.foldl (fun sum id => sum + stakeOf validators id) 0

def hasQuorum (voterIds : List String) (validators : List Validator) (relaxedQuorum : Bool) : Bool :=
  quorumThreshold validators relaxedQuorum ≤ accumulatedStake voterIds validators

def isKnownValidator (id : String) : Bool :=
  validators.any fun v => toLowerCase v.id = toLowerCase id

def memberIds : List String := validators.map fun v => toLowerCase v.id

end

variable (validators : List Validator) (stakes : InsertionMap String Nat) (id : String)

theorem mem_memberIds : toLowerCase id ∈ memberIds validators ↔ isKnownValidator validators id = true := by
  simp [memberIds, isKnownValidator]

theorem totalStake_eq_sum :
    totalStake validators = (validators.map Validator.stake).sum := by
  rw [totalStake, sum_eq_foldl, foldl_map]

theorem accumulatedStake_eq_sum (voterIds : List String) (validators : List Validator) :
    accumulatedStake voterIds validators = (voterIds.map (stakeOf validators)).sum := by
  rw [accumulatedStake, sum_eq_foldl, foldl_map]

theorem foldl_set_get? (absent : id ∉ memberIds validators) :
    (validators.foldl (fun stakes v => stakes.set (toLowerCase v.id) v.stake) stakes).get? id =
      stakes.get? id := by
  induction validators generalizing stakes with
  | nil => rfl
  | cons v validators ih =>
    simp only [memberIds, map_cons, mem_cons, not_or] at absent
    rw [foldl_cons, ih _ absent.2, get?_set, if_neg absent.1]

theorem stakes_of_distinct (distinct : (memberIds validators).Nodup) : ∀ v ∈ validators,
      (validators.foldl (fun stakes v => stakes.set (toLowerCase v.id) v.stake) stakes).get?
        (toLowerCase v.id) = some v.stake := by
  induction validators generalizing stakes with
  | nil => simp
  | cons first validators ih =>
    simp only [memberIds, map_cons, nodup_cons] at distinct
    intro v member
    rw [foldl_cons]
    rcases List.mem_cons.mp member with rfl | member
    · rw [foldl_set_get? _ _ _ distinct.1, get?_set, if_pos rfl]
    · exact ih _ distinct.2 v member

theorem stakeOf_toLowerCase : stakeOf validators (toLowerCase id) = stakeOf validators id := by
  simp [stakeOf]

variable {validators : List Validator}

theorem totalStake_eq_members (distinct : (memberIds validators).Nodup) :
    totalStake validators = (memberIds validators).toFinset.sum (stakeOf validators) := by
  rw [totalStake_eq_sum, sum_toFinset _ distinct, memberIds, map_map]
  congr 1
  apply map_congr_left
  intro v member
  rw [Function.comp_apply, stakeOf_toLowerCase, stakeOf, stakeMap, stakes_of_distinct validators .empty distinct v member]
  rfl

theorem empty_group_below : hasQuorum [] validators false = false := by
  have positive : 0 < quorumThreshold validators false := by
    unfold quorumThreshold maxSafeInteger
    simp only [Bool.false_eq_true, if_false]
    split <;> omega
  simpa [hasQuorum, accumulatedStake] using positive.ne'

theorem quorum_supermajority {ids : List String} (distinct : (memberIds validators).Nodup) (voters : ids.Nodup)
    (members : ∀ id ∈ ids, id ∈ memberIds validators) (quorum : hasQuorum ids validators false = true) :
    Supermajority (stakeOf validators) (memberIds validators).toFinset ids.toFinset := by
  have inside : ids.toFinset ⊆ (memberIds validators).toFinset := by
    intro id member
    exact List.mem_toFinset.mpr (members id (List.mem_toFinset.mp member))
  have counted : accumulatedStake ids validators = ids.toFinset.sum (stakeOf validators) := by
    rw [accumulatedStake_eq_sum, sum_toFinset _ voters]
  refine ⟨inside, ?_⟩
  rw [← totalStake_eq_members distinct, ← counted]
  by_cases staked : totalStake validators = 0
  · -- without stake the threshold is out of reach
    simp only [hasQuorum, quorumThreshold, if_pos staked, maxSafeInteger, decide_eq_true_eq] at quorum
    omega
  · simp only [hasQuorum, quorumThreshold, if_neg staked, Bool.false_eq_true, if_false, decide_eq_true_eq] at quorum
    omega

theorem mem_group_ids {votes : Votes} {anchorId id : String} :
    id ∈ (pickWinningVoteGroup votes anchorId).ids ↔
      ∃ anchor vote, votes.get? anchorId = some anchor ∧ votes.get? id = some vote ∧
        anchor.joins vote = true := by
  unfold pickWinningVoteGroup
  cases found : votes.get? anchorId with
  | none => simp
  | some anchor =>
    simp only [mem_map, mem_filter, Prod.exists, exists_and_right, exists_eq_right,
      mem_entries]
    constructor
    · rintro ⟨vote, present, joined⟩
      exact ⟨anchor, vote, rfl, present, joined⟩
    · rintro ⟨_, vote, same, present, joined⟩
      cases same
      exact ⟨vote, present, joined⟩

theorem group_ids_nodup (votes : Votes) (anchorId : String) :
    (pickWinningVoteGroup votes anchorId).ids.Nodup := by
  unfold pickWinningVoteGroup
  split
  · exact nodup_nil
  · exact (List.filter_sublist.map Prod.fst).nodup votes.nodup

theorem group_empty_without_anchor {votes : Votes} {anchorId : String}
    (missing : votes.get? anchorId = none) : (pickWinningVoteGroup votes anchorId).ids = [] := by
  simp [pickWinningVoteGroup, missing]

end Palimesh.Bft
