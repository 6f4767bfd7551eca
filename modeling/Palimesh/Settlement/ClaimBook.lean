import Palimesh.Settlement.Manager

namespace Palimesh.Settlement

open List Function

variable {β : Type}

structure Claim (β : Type) where
  nodeId : β
  amount : Nat
  merkleProof : List β

section Book

variable [DecidableEq β]

/-- What a contract remembers of an epoch's claims: their sum, and for which nodes one was made. All were proved
    against its root, and none before it was open. -/
structure ClaimBook (C : Crypto β) (epochId : Nat) (root : β) (isOpen : Bool) (claimed : Nat) (marked : β → Bool)
    (claims : List (Claim β)) : Prop where
  sum : claimed = (claims.map Claim.amount).sum
  marked : ∀ nodeId, marked nodeId = true ↔ nodeId ∈ claims.map Claim.nodeId
  once : (claims.map Claim.nodeId).Nodup
  proved : ∀ claim ∈ claims, isOpen = true ∧ claim.amount < 2 ^ 256 ∧
    MerkleProofLite.verify C claim.merkleProof root (PoSeManager.rewardLeaf C epochId claim.nodeId claim.amount) = true

variable {C : Crypto β} {epochId : Nat} {root : β} {isOpen : Bool} {claimed : Nat} {marked marked' : β → Bool}
  {claims : List (Claim β)}

theorem ClaimBook.fresh : ClaimBook C epochId root isOpen 0 (fun _ => false) [] :=
  ⟨rfl, by simp, nodup_nil, by simp⟩

theorem ClaimBook.push (book : ClaimBook C epochId root isOpen claimed marked claims) (claim : Claim β)
    (opened : isOpen = true) (unmarked : marked claim.nodeId = false) (small : claim.amount < 2 ^ 256)
    (proved : MerkleProofLite.verify C claim.merkleProof root
      (PoSeManager.rewardLeaf C epochId claim.nodeId claim.amount) = true)
    (marks : ∀ nodeId, marked' nodeId = if nodeId = claim.nodeId then true else marked nodeId) :
    ClaimBook C epochId root isOpen (claimed + claim.amount) marked' (claim :: claims) where
  sum := by rw [book.sum, map_cons, sum_cons, Nat.add_comm]
  marked := by
    intro nodeId
    rw [marks, map_cons, mem_cons, ← book.marked nodeId]
    split
    · rename_i same
      simp [same]
    · rename_i other
      simp [other]
  once := by
    refine List.nodup_cons.mpr ⟨fun member => ?_, book.once⟩
    have again := (book.marked claim.nodeId).mpr member
    rw [unmarked] at again
    cases again
  proved := List.forall_mem_cons.mpr ⟨⟨opened, small, proved⟩, book.proved⟩

theorem ClaimBook.opens (book : ClaimBook C epochId root false claimed marked claims) (root' : β) (isOpen' : Bool) :
    ClaimBook C epochId root' isOpen' claimed marked claims := by
  have none : claims = [] := by
    apply List.eq_nil_iff_forall_not_mem.mpr
    intro claim member
    cases (book.proved claim member).1
  exact ⟨book.sum, book.marked, book.once, by simp [none]⟩

theorem ClaimBook.within (book : ClaimBook C epochId root isOpen claimed marked claims) {entries : List (β × Nat)}
    (listed : ∀ claim ∈ claims, (claim.nodeId, claim.amount) ∈ entries) {nodeId : β} {amount : Nat}
    (member : (nodeId, amount) ∈ entries) (unmarked : marked nodeId = false) :
    claimed + amount ≤ (entries.map Prod.snd).sum := by
  have unclaimed : nodeId ∉ claims.map Claim.nodeId := by
    rw [← book.marked, unmarked]
    exact Bool.false_ne_true
  have distinct : (((nodeId, amount) :: claims.map fun claim => (claim.nodeId, claim.amount))).Nodup := by
    apply List.Nodup.of_map Prod.fst
    rw [map_cons, map_map]
    exact List.nodup_cons.mpr ⟨unclaimed, book.once⟩
  have inside : ((nodeId, amount) :: claims.map fun claim => (claim.nodeId, claim.amount)) ⊆ entries := by
    intro entry within
    rcases List.mem_cons.mp within with rfl | earlier
    · exact member
    · obtain ⟨claim, made, rfl⟩ := List.mem_map.mp earlier
      exact listed claim made
  obtain ⟨kept, perm, sub⟩ := distinct.subperm inside
  have bound := (sub.map Prod.snd).sum_le_sum fun _ _ => Nat.zero_le _
  rw [(perm.map Prod.snd).sum_eq, map_cons, map_map, sum_cons] at bound
  rw [book.sum, Nat.add_comm]
  exact bound

/-- An epoch as far as claims depend on it: whether it is open and since when, its root, and the sum of
    the claims. The budget is not part of it. -/
structure Rewards (β : Type) where
  isOpen : Bool
  since : Nat
  root : β
  claimed : Nat

def claimsAt (epochId : Nat) (made : List (Nat × Claim β)) : List (Claim β) :=
  made.filterMap fun entry => if entry.1 = epochId then some entry.2 else none

structure Books (C : Crypto β) (now : Nat) (rewards : Nat → Rewards β) (marked : Nat × β → Bool)
    (made : List (Nat × Claim β)) : Prop where
  book : ∀ epochId, ClaimBook C epochId (rewards epochId).root (rewards epochId).isOpen (rewards epochId).claimed
    (fun nodeId => marked (epochId, nodeId)) (claimsAt epochId made)
  past : ∀ epochId, (rewards epochId).since ≤ now

inductive BookStep (C : Crypto β) (now : Nat) (rewards : Nat → Rewards β) (marked : Nat × β → Bool) :
    Option (Nat × Claim β) → (Nat → Rewards β) → (Nat × β → Bool) → Prop
  | same : BookStep C now rewards marked none rewards marked
  | opened {epochId : Nat} (root : β) (before : (rewards epochId).isOpen = false) :
      BookStep C now rewards marked none
        (Function.update rewards epochId ⟨true, now, root, (rewards epochId).claimed⟩) marked
  | claimed {epochId : Nat} (claim : Claim β) (isOpen : (rewards epochId).isOpen = true)
      (unmarked : marked (epochId, claim.nodeId) = false) (small : claim.amount < 2 ^ 256)
      (proved : MerkleProofLite.verify C claim.merkleProof (rewards epochId).root
        (PoSeManager.rewardLeaf C epochId claim.nodeId claim.amount) = true) :
      BookStep C now rewards marked (some (epochId, claim))
        (Function.update rewards epochId { rewards epochId with claimed := (rewards epochId).claimed + claim.amount })
        (Function.update marked (epochId, claim.nodeId) true)

variable {now : Nat} {rewards rewards' : Nat → Rewards β} {isMarked isMarked' : Nat × β → Bool}
  {made : List (Nat × Claim β)} {claim? : Option (Nat × Claim β)}

theorem BookStep.of_claim {nodeId : β} {amount sum : Nat} {merkleProof : List β} (isOpen : (rewards epochId).isOpen = true)
    (unmarked : isMarked (epochId, nodeId) = false) (small : sum + amount < 2 ^ 256)
    (proved : MerkleProofLite.verify C merkleProof (rewards epochId).root
      (PoSeManager.rewardLeaf C epochId nodeId amount) = true)
    (paid : rewards' = update rewards epochId { rewards epochId with claimed := (rewards epochId).claimed + amount })
    (marks : isMarked' = update isMarked (epochId, nodeId) true) :
    BookStep C now rewards isMarked (some (epochId, ⟨nodeId, amount, merkleProof⟩)) rewards' isMarked' := by
  subst paid marks
  exact .claimed ⟨nodeId, amount, merkleProof⟩ isOpen unmarked (lt_of_le_of_lt (Nat.le_add_left _ _) small) proved

theorem Books.fresh {start : Nat → Rewards β} (closed : ∀ epochId, (start epochId).claimed = 0 ∧ (start epochId).since = 0) :
    Books C now start (fun _ => false) [] where
  book := by
    intro epochId
    rw [(closed epochId).1]
    exact .fresh
  past := by
    intro epochId
    rw [(closed epochId).2]
    exact Nat.zero_le now

theorem Books.later (books : Books C now rewards isMarked made) {later : Nat} (le : now ≤ later) :
    Books C later rewards isMarked made :=
  ⟨books.book, fun epochId => Nat.le_trans (books.past epochId) le⟩

theorem Books.step (books : Books C now rewards isMarked made)
    (step : BookStep C now rewards isMarked claim? rewards' isMarked') :
    Books C now rewards' isMarked' (claim?.toList ++ made) := by
  cases step with
  | same => exact books
  | @opened epochId root before =>
    have book := books.book epochId
    rw [before] at book
    refine ⟨fun other => ?_, (forall_update_iff rewards fun _ epoch => epoch.since ≤ now).mpr ⟨Nat.le_refl now, ?_⟩⟩
    · by_cases here : other = epochId
      · rw [here, update_self]
        exact book.opens root true
      · rw [update_of_ne here]
        exact books.book other
    · exact fun other _ => books.past other
  | @claimed epochId claim isOpen unmarked small proved =>
    refine ⟨fun other => ?_, (forall_update_iff rewards fun _ epoch => epoch.since ≤ now).mpr ⟨books.past epochId, ?_⟩⟩
    · by_cases here : other = epochId
      · subst here
        rw [update_self]
        have made' : claimsAt other ([(other, claim)] ++ made) = claim :: claimsAt other made := by simp [claimsAt]
        show ClaimBook C other _ _ _ _ (claimsAt other ([(other, claim)] ++ made))
        rw [made']
        refine (books.book other).push claim isOpen unmarked small proved fun nodeId => ?_
        simp [update_apply]
      · have made' : claimsAt other ([(epochId, claim)] ++ made) = claimsAt other made := by
          simp [claimsAt, Ne.symm here]
        have others : (fun nodeId => Function.update isMarked (epochId, claim.nodeId) true (other, nodeId)) =
            fun nodeId => isMarked (other, nodeId) := by
          funext nodeId
          exact update_of_ne (fun same => here (congrArg Prod.fst same)) _ _
        show ClaimBook C other _ _ _ _ (claimsAt other ([(epochId, claim)] ++ made))
        rw [made', others, update_of_ne here]
        exact books.book other
    · exact fun other _ => books.past other

end Book

end Palimesh.Settlement
