import Palimesh.Chain.Block

namespace Palimesh.Chain

open Prod.Lex

/-- A string, by its UTF-16 units. -/
abbrev Units := List (Fin 65536)

/-- `toLowerCase` of a hash. -/
def lowerUnits (text : Units) : Units := text.map fun unit => if 65 ≤ unit ∧ unit ≤ 90 then unit + 32 else unit

structure ForkCandidate where
  height : Int
  tipHash : Units
  bftFinalized : Bool
  cumulativeWeight : Int
  peerId : Units
deriving DecidableEq

inductive ForkReason
  | bftFinality | longerChain | higherWeight | lowerHash | lowerPeerId | equal
deriving DecidableEq

structure ForkChoice where
  winner : ForkCandidate
  loser : ForkCandidate
  reason : ForkReason

/-- Rules 3 to 5. -/
def compareWeights (a b : ForkCandidate) : ForkChoice :=
  if b.cumulativeWeight < a.cumulativeWeight then ⟨a, b, .higherWeight⟩
  else if a.cumulativeWeight < b.cumulativeWeight then ⟨b, a, .higherWeight⟩
  else if lowerUnits a.tipHash < lowerUnits b.tipHash then ⟨a, b, .lowerHash⟩
  else if lowerUnits b.tipHash < lowerUnits a.tipHash then ⟨b, a, .lowerHash⟩
  else if a.peerId < b.peerId then ⟨a, b, .lowerPeerId⟩
  else if b.peerId < a.peerId then ⟨b, a, .lowerPeerId⟩
  else ⟨a, b, .equal⟩

def compareForks (a b : ForkCandidate) : ForkChoice :=
  if a.bftFinalized ∧ !b.bftFinalized ∧ b.height ≤ a.height then ⟨a, b, .bftFinality⟩
  else if b.bftFinalized ∧ !a.bftFinalized ∧ a.height ≤ b.height then ⟨b, a, .bftFinality⟩
  else if b.height < a.height then ⟨a, b, .longerChain⟩
  else if a.height < b.height then ⟨b, a, .longerChain⟩
  else compareWeights a b

def selectBestFork : List ForkCandidate → Option ForkCandidate
  | [] => none
  | first :: rest => some (rest.foldl (fun best candidate => (compareForks best candidate).winner) first)

def shouldSwitchFork (local' remote : ForkCandidate) : Option ForkChoice :=
  let choice := compareForks local' remote
  if choice.winner = remote ∧ choice.reason ≠ .equal then some choice else none

def ForkCandidate.weightRank (c : ForkCandidate) : ℤ ×ₗ Unitsᵒᵈ ×ₗ Unitsᵒᵈ ×ₗ Unit :=
  toLex (c.cumulativeWeight, toLex (.toDual (lowerUnits c.tipHash), toLex (.toDual c.peerId, ())))

/-- The compared fields, in the order in which they count: the height comes before the finality. -/
def ForkCandidate.rank (c : ForkCandidate) : ℤ ×ₗ Bool ×ₗ ℤ ×ₗ Unitsᵒᵈ ×ₗ Unitsᵒᵈ ×ₗ Unit :=
  toLex (c.height, toLex (c.bftFinalized, c.weightRank))

section Rules

variable {κ μ : Type} [LinearOrder κ] [LinearOrder μ] {a b : ForkCandidate}

structure ForkChoice.By (choice : ForkChoice) (a b : ForkCandidate) (x y : κ) : Prop where
  winner : choice.winner = if x < y then b else a
  reason : choice.reason = .equal ↔ x = y

variable {reason : ForkReason} (strict : reason ≠ .equal)
include strict

theorem ForkChoice.By.lost {x y : κ} (less : x < y) : (⟨b, a, reason⟩ : ForkChoice).By a b x y :=
  ⟨by rw [if_pos less], by simp [strict, less.ne]⟩

theorem ForkChoice.By.won {x y : κ} (more : y < x) : (⟨a, b, reason⟩ : ForkChoice).By a b x y :=
  ⟨by rw [if_neg more.not_gt], by simp [strict, more.ne']⟩

theorem ForkChoice.By.rule {rest : ForkChoice} {x y : κ} {x' y' : μ} (others : rest.By a b x' y') {p q : Prop} [Decidable p]
    [Decidable q] (above : p ↔ y < x) (below : q ↔ x < y) :
    (if p then ⟨a, b, reason⟩ else if q then ⟨b, a, reason⟩ else rest : ForkChoice).By a b
      (toLex (x, x')) (toLex (y, y')) := by
  rcases lt_trichotomy x y with less | same | more
  · rw [if_neg (above.not.mpr less.not_gt), if_pos (below.mpr less)]
    exact .lost strict (toLex_lt_toLex.mpr (.inl less))
  · subst same
    rw [if_neg (above.not.mpr (lt_irrefl x)), if_neg (below.not.mpr (lt_irrefl x))]
    exact ⟨by simpa [toLex_lt_toLex] using others.winner, by simpa using others.reason⟩
  · rw [if_pos (above.mpr more)]
    exact .won strict (toLex_lt_toLex.mpr (.inl more))

omit strict in
theorem compareWeights_by (a b : ForkCandidate) : (compareWeights a b).By a b a.weightRank b.weightRank := by
  have tie : (⟨a, b, .equal⟩ : ForkChoice).By a b () () := ⟨by simp, by simp⟩
  have dual {x y : Units} : x < y ↔ OrderDual.toDual y < OrderDual.toDual x := .rfl
  apply ForkChoice.By.rule (by decide) _ .rfl .rfl
  apply ForkChoice.By.rule (by decide) _ dual dual
  exact tie.rule (by decide) dual dual

omit strict in
theorem compareForks_by (a b : ForkCandidate) : (compareForks a b).By a b a.rank b.rank := by
  have ahead {a b : ForkCandidate} (final : b.bftFinalized ∧ !a.bftFinalized ∧ a.height ≤ b.height) : a.rank < b.rank := by
    rcases Int.lt_or_eq_of_le final.2.2 with less | same
    · simp [ForkCandidate.rank, toLex_lt_toLex, less]
    · simp_all [ForkCandidate.rank, toLex_lt_toLex]
  have longer {a b : ForkCandidate} (less : a.height < b.height) : a.rank < b.rank := toLex_lt_toLex.mpr (.inl less)
  unfold compareForks
  split
  · exact .won (by decide) (ahead ‹_›)
  · split
    · exact .lost (by decide) (ahead ‹_›)
    · split
      · exact .won (by decide) (longer ‹_›)
      · split
        · exact .lost (by decide) (longer ‹_›)
        · have height : a.height = b.height := by omega
          have final : a.bftFinalized = b.bftFinalized := by grind
          have weights := compareWeights_by a b
          exact ⟨by simp [weights.winner, ForkCandidate.rank, toLex_lt_toLex, height, final],
            by simp [weights.reason, ForkCandidate.rank, height, final]⟩

end Rules

def Beats (a b : ForkCandidate) : Prop := (shouldSwitchFork b a).isSome

theorem beats_iff {a b : ForkCandidate} : Beats a b ↔ b.rank < a.rank := by
  have choice := compareForks_by b a
  simp only [Beats, shouldSwitchFork, choice.winner, choice.reason, ne_eq, Option.isSome_ite]
  constructor
  · rintro ⟨won, apart⟩
    by_contra less
    rw [if_neg less] at won
    exact apart (by rw [won])
  · intro less
    exact ⟨if_pos less, less.ne⟩

theorem selectBestFork_eq {candidates : List ForkCandidate} (some' : candidates ≠ []) :
    ∃ best ∈ candidates, selectBestFork candidates = some best ∧ ∀ c ∈ candidates, c.rank ≤ best.rank := by
  obtain ⟨first, rest, rfl⟩ := List.exists_cons_of_ne_nil some'
  clear some'
  induction rest generalizing first with
  | nil => exact ⟨first, by simp, rfl, by simp⟩
  | cons next rest ih =>
    obtain ⟨best, member, found, most⟩ := ih (compareForks first next).winner
    rw [(compareForks_by first next).winner] at member most
    refine ⟨best, ?_, found, ?_⟩
    · split at member <;> simp only [List.mem_cons] at member ⊢ <;> tauto
    · split at most <;> simp only [List.forall_mem_cons] at most ⊢
      · rename_i less
        exact ⟨less.le.trans most.1, most⟩
      · rename_i more
        exact ⟨most.1, (not_lt.mp more).trans most.1, most.2⟩

/-- Fork choice is a total preorder, the selected fork is unbeaten whatever the order of the list, and switching
    from fork to fork never comes back. -/
theorem forkChoice_order :
    (∀ a b c, ¬ Beats a b → ¬ Beats b c → ¬ Beats a c) ∧ (∀ a b, ¬ Beats a b ∨ ¬ Beats b a) ∧
    (∀ candidates ≠ [], ∃ best ∈ candidates, selectBestFork candidates = some best ∧ (∀ c ∈ candidates, ¬ Beats c best) ∧
      ∀ others, candidates.Perm others → ∃ best', selectBestFork others = some best' ∧ best.height = best'.height ∧
        best.bftFinalized = best'.bftFinalized ∧ best.cumulativeWeight = best'.cumulativeWeight ∧
        lowerUnits best.tipHash = lowerUnits best'.tipHash ∧ best.peerId = best'.peerId) ∧
    ∀ a, ¬ Relation.TransGen (fun here there => (shouldSwitchFork here there).isSome) a a := by
  refine ⟨fun a b c => ?_, fun a b => ?_, fun candidates some' => ?_, fun a cycle => ?_⟩
  · simp only [beats_iff, not_lt]
    exact le_trans
  · simp only [beats_iff, not_lt]
    exact le_total _ _
  · obtain ⟨best, member, found, most⟩ := selectBestFork_eq some'
    refine ⟨best, member, found, fun c there => beats_iff.not.mpr (most c there).not_gt, fun others perm => ?_⟩
    obtain ⟨best', member', found', most'⟩ := selectBestFork_eq fun none' => some' (perm.trans (.of_eq none')).eq_nil
    have same := le_antisymm (most' best (perm.mem_iff.mp member)) (most best' (perm.mem_iff.mpr member'))
    exact ⟨best', found', by simpa [ForkCandidate.rank, ForkCandidate.weightRank] using same⟩
  · have rises {b : ForkCandidate} (path : Relation.TransGen (fun here there => (shouldSwitchFork here there).isSome) a b) :
        a.rank < b.rank := by
      induction path with
      | single step => exact beats_iff.mp step
      | tail _ step ih => exact ih.trans (beats_iff.mp step)
    exact lt_irrefl _ (rises cycle)

end Palimesh.Chain
