import Palimesh.Chain.BaseFee
import Palimesh.Chain.FinalityDepth

set_option linter.unusedSectionVars false

namespace Palimesh

open Chain Collections State Protocol ChainBlock

def feeFields (parent : Option ChainBlock) : Option Int × Option Int × Option Int × Option Int :=
  (parent.bind baseFee, parent.bind gasUsed, parent.bind excessBlobGas,
    parent.bind blobGasUsed)

namespace ChainBlock

def FeesFollow (parent : Option ChainBlock) (block : ChainBlock) : Prop :=
  block.baseFee = some (calculateBaseFee
      { parentBaseFee := (parent.bind baseFee).getD genesisBaseFee
        parentGasUsed := (parent.bind gasUsed).getD 0 }) ∧
    block.excessBlobGas = some (calculateExcessBlobGas ((parent.bind excessBlobGas).getD 0)
      ((parent.bind blobGasUsed).getD 0)) ∧
    block.blobGasUsed = some 0

def hashedPart (block : ChainBlock) : ChainBlock :=
  { block with
    finalized := false
    bftFinalized := none
    signature := none
    stateRootSig := none
    stateRoot := none
    gasUsed := none }

variable {parent parent' : Option ChainBlock} {block : ChainBlock}

theorem FeesFollow.congr_parent (follows : block.FeesFollow parent) (same : feeFields parent' = feeFields parent) :
    block.FeesFollow parent' := by
  simp only [feeFields, Prod.mk.injEq] at same
  obtain ⟨sameFee, sameGas, sameExcess, sameBlob⟩ := same
  unfold FeesFollow
  rw [sameFee, sameGas, sameExcess, sameBlob]
  exact follows

end ChainBlock

namespace Chain

namespace BlockIndex

/-- The stored chain ends at the tip, and wherever a block's parent is known its fees follow from it. -/
structure FeeValid (index : BlockIndex) : Prop where
  numbered : ∀ n block, index.getBlockByNumber n = some block → block.number = n
  tip : ∀ tip, index.getLatestBlock = some tip → index.getBlockByNumber tip.number = some tip
  inside : ∀ n block, index.getBlockByNumber n = some block →
    1 ≤ n ∧ ∃ tip, index.getLatestBlock = some tip ∧ n ≤ tip.number
  follow : ∀ n block, index.getBlockByNumber n = some block → n = 1 ∨ (index.getBlockByNumber (n - 1)).isSome →
    block.FeesFollow (index.getBlockByNumber (n - 1))

variable {index : BlockIndex} {block final : ChainBlock}

theorem FeeValid.empty : BlockIndex.empty.FeeValid where
  numbered := fun _ _ => nofun
  tip := fun _ latest => nomatch latest
  inside := fun _ _ => nofun
  follow := fun _ _ => nofun

variable (valid : index.FeeValid)
include valid

section

variable (link : validateBlockLink index.getLatestBlock block = true)
include link

theorem FeeValid.parent_row : index.getBlockByNumber (block.number - 1) = index.getLatestBlock := by
  have next := validateBlockLink_number link
  cases latest : index.getLatestBlock with
  | none =>
    rw [latest] at next
    cases row : index.getBlockByNumber (block.number - 1) with
    | none => rfl
    | some found =>
      have positive := (valid.inside _ found row).1
      have first : block.number = 1 := next
      omega
  | some tip =>
    rw [latest] at next
    rw [next, Int.add_sub_cancel]
    exact valid.tip tip latest

theorem FeeValid.below_next {n : Int} {found : ChainBlock} (row : index.getBlockByNumber n = some found)
    : n < block.number := by
  obtain ⟨_, tip, latest, low⟩ := valid.inside n found row
  have next := validateBlockLink_number link
  rw [latest] at next
  have above : block.number = tip.number + 1 := next
  omega

theorem FeeValid.next_positive : 1 ≤ block.number := by
  have next := validateBlockLink_number link
  cases latest : index.getLatestBlock with
  | none =>
    rw [latest] at next
    exact le_of_eq next.symm
  | some tip =>
    rw [latest] at next
    have positive := (valid.inside _ tip (valid.tip tip latest)).1
    have above : block.number = tip.number + 1 := next
    omega

theorem FeeValid.putBlock (follows : block.FeesFollow index.getLatestBlock) : (index.putBlock block).FeeValid where
  numbered := numbered_updateBlock valid.numbered
  tip := by
    intro tip latest
    cases latest
    rw [getBlockByNumber_putBlock, if_pos rfl]
  inside := by
    intro n found row
    rw [getBlockByNumber_putBlock] at row
    split at row
    · have positive := valid.next_positive link
      exact ⟨by omega, block, rfl, by omega⟩
    · have low := valid.below_next link row
      exact ⟨(valid.inside n found row).1, block, rfl, by omega⟩
  follow := by
    intro n found row known
    rw [getBlockByNumber_putBlock] at row known ⊢
    split at row
    · rename_i here
      cases row
      rw [if_neg (by omega), here, valid.parent_row link]
      exact follows
    · have low := valid.below_next link row
      rw [if_neg (by omega)] at known ⊢
      exact valid.follow n found row known

end

theorem FeeValid.flag (row : index.getBlockByNumber final.number = some final)
    (notTip : ∀ tip, index.getLatestBlock = some tip → tip.number ≠ final.number) :
    (index.updateBlock { final with finalized := true }).FeeValid := by
  have rows := getBlockByNumber_updateBlock index { final with finalized := true }
  have sameFields : ∀ n, feeFields ((index.updateBlock { final with finalized := true }).getBlockByNumber n) =
      feeFields (index.getBlockByNumber n) := by
    intro n
    rw [rows]
    split
    · rename_i here
      rw [here, row]
      rfl
    · rfl
  have sameRows : ∀ n found, (index.updateBlock { final with finalized := true }).getBlockByNumber n = some found →
      ∃ before, index.getBlockByNumber n = some before ∧ found = { before with finalized := found.finalized } := by
    intro n found written
    rw [rows] at written
    split at written
    · rename_i here
      cases written
      exact ⟨final, here ▸ row, rfl⟩
    · exact ⟨found, written, rfl⟩
  refine ⟨numbered_updateBlock valid.numbered, tip_updateBlock valid.tip ?_, ?_, ?_⟩
  · intro tip latest sameNumber
    exact absurd sameNumber (notTip tip latest)
  · intro n found written
    obtain ⟨before, earlier, _⟩ := sameRows n found written
    exact valid.inside n before earlier
  · intro n found written known
    obtain ⟨before, earlier, same⟩ := sameRows n found written
    have knownBefore : n = 1 ∨ (index.getBlockByNumber (n - 1)).isSome := by
      rcases known with first | parent
      · exact .inl first
      · obtain ⟨parent, stored⟩ := Option.isSome_iff_exists.mp parent
        obtain ⟨before, earlier, _⟩ := sameRows (n - 1) parent stored
        exact .inr (earlier ▸ rfl)
    have follows := (valid.follow n before earlier knownBefore).congr_parent (sameFields (n - 1))
    rw [same]
    exact follows

end BlockIndex

variable {ρ τ : Type} [DecidableEq ρ] [DecidableEq τ] {p : Platform ρ τ} {e : Engine ρ τ} {block : ChainBlock}

structure GossipBlock where
  call : ApplyCall
  block : ChainBlock

namespace Engine

variable (p) in
def gossipStep (e : Engine ρ τ) (received : GossipBlock) : Engine ρ τ :=
  (applyBlock p e received.call received.block false).2

/-- What the hash covers was built by `buildBlock`, on a node whose tip has the same fees and gas. -/
def BuiltOnTip (host : Host) (e : Engine ρ τ) (block : ChainBlock) : Prop :=
  ∃ (proposer : Engine ρ τ) (now nextHeight : Int) (selected : List Hex),
    feeFields proposer.getTip = feeFields e.getTip ∧
      block.hashedPart = proposer.buildBlock host now nextHeight selected

variable (p) in
def FairlyBuilt (e : Engine ρ τ) (received : GossipBlock) : Prop :=
  e.blockIndex.getBlockByHash received.block.hash = none → validateBlockLink e.getTip received.block = true →
    e.BuiltOnTip p.host received.block

theorem BuiltOnTip.follows {host : Host} (built : e.BuiltOnTip host block) : block.FeesFollow e.getTip := by
  obtain ⟨proposer, now, nextHeight, selected, sameTip, same⟩ := built
  have follows : block.hashedPart.FeesFollow proposer.getTip := by
    rw [same]
    exact ⟨rfl, rfl, rfl⟩
  exact follows.congr_parent sameTip.symm

theorem updateFinalityFlags_feeValid (valid : e.blockIndex.FeeValid) (fails : Option String) :
    (e.updateFinalityFlags fails).2.blockIndex.FeeValid := by
  unfold updateFinalityFlags
  split
  · exact valid
  · rename_i final newly
    split
    · exact valid
    · have row := newlyFinal_some newly
      have number := valid.numbered _ final row
      apply valid.flag
      · rw [number]
        exact row
      · intro tip latest
        exact tip_number_ne latest number

theorem gossipStep_feeValid (valid : e.blockIndex.FeeValid) (received : GossipBlock)
    (fair : e.FairlyBuilt p received) : (e.gossipStep p received).blockIndex.FeeValid := by
  have applied := applyBlock_applied p e received.call received.block false
  unfold gossipStep
  generalize applyBlock p e received.call received.block false = outcome at applied ⊢
  cases applied with
  | reentrant _ => exact valid
  | duplicate _ _ => exact valid
  | rejected _ _ _ => exact valid
  | failed _ _ _ _ => exact valid
  | finished _ fresh accepted _ =>
    have link := validate_link accepted
    have follows := (fair fresh link).follows
    unfold finishBlock
    dsimp only
    split
    · exact valid
    · rename_i stored sealed
      split
      · exact valid
      · apply updateFinalityFlags_feeValid
        obtain ⟨_, rfl⟩ := sealBlock_eq sealed
        apply valid.putBlock
        · exact link
        · exact follows

end Engine

section Sample

def builtFirst : ChainBlock := sampleEngine.buildBlock plainPlatform.host 1000 1 []

def secondProposer : Engine (Option (FiniteMap Hex Bytes)) (FiniteMap Hex (AccountState (Option (FiniteMap Hex Bytes)))) :=
  { sampleEngine.gossipStep plainPlatform ⟨sampleCall, builtFirst⟩ with
    cfg := { sampleEngine.cfg with nodeId := "node-2" } }

def builtSecond : ChainBlock := secondProposer.buildBlock plainPlatform.host 2000 2 []

def freeBlock : ChainBlock :=
  let payload : ChainBlock :=
    { number := 1, hash := "", parentHash := zeroHash, proposer := "node-1", timestampMs := 1000, txs := [],
      finalized := false, baseFee := some 0, blobGasUsed := some 7, excessBlobGas := some 5 }
  { payload with hash := hashBlockPayload plainPlatform.host payload }

end Sample

end Chain

end Palimesh
