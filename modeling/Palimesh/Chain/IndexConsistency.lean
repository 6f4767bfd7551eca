import Palimesh.Chain.BlockImport
import Palimesh.Protocol.Transition

set_option linter.unusedSectionVars false

namespace Palimesh.Chain

open Collections State Protocol InsertionMap Engine BlockIndex Option

namespace BlockIndex

/-- Blocks are found under their own hash and number, and the tip is a stored block. -/
structure Consistent (index : BlockIndex) : Prop where
  hashed : ∀ hash block, index.getBlockByHash hash = some block → block.hash = hash
  numbered : ∀ num block, index.getBlockByNumber num = some block → block.number = num
  tip : ∀ block, index.getLatestBlock = some block → index.getBlockByNumber block.number = some block

def OwnsHeight (index : BlockIndex) (block : ChainBlock) : Prop :=
  ∀ row ∈ index.byHash.entries, row.2 = block.number → row.1 = block.hash

instance (index : BlockIndex) (block : ChainBlock) : Decidable (index.OwnsHeight block) :=
  inferInstanceAs (Decidable (∀ row ∈ index.byHash.entries, _))

variable {index : BlockIndex} {block updated : ChainBlock} {n : Int}

theorem OwnsHeight.hash_eq (owns : index.OwnsHeight block) {hash : Hex}
    (points : index.byHash.get? hash = some block.number) : hash = block.hash :=
  owns (hash, block.number) ((mem_entries _ _ _).mpr points) rfl

theorem getBlockByNumber_updateBlock (index : BlockIndex) (block : ChainBlock) (num : Int) :
    (index.updateBlock block).getBlockByNumber num = if num = block.number then some block else index.getBlockByNumber num :=
  get?_set _ _ _ _

theorem numbered_updateBlock
    (numbered : ∀ num found, index.getBlockByNumber num = some found → found.number = num) :
    ∀ num found, (index.updateBlock block).getBlockByNumber num = some found → found.number = num := by
  intro num found row
  rw [getBlockByNumber_updateBlock] at row
  split at row
  · rename_i here
    cases row
    exact here.symm
  · exact numbered num found row

theorem tip_updateBlock
    (tipRow : ∀ tip, index.getLatestBlock = some tip → index.getBlockByNumber tip.number = some tip)
    (sameTip : ∀ tip ∈ index.latest, tip.number = block.number → tip = block) (tip : ChainBlock)
    (latest : index.getLatestBlock = some tip) : (index.updateBlock block).getBlockByNumber tip.number = some tip := by
  rw [getBlockByNumber_updateBlock]
  split
  · rename_i here
    rw [sameTip tip latest here]
  · exact tipRow tip latest

section

variable (consistent : index.Consistent)
include consistent

theorem Consistent.ownsHeight (stored : index.getBlockByNumber n = some block) (number : updated.number = n)
    (hash : updated.hash = block.hash) : index.OwnsHeight updated := by
  intro row member sameHeight
  have points : index.byHash.get? row.1 = some row.2 := get?_eq_of_mem member
  have found : index.getBlockByHash row.1 = some block := by
    rw [getBlockByHash, points, bind_some, sameHeight, number]
    exact stored
  rw [hash, consistent.hashed row.1 block found]

theorem Consistent.updateBlock (owns : index.OwnsHeight block)
    (sameTip : ∀ tip ∈ index.latest, tip.number = block.number → tip = block) :
    (index.updateBlock block).Consistent where
  hashed := by
    intro hash found read
    change ((index.byHash.set block.hash block.number).get? hash).bind _ = _ at read
    rw [get?_set] at read
    by_cases own : hash = block.hash
    · rw [if_pos own, bind_some, getBlockByNumber_updateBlock, if_pos rfl] at read
      cases read
      exact own.symm
    · rw [if_neg own] at read
      obtain ⟨num, points, row⟩ := bind_eq_some_iff.mp read
      rw [getBlockByNumber_updateBlock] at row
      by_cases here : num = block.number
      · rw [here] at points
        exact absurd (owns.hash_eq points) own
      · rw [if_neg here] at row
        apply consistent.hashed hash found
        rw [getBlockByHash, points, bind_some, row]
  numbered := numbered_updateBlock consistent.numbered
  tip := tip_updateBlock consistent.tip sameTip

theorem Consistent.retarget (stored : index.getBlockByNumber block.number = some block)
    : { index with latest := some block }.Consistent := { consistent with
  tip := by
    intro tip latest
    cases latest
    exact stored }

theorem Consistent.forgetTip : { index with latest := none }.Consistent := { consistent with
  tip := fun _ latest => nomatch latest }

theorem Consistent.putBlock (owns : index.OwnsHeight block) : (index.putBlock block).Consistent := by
  have written : ({ index with latest := none }.updateBlock block).Consistent :=
    consistent.forgetTip.updateBlock owns fun _ latest => nomatch latest
  have stored := getBlockByNumber_updateBlock { index with latest := none } block block.number
  rw [if_pos rfl] at stored
  exact written.retarget stored

end

variable {stale : Int → ChainBlock → Bool}

theorem getBlockByNumber_dropBlocks {found : ChainBlock}
    (row : (index.dropBlocks stale).getBlockByNumber n = some found) : index.getBlockByNumber n = some found := by
  change (index.byNumber.filterKeys _).get? n = some found at row
  rw [get?_filterKeys] at row
  split at row
  · exact row
  · cases row

theorem kept_row (stored : index.getBlockByNumber n = some block) (kept : stale n block = false) :
    (index.dropBlocks stale).getBlockByNumber n = some block := by
  have undropped : ((index.byNumber.entries.filter fun row => stale row.1 row.2).any fun row => row.1 == n) = false := by
    rw [List.any_eq_false]
    intro row member equal
    have same : row.1 = n := by simpa using equal
    obtain ⟨present, isStale⟩ := List.mem_filter.mp member
    have held : index.byNumber.get? row.1 = some row.2 := get?_eq_of_mem present
    rw [same, show index.byNumber.get? n = some block from stored] at held
    cases held
    rw [same, kept] at isStale
    cases isStale
  change (index.byNumber.filterKeys _).get? n = some block
  rw [get?_filterKeys, undropped]
  exact stored

theorem Consistent.dropBlocks (consistent : index.Consistent)
    (keepsTip : ∀ tip ∈ index.latest, stale tip.number tip = false) : (index.dropBlocks stale).Consistent where
  hashed := by
    intro hash found read
    obtain ⟨num, points, row⟩ := bind_eq_some_iff.mp read
    change (index.byHash.filterKeys _).get? hash = some num at points
    rw [get?_filterKeys] at points
    split at points
    · apply consistent.hashed hash found
      rw [getBlockByHash, points, bind_some]
      exact getBlockByNumber_dropBlocks row
    · cases points
  numbered := fun num found row => consistent.numbered num found (getBlockByNumber_dropBlocks row)
  tip := fun tip latest => kept_row (consistent.tip tip latest) (keepsTip tip latest)

theorem Consistent.demoteLatestTo (consistent : index.Consistent) (targetHeight : Int) :
    (index.demoteLatestTo targetHeight).2.Consistent := by
  unfold BlockIndex.demoteLatestTo
  split
  · exact consistent
  · rename_i target stored
    apply consistent.retarget
    rw [consistent.numbered targetHeight target stored]
    exact stored

theorem Consistent.repairLatestPointer (consistent : index.Consistent) :
    index.repairLatestPointer.2.Consistent := by
  unfold BlockIndex.repairLatestPointer
  dsimp only
  split
  · exact consistent
  · rename_i highest _
    split
    · rename_i newLatest _ stored
      apply consistent.retarget
      rw [consistent.numbered highest newLatest stored]
      exact stored
    · exact consistent

theorem Consistent.updateBlockStateRoot (consistent : index.Consistent) (hash stateRoot : Hex)
    (sameRoot : ∀ block ∈ index.getBlockByHash hash, ∀ tip ∈ index.latest, tip.number = block.number →
      block.stateRoot = some stateRoot) : (index.updateBlockStateRoot hash stateRoot).Consistent := by
  unfold BlockIndex.updateBlockStateRoot
  split
  · exact consistent
  · rename_i block found
    obtain ⟨num, _, stored⟩ := bind_eq_some_iff.mp found
    have number := consistent.numbered num block stored
    apply consistent.updateBlock
    · exact consistent.ownsHeight stored number rfl
    · intro tip latest sameNumber
      have tipRow := consistent.tip tip latest
      rw [show tip.number = num from sameNumber.trans number, stored] at tipRow
      cases tipRow
      have root := sameRoot block found block latest rfl
      rw [← root]

theorem Consistent.empty : BlockIndex.empty.Consistent where
  hashed := fun _ _ => nofun
  numbered := fun _ _ => nofun
  tip := fun _ latest => nomatch latest

theorem OwnsHeight.putBlock {later : ChainBlock} (owns : index.OwnsHeight later) (other : later.number ≠ block.number) :
    (index.putBlock block).OwnsHeight later := by
  intro row member sameHeight
  have points : (index.byHash.set block.hash block.number).get? row.1 = some row.2 := get?_eq_of_mem member
  rw [get?_set] at points
  by_cases own : row.1 = block.hash
  · rw [if_pos own] at points
    have written : block.number = row.2 := some.inj points
    exact absurd (written.trans sameHeight).symm other
  · rw [if_neg own, sameHeight] at points
    exact owns.hash_eq points

variable {blocks : List ChainBlock}

theorem Consistent.putBlocks (consistent : index.Consistent) (own : ∀ block ∈ blocks, index.OwnsHeight block)
    (distinct : blocks.Pairwise fun earlier later => later.number ≠ earlier.number) :
    (blocks.foldl BlockIndex.putBlock index).Consistent := by
  induction blocks generalizing index with
  | nil => exact consistent
  | cons block blocks ih =>
    obtain ⟨apart, rest⟩ := List.pairwise_cons.mp distinct
    apply ih (consistent.putBlock (own block (by simp)))
    · intro later member
      exact (own later (by simp [member])).putBlock (apart later member)
    · exact rest

end BlockIndex

variable {ρ τ : Type} [DecidableEq ρ] [DecidableEq τ] {p : Platform ρ τ} {e : Engine ρ τ}

namespace Engine

variable {host : Host}

theorem verifyBlockChain_increases {opts : VerifyOptions} {prev : ChainBlock}
    (verified : e.verifyBlockChain host opts (some prev) blocks = true) :
    ∀ block ∈ blocks, prev.number < block.number := by
  induction blocks generalizing prev with
  | nil => intro block member; cases member
  | cons first blocks ih =>
    simp only [verifyBlockChain, verifyBlock, continues, Bool.and_eq_true, beq_iff_eq] at verified
    intro block member
    rcases List.mem_cons.mp member with rfl | later
    · omega
    · have beyond := ih verified.2 block later
      omega

theorem verifyBlockChain_sorted {opts : VerifyOptions} {prev : Option ChainBlock}
    (verified : e.verifyBlockChain host opts prev blocks = true) :
    blocks.Pairwise fun earlier later => earlier.number < later.number := by
  induction blocks generalizing prev with
  | nil => exact .nil
  | cons first blocks ih =>
    simp only [verifyBlockChain, Bool.and_eq_true] at verified
    exact .cons (verifyBlockChain_increases verified.2) (ih verified.2)

theorem importSnapSyncBlocks_consistent (consistent : e.blockIndex.Consistent)
    (own : e.importable host blocks = true → ∀ block ∈ e.aheadOf blocks, e.blockIndex.OwnsHeight block) :
    (e.importSnapSyncBlocks host blocks).2.blockIndex.Consistent := by
  unfold importSnapSyncBlocks
  split
  · rename_i incomingTip last importable
    obtain ⟨_, verified⟩ := importable_spec importable last
    apply consistent.putBlocks
    · intro written member
      obtain ⟨block, ahead, rfl⟩ := List.mem_map.mp member
      exact own importable block ahead
    · exact List.pairwise_map.mpr ((verifyBlockChain_sorted verified).imp fun lower => ne_of_gt lower)
  · exact consistent

theorem getHeight_tip {tip : ChainBlock} (latest : e.blockIndex.latest = some tip) : e.getHeight = tip.number := by
  rw [getHeight, getTip, getLatestBlock, latest]
  rfl

theorem newlyFinal_some {height : Int} {block : ChainBlock} (final : e.newlyFinal height = some block) :
    e.blockIndex.getBlockByNumber (height - e.finalityDepth) = some block := by
  unfold newlyFinal at final
  dsimp only at final
  split at final
  · cases final
  · exact (filter_eq_some_iff.mp final).1

theorem tip_number_ne {tip : ChainBlock} {n : Int} (latest : e.blockIndex.latest = some tip)
    (deep : n = e.getHeight - e.finalityDepth) : tip.number ≠ n := by
  have positive : 1 ≤ e.finalityDepth := le_max_left 1 _
  have height := getHeight_tip latest
  omega

variable {existing : ChainBlock}

theorem not_tip_of_hash_ne
    (tipRow : ∀ tip, e.getTip = some tip → e.blockIndex.getBlockByNumber tip.number = some tip)
    (row : e.blockIndex.getBlockByNumber existing.number = some existing)
    (notTip : e.getTip.map ChainBlock.hash ≠ some existing.hash) (tip : ChainBlock) (latest : e.getTip = some tip) :
    tip.number ≠ existing.number := by
  intro sameNumber
  have stored := tipRow tip latest
  rw [sameNumber, row] at stored
  cases stored
  rw [latest] at notTip
  exact notTip rfl

variable (consistent : e.blockIndex.Consistent)
include consistent

theorem updateFinalityFlags_consistent (fails : Option String) :
    (e.updateFinalityFlags fails).2.blockIndex.Consistent := by
  -- The flag of the block that becomes final is never that of the tip.
  unfold updateFinalityFlags
  split
  · exact consistent
  · rename_i block final
    split
    · exact consistent
    · have stored := newlyFinal_some final
      have number := consistent.numbered _ block stored
      apply consistent.updateBlock
      · exact consistent.ownsHeight stored number rfl
      · intro tip latest sameNumber
        exact absurd sameNumber (tip_number_ne latest number)

variable {locallyProposed : Bool} {call : ApplyCall}

theorem applyDuplicate_consistent {block : ChainBlock}
    (found : e.blockIndex.getBlockByHash block.hash = some existing) :
    (e.applyDuplicate call existing block locallyProposed).2.blockIndex.Consistent := by
  obtain ⟨num, _, stored⟩ := bind_eq_some_iff.mp found
  have number := consistent.numbered num existing stored
  subst number
  have owns : e.blockIndex.OwnsHeight { existing with bftFinalized := some true } :=
    consistent.ownsHeight stored rfl rfl
  unfold applyDuplicate
  split
  · split
    · exact consistent
    · dsimp only
      split
      · exact consistent.putBlock owns
      · rename_i notTip
        apply consistent.updateBlock owns
        -- The tip itself takes the other branch, which writes the pointer too.
        intro tip latest sameNumber
        exact absurd sameNumber (not_tip_of_hash_ne consistent.tip stored notTip tip latest)
  · exact consistent

theorem finishBlock_consistent {block : ChainBlock} {totalGasUsed : Int}
    {s : PersistentStateTrie ρ τ} (owns : e.blockIndex.OwnsHeight block) :
    (finishBlock p e call block locallyProposed totalGasUsed s).2.blockIndex.Consistent := by
  unfold finishBlock
  dsimp only
  split
  · exact consistent
  · rename_i stored sealed
    obtain ⟨number, hash⟩ := sealBlock_keeps sealed
    split
    · exact consistent
    · apply updateFinalityFlags_consistent
      apply consistent.putBlock
      intro row member sameHeight
      rw [hash]
      exact owns row member (sameHeight.trans number)

theorem applyBlock_consistent {block : ChainBlock}
    (owns : e.blockIndex.getBlockByHash block.hash = none → validateBlockLink e.getTip block = true →
      e.blockIndex.OwnsHeight block) : (applyBlock p e call block locallyProposed).2.blockIndex.Consistent := by
  have applied := applyBlock_applied p e call block locallyProposed
  generalize applyBlock p e call block locallyProposed = outcome at applied ⊢
  cases applied with
  | reentrant _ => exact consistent
  | duplicate _ found => exact applyDuplicate_consistent consistent found
  | rejected _ _ _ => exact consistent
  | failed _ _ _ _ => exact consistent
  | finished _ fresh valid _ => exact finishBlock_consistent consistent (owns fresh (validate_link valid))

end Engine

inductive IndexOp (ρ τ : Type)
  | applyBlock (call : ApplyCall) (block : ChainBlock) (locallyProposed : Bool)
  | importSnapSyncBlocks (blocks : List ChainBlock)
  | updateBlock (block : ChainBlock)
  | updateBlockStateRoot (hash stateRoot : Hex)
  | demoteLatestTo (targetHeight : Int)
  | pruneStaleBlocksAfterTip (keepHeight : Int)
  | pruneStalePhantoms
  | repairLatestPointer
  | elsewhere (changed : Engine ρ τ)

namespace Engine

variable (p)

def indexStep (e : Engine ρ τ) : IndexOp ρ τ → Engine ρ τ
  | .applyBlock call block locallyProposed => (applyBlock p e call block locallyProposed).2
  | .importSnapSyncBlocks blocks => (e.importSnapSyncBlocks p.host blocks).2
  | .updateBlock block => { e with blockIndex := e.blockIndex.updateBlock block }
  | .updateBlockStateRoot hash stateRoot => { e with blockIndex := e.blockIndex.updateBlockStateRoot hash stateRoot }
  | .demoteLatestTo targetHeight => { e with blockIndex := (e.blockIndex.demoteLatestTo targetHeight).2 }
  | .pruneStaleBlocksAfterTip keepHeight =>
    { e with blockIndex := (e.blockIndex.pruneStaleBlocksAfterTip keepHeight).2 }
  | .pruneStalePhantoms => e.pruneStalePhantoms.2
  | .repairLatestPointer => { e with blockIndex := e.blockIndex.repairLatestPointer.2 }
  | .elsewhere changed => { changed with blockIndex := e.blockIndex }

/-- A block is written only where no other hash row points to its height, and neither the row of the
    tip nor the tip itself changes without the other. -/
def KeepsIndex (e : Engine ρ τ) : IndexOp ρ τ → Prop
  | .applyBlock _ block _ => e.blockIndex.getBlockByHash block.hash = none →
      validateBlockLink e.getTip block = true → e.blockIndex.OwnsHeight block
  | .importSnapSyncBlocks blocks => e.importable p.host blocks = true →
      ∀ block ∈ e.aheadOf blocks, e.blockIndex.OwnsHeight block
  | .updateBlock block => e.blockIndex.OwnsHeight block ∧
      ∀ tip ∈ e.getTip, tip.number = block.number → tip = block
  | .updateBlockStateRoot hash stateRoot => ∀ block ∈ e.blockIndex.getBlockByHash hash, ∀ tip ∈ e.getTip,
      tip.number = block.number → block.stateRoot = some stateRoot
  | .pruneStaleBlocksAfterTip keepHeight => ∀ tip ∈ e.getTip, tip.number ≤ keepHeight
  | .pruneStalePhantoms => ∀ tip ∈ e.getTip, e.foreignProposer tip = false
  | .demoteLatestTo _ | .repairLatestPointer | .elsewhere _ => True

variable {p}

theorem indexStep_consistent (consistent : e.blockIndex.Consistent) (op : IndexOp ρ τ) (keeps : e.KeepsIndex p op) :
    (e.indexStep p op).blockIndex.Consistent := by
  cases op with
  | applyBlock call block locallyProposed => exact applyBlock_consistent consistent keeps
  | importSnapSyncBlocks blocks => exact importSnapSyncBlocks_consistent consistent keeps
  | updateBlock block => exact consistent.updateBlock keeps.1 keeps.2
  | updateBlockStateRoot hash stateRoot => exact consistent.updateBlockStateRoot hash stateRoot keeps
  | demoteLatestTo targetHeight => exact consistent.demoteLatestTo targetHeight
  | pruneStaleBlocksAfterTip keepHeight =>
    show (e.blockIndex.dropBlocks fun n _ => decide (keepHeight < n)).Consistent
    apply consistent.dropBlocks
    intro tip latest
    have kept : tip.number ≤ keepHeight := keeps tip latest
    simpa using kept
  | pruneStalePhantoms =>
    show (e.blockIndex.dropBlocks fun n block => e.aboveTip n || e.foreignProposer block).Consistent
    apply consistent.dropBlocks
    intro tip latest
    have notAbove : e.aboveTip tip.number = false := by
      rw [aboveTip, getTip, getLatestBlock, latest]
      simp
    rw [notAbove, keeps tip latest]
    rfl
  | repairLatestPointer => exact consistent.repairLatestPointer
  | elsewhere changed => exact consistent

end Engine

/-- Every read of the index answers for the key it was asked, as long as each step keeps rows, hash
    rows and the tip in step. -/
theorem block_index_consistent (p : Platform ρ τ) (start : Engine ρ τ) (fresh : start.blockIndex = BlockIndex.empty)
    (e : Engine ρ τ) (reached : Reaches (Engine.KeepsIndex p) (indexStep p) start e) :
    (∀ hash block, e.blockIndex.getBlockByHash hash = some block → block.hash = hash) ∧
      (∀ num block, e.blockIndex.getBlockByNumber num = some block → block.number = num) ∧
      ∀ block, e.blockIndex.getLatestBlock = some block → e.blockIndex.getBlockByNumber block.number = some block := by
  have consistent : e.blockIndex.Consistent := by
    apply Reaches.invariant (fun e : Engine ρ τ => e.blockIndex.Consistent) _ _ reached
    · rw [fresh]
      exact BlockIndex.Consistent.empty
    · intro state op held keeps
      exact indexStep_consistent held op keeps
  exact ⟨consistent.hashed, consistent.numbered, consistent.tip⟩

section Sample

instance (p : Platform ρ τ) (e : Engine ρ τ) (op : IndexOp ρ τ) : Decidable (e.KeepsIndex p op) := by
  unfold KeepsIndex
  split <;> infer_instance

def lateSecondBlock : ChainBlock := sampleBlock 2 firstBlock.hash "node-2" 3000

def prunedDemotion : List (IndexOp (Option (FiniteMap Hex Bytes))
    (FiniteMap Hex (AccountState (Option (FiniteMap Hex Bytes))))) :=
  [.applyBlock sampleCall firstBlock true, .applyBlock sampleCall secondBlock true, .demoteLatestTo 1,
    .pruneStaleBlocksAfterTip 1, .applyBlock sampleCall lateSecondBlock true, .pruneStalePhantoms,
    .updateBlockStateRoot firstBlock.hash "0xlate", .repairLatestPointer]

theorem pruned_demotion_stays_consistent :
    (∀ hash block, (prunedDemotion.foldl (indexStep plainPlatform) sampleEngine).blockIndex.getBlockByHash hash =
        some block → block.hash = hash) ∧
      (prunedDemotion.foldl (indexStep plainPlatform) sampleEngine).blockIndex.getBlockByHash
        secondBlock.hash = none := by
  have admitted : Admitted (Engine.KeepsIndex plainPlatform) (indexStep plainPlatform) sampleEngine
      prunedDemotion := by decide +kernel
  exact ⟨(block_index_consistent plainPlatform sampleEngine rfl _ (Reaches.start.run admitted)).1, by decide +kernel⟩

def bareDemotion : List (IndexOp (Option (FiniteMap Hex Bytes))
    (FiniteMap Hex (AccountState (Option (FiniteMap Hex Bytes))))) :=
  [.applyBlock sampleCall firstBlock true, .applyBlock sampleCall secondBlock true, .demoteLatestTo 1,
    .applyBlock sampleCall lateSecondBlock true, .updateBlockStateRoot lateSecondBlock.hash "0xlate"]

theorem bare_demotion_misleads_reads :
    ∃ e, Reaches (fun _ _ => True) (indexStep plainPlatform) sampleEngine e ∧
      (∃ block, e.blockIndex.getBlockByHash secondBlock.hash = some block ∧ block.hash ≠ secondBlock.hash) ∧
      ∃ tip, e.blockIndex.getLatestBlock = some tip ∧ e.blockIndex.getBlockByNumber tip.number ≠ some tip := by
  have admitted : Admitted (fun _ _ => True) (indexStep plainPlatform) sampleEngine bareDemotion := by decide +kernel
  refine ⟨_, Reaches.start.run admitted, ?_, ?_⟩
  · exact ⟨{ lateSecondBlock with gasUsed := some 0, bftFinalized := some false, stateRoot := some "0xlate" }, by decide +kernel⟩
  · exact ⟨{ lateSecondBlock with gasUsed := some 0, bftFinalized := some false, stateRoot := some "0xempty" }, by decide +kernel⟩

end Sample

end Palimesh.Chain
