import Palimesh.Chain.IndexConsistency

set_option linter.unusedSectionVars false

namespace Palimesh.Chain

open Collections State Protocol BlockIndex List

namespace BlockIndex

structure Filed (index : BlockIndex) : Prop where
  numbered : ∀ n block, index.getBlockByNumber n = some block → block.number = n
  hashRow : ∀ n block, index.getBlockByNumber n = some block → index.byHash.get? block.hash = some n
  tip : ∀ block, index.getLatestBlock = some block → index.getBlockByNumber block.number = some block

variable {index : BlockIndex} {block other found : ChainBlock} {n m : Int}

theorem Filed.empty : empty.Filed where
  numbered := fun _ _ => nofun
  hashRow := fun _ _ => nofun
  tip := fun _ latest => nomatch latest

theorem Filed.height_unique (filed : index.Filed) (here : index.getBlockByNumber n = some block)
    (there : index.getBlockByNumber m = some other) (sameHash : other.hash = block.hash) : m = n := by
  have points := filed.hashRow m other there
  rw [sameHash, filed.hashRow n block here] at points
  exact (Option.some.inj points).symm

theorem Filed.unknown (filed : index.Filed) {hash : Hex} (fresh : index.getBlockByHash hash = none)
    (stored : index.getBlockByNumber n = some block) : block.hash ≠ hash := by
  intro same
  rw [getBlockByHash, ← same, filed.hashRow n block stored, Option.bind_some, stored] at fresh
  cases fresh

theorem Filed.updateBlock (filed : index.Filed)
    (alone : ∀ m other, index.getBlockByNumber m = some other → other.hash = block.hash → m = block.number)
    (sameTip : ∀ tip ∈ index.latest, tip.number = block.number → tip = block) : (index.updateBlock block).Filed where
  numbered := numbered_updateBlock filed.numbered
  hashRow := by
    intro m other row
    show (index.byHash.set block.hash block.number).get? other.hash = some m
    rw [InsertionMap.get?_set]
    rw [getBlockByNumber_updateBlock] at row
    split at row
    · rename_i here
      cases row
      rw [if_pos rfl, here]
    · rename_i elsewhere
      rw [if_neg fun same => elsewhere (alone m other row same)]
      exact filed.hashRow m other row
  tip := tip_updateBlock filed.tip sameTip

theorem Filed.putBlock (filed : index.Filed)
    (alone : ∀ m other, index.getBlockByNumber m = some other → other.hash = block.hash → m = block.number) :
    (index.putBlock block).Filed := by
  have untipped : { index with latest := none }.Filed := { filed with tip := fun _ latest => nomatch latest }
  have written : ({ index with latest := none }.updateBlock block).Filed :=
    untipped.updateBlock alone fun _ latest => nomatch latest
  refine { written with tip := ?_ }
  intro tip latest
  cases latest
  exact (getBlockByNumber_updateBlock index block block.number).trans (if_pos rfl)

theorem getBlockByNumber_putBlock (index : BlockIndex) (block : ChainBlock) (n : Int) :
    (index.putBlock block).getBlockByNumber n = if n = block.number then some block else index.getBlockByNumber n :=
  getBlockByNumber_updateBlock index block n

variable {blocks : List ChainBlock}

theorem stored_putBlocks (stored : (blocks.foldl BlockIndex.putBlock index).getBlockByNumber n = some found) :
    (found ∈ blocks ∧ found.number = n) ∨ index.getBlockByNumber n = some found := by
  induction blocks generalizing index with
  | nil => exact .inr stored
  | cons block blocks ih =>
    rcases ih stored with ⟨member, number⟩ | earlier
    · exact .inl ⟨mem_cons_of_mem _ member, number⟩
    · rw [getBlockByNumber_putBlock] at earlier
      split at earlier
      · rename_i here
        cases earlier
        exact .inl ⟨mem_cons_self, here.symm⟩
      · exact .inr earlier

theorem Filed.putBlocks (filed : index.Filed)
    (fresh : ∀ block ∈ blocks, ∀ m other, index.getBlockByNumber m = some other → other.hash ≠ block.hash)
    (distinct : blocks.Pairwise fun earlier later => earlier.hash ≠ later.hash) :
    (blocks.foldl BlockIndex.putBlock index).Filed := by
  induction blocks generalizing index with
  | nil => exact filed
  | cons block blocks ih =>
    obtain ⟨apart, rest⟩ := pairwise_cons.mp distinct
    apply ih _ _ rest
    · exact filed.putBlock fun m other row same => absurd same (fresh block mem_cons_self m other row)
    · intro later member m other row
      rw [getBlockByNumber_putBlock] at row
      split at row
      · cases row
        exact apart later member
      · exact fresh later (mem_cons_of_mem _ member) m other row

end BlockIndex

variable {ρ τ : Type} [DecidableEq ρ] [DecidableEq τ] {p : Platform ρ τ} {e : Engine ρ τ} {block : ChainBlock}

inductive ChainOp
  | applyBlock (call : ApplyCall) (block : ChainBlock) (locallyProposed : Bool)
  | importSnapSyncBlocks (blocks : List ChainBlock)

namespace Engine

variable (p) in
def chainStep (e : Engine ρ τ) : ChainOp → Engine ρ τ
  | .applyBlock call block locallyProposed => (applyBlock p e call block locallyProposed).2
  | .importSnapSyncBlocks blocks => (e.importSnapSyncBlocks p.host blocks).2

variable (p) in
def succeeds (e : Engine ρ τ) : ChainOp → Bool
  | .applyBlock call block locallyProposed => decide ((applyBlock p e call block locallyProposed).1 = .ok ())
  | .importSnapSyncBlocks blocks => (e.importSnapSyncBlocks p.host blocks).1

/-- A window of blocks with hashes of their own, whose last block makes no block of the local chain
    final that is not final already. -/
def CrossesNothing (e : Engine ρ τ) : ChainOp → Prop
  | .applyBlock _ _ _ => True
  | .importSnapSyncBlocks blocks =>
    (∀ block ∈ blocks, e.getHeight < block.number → e.blockIndex.getBlockByHash block.hash = none) ∧
      (blocks.Pairwise fun earlier later => earlier.hash ≠ later.hash) ∧
      ∀ incomingTip ∈ blocks.getLast?, ∀ row ∈ e.blockIndex.byNumber.entries,
        row.1 + e.finalityDepth ≤ incomingTip.number → row.1 + e.finalityDepth ≤ e.getHeight

structure FlaggedTo (e : Engine ρ τ) (height : Int) : Prop where
  filed : e.blockIndex.Filed
  below : ∀ n block, e.blockIndex.getBlockByNumber n = some block → n ≤ e.getHeight
  flags : ∀ n block, e.blockIndex.getBlockByNumber n = some block → 1 ≤ n →
    block.finalized = decide (n + e.finalityDepth ≤ height)

variable {height : Int}

theorem FlaggedTo.write {newHeight : Int} {index : BlockIndex} (flagged : e.FlaggedTo height)
    (written : ChainBlock) (filed : index.Filed) (up : e.getHeight ≤ { e with blockIndex := index }.getHeight)
    (inside : written.number ≤ { e with blockIndex := index }.getHeight)
    (rows : ∀ n, index.getBlockByNumber n = if n = written.number then some written else e.blockIndex.getBlockByNumber n)
    (flag : 1 ≤ written.number → written.finalized = decide (written.number + e.finalityDepth ≤ newHeight))
    (others : ∀ n block, e.blockIndex.getBlockByNumber n = some block → 1 ≤ n → n ≠ written.number →
      (n + e.finalityDepth ≤ height ↔ n + e.finalityDepth ≤ newHeight)) :
    { e with blockIndex := index }.FlaggedTo newHeight where
  filed := filed
  below := by
    intro n found row
    rw [rows] at row
    split at row
    · rename_i here
      rw [here]
      exact inside
    · exact le_trans (flagged.below n found row) up
  flags := by
    intro n found row positive
    rw [rows] at row
    split at row
    · rename_i here
      subst here
      cases row
      exact flag positive
    · rename_i elsewhere
      rw [flagged.flags n found row positive]
      exact decide_eq_decide.mpr (others n found row positive elsewhere)

theorem FlaggedTo.applyDuplicate {existing : ChainBlock} (flagged : e.FlaggedTo height)
    (found : e.blockIndex.getBlockByHash block.hash = some existing) (call : ApplyCall) (locallyProposed : Bool) :
    let after := (e.applyDuplicate call existing block locallyProposed).2
    after.FlaggedTo height ∧ after.getHeight = e.getHeight := by
  obtain ⟨num, _, row⟩ := Option.bind_eq_some_iff.mp found
  have number := flagged.filed.numbered num existing row
  subst number
  have alone : ∀ m other, e.blockIndex.getBlockByNumber m = some other → other.hash = existing.hash → m = existing.number :=
    fun m other there same => flagged.filed.height_unique row there same
  unfold Engine.applyDuplicate
  split
  · split
    · exact ⟨flagged, rfl⟩
    · dsimp only
      split
      · rename_i isTip
        obtain ⟨tip, latest, sameHash⟩ := Option.map_eq_some_iff.mp isTip
        -- The hash row of the tip points to the tip, so the promoted block is the tip.
        have sameNumber : tip.number = existing.number := alone _ tip (flagged.filed.tip tip latest) sameHash
        have sameHeight : e.getHeight = existing.number := (getHeight_tip latest).trans sameNumber
        refine ⟨flagged.write { existing with bftFinalized := some true } ?_ ?_ ?_ ?_ ?_ ?_, sameHeight.symm⟩
        · exact flagged.filed.putBlock alone
        · exact le_of_eq sameHeight
        · exact le_refl existing.number
        · exact getBlockByNumber_putBlock _ _
        · exact flagged.flags _ existing row
        · exact fun _ _ _ _ _ => Iff.rfl
      · rename_i notTip
        refine ⟨flagged.write { existing with bftFinalized := some true } ?_ ?_ ?_ ?_ ?_ ?_, rfl⟩
        · apply flagged.filed.updateBlock
          · exact alone
          · intro tip latest sameNumber
            exact absurd sameNumber (not_tip_of_hash_ne flagged.filed.tip row notTip tip latest)
        · exact le_refl e.getHeight
        · exact flagged.below _ existing row
        · exact getBlockByNumber_updateBlock _ _
        · exact flagged.flags _ existing row
        · exact fun _ _ _ _ _ => Iff.rfl
  · exact ⟨flagged, rfl⟩

theorem newlyFinal_none (nothing : e.newlyFinal height = none) (positive : 1 ≤ height - e.finalityDepth)
    (stored : e.blockIndex.getBlockByNumber (height - e.finalityDepth) = some block) : block.finalized = true := by
  unfold newlyFinal at nothing
  rw [if_neg (by omega), stored] at nothing
  simpa using nothing

theorem FlaggedTo.updateFinalityFlags {fails : Option String} (flagged : e.FlaggedTo (e.getHeight - 1))
    (succeeded : (e.updateFinalityFlags fails).1 = .ok ()) :
    let after := (e.updateFinalityFlags fails).2
    after.FlaggedTo after.getHeight := by
  -- Of the heights below a tip that moved up by one, one crosses the depth.
  have deep : 1 ≤ e.finalityDepth := le_max_left 1 _
  unfold Engine.updateFinalityFlags at succeeded ⊢
  split at succeeded
  · rename_i nothing
    refine ⟨flagged.filed, flagged.below, ?_⟩
    intro n found row positive
    have flag := flagged.flags n found row positive
    by_cases crossing : n = e.getHeight - e.finalityDepth
    · subst crossing
      have final := newlyFinal_none nothing positive row
      rw [flag, decide_eq_true_eq] at final
      omega
    · rw [flag]
      exact decide_eq_decide.mpr (by dsimp only; omega)
  · rename_i final newly
    have row := newlyFinal_some newly
    have number := flagged.filed.numbered _ final row
    split at succeeded
    · cases succeeded
    · have kept : { e with blockIndex := e.blockIndex.updateBlock { final with finalized := true } }.getHeight = e.getHeight :=
        rfl
      apply flagged.write { final with finalized := true }
      · apply flagged.filed.updateBlock
        · intro m other there same
          exact (flagged.filed.height_unique row there same).trans number.symm
        · intro tip latest sameNumber
          exact absurd sameNumber (tip_number_ne latest number)
      · exact le_refl e.getHeight
      · show final.number ≤ e.getHeight
        omega
      · exact getBlockByNumber_updateBlock _ _
      · intro _
        exact (decide_eq_true (by rw [kept]; dsimp only; omega)).symm
      · intro n other there positive elsewhere
        rw [kept]
        dsimp only at elsewhere
        omega

theorem aheadOf_subset (blocks : List ChainBlock) : (e.aheadOf blocks).Sublist blocks := by
  unfold aheadOf
  split
  · exact List.Sublist.refl _
  · split
    · exact filter_sublist
    · exact List.Sublist.refl _

theorem aheadOf_between {host : Host} {incomingTip : ChainBlock} (importable : e.importable host blocks = true)
    (last : blocks.getLast? = some incomingTip) :
    ∀ block ∈ e.aheadOf blocks, e.getHeight < block.number ∧ block.number ≤ incomingTip.number := by
  obtain ⟨ahead, verified⟩ := importable_spec importable last
  obtain ⟨init, cut⟩ := getLast?_eq_some_iff.mp (aheadOf_getLast? last ahead)
  have sorted := verifyBlockChain_sorted verified
  intro block member
  constructor
  · cases blocks with
    | nil => cases last
    | cons first rest =>
      have trimmed : e.aheadOf (first :: rest) = if first.number ≤ e.getHeight then
          (first :: rest).filter fun block => e.getHeight < block.number else first :: rest := rfl
      rw [trimmed] at member sorted
      split at member
      · simpa using (mem_filter.mp member).2
      · rename_i beyond
        rw [if_neg beyond] at sorted
        rcases mem_cons.mp member with rfl | later
        · omega
        · have higher := (pairwise_cons.mp sorted).1 block later
          omega
  · rw [cut] at member sorted
    rcases mem_append.mp member with earlier | final
    · have lower := (pairwise_append.mp sorted).2.2 block earlier incomingTip (by simp)
      omega
    · rw [mem_singleton.mp final]

variable (flagged : e.FlaggedTo e.getHeight)
include flagged

theorem FlaggedTo.putBlock {stored : ChainBlock} (fresh : e.blockIndex.getBlockByHash stored.hash = none)
    (next : stored.number = e.getHeight + 1) (unflagged : stored.finalized = false) :
    { e with blockIndex := e.blockIndex.putBlock stored }.FlaggedTo e.getHeight := by
  have newHeight : { e with blockIndex := e.blockIndex.putBlock stored }.getHeight = stored.number := rfl
  have deep : 1 ≤ e.finalityDepth := le_max_left 1 _
  apply flagged.write stored
  · apply flagged.filed.putBlock
    intro m other row same
    exact absurd same (flagged.filed.unknown fresh row)
  · omega
  · omega
  · exact getBlockByNumber_putBlock _ _
  · intro _
    rw [unflagged]
    exact (decide_eq_false (by omega)).symm
  · exact fun _ _ _ _ _ => Iff.rfl

variable {locallyProposed : Bool}

theorem FlaggedTo.finishBlock {call : ApplyCall} {totalGasUsed : Int}
    {s : PersistentStateTrie ρ τ} (fresh : e.blockIndex.getBlockByHash block.hash = none)
    (next : block.number = e.getHeight + 1)
    (succeeded : (finishBlock p e call block locallyProposed totalGasUsed s).1 = .ok ()) :
    let after := (finishBlock p e call block locallyProposed totalGasUsed s).2
    after.FlaggedTo after.getHeight := by
  unfold Engine.finishBlock at succeeded ⊢
  dsimp only at succeeded ⊢
  split at succeeded
  · cases succeeded
  · rename_i stored sealed
    split at succeeded
    · cases succeeded
    · obtain ⟨number, hash⟩ := sealBlock_keeps sealed
      have unflagged : stored.finalized = false := by
        obtain ⟨_, rfl⟩ := sealBlock_eq sealed
        rfl
      have grown := flagged.putBlock (hash.symm ▸ fresh) (number.trans next) unflagged
      have behind : stored.number - 1 = e.getHeight := by omega
      apply FlaggedTo.updateFinalityFlags _ succeeded
      show FlaggedTo _ (stored.number - 1)
      rw [behind]
      exact { grown with }

theorem FlaggedTo.applyBlock {call : ApplyCall}
    (succeeded : (applyBlock p e call block locallyProposed).1 = .ok ()) :
    let after := (applyBlock p e call block locallyProposed).2
    after.FlaggedTo after.getHeight := by
  have applied := applyBlock_applied p e call block locallyProposed
  generalize Engine.applyBlock p e call block locallyProposed = outcome at applied succeeded ⊢
  cases applied with
  | reentrant _ => cases succeeded
  | duplicate _ found =>
    obtain ⟨kept, sameHeight⟩ := flagged.applyDuplicate found call locallyProposed
    dsimp only
    rw [sameHeight]
    exact kept
  | rejected _ _ _ => cases succeeded
  | failed _ _ _ _ => cases succeeded
  | finished _ fresh valid _ => exact flagged.finishBlock fresh (validateBlockLink_number (validate_link valid)) succeeded

theorem FlaggedTo.importSnapSyncBlocks {host : Host} (crosses : e.CrossesNothing (.importSnapSyncBlocks blocks)) :
    let after := (e.importSnapSyncBlocks host blocks).2
    after.FlaggedTo after.getHeight := by
  obtain ⟨unknown, distinct, nothing⟩ := crosses
  unfold Engine.importSnapSyncBlocks
  split
  · rename_i incomingTip last importable
    have between := aheadOf_between importable last
    have ahead := (importable_spec importable last).1
    have newHeight : getHeight { e with
        blockIndex := ((e.aheadOf blocks).map (e.normalized incomingTip.number)).foldl BlockIndex.putBlock e.blockIndex } =
          incomingTip.number := by
      obtain ⟨_, newTip, _⟩ := importSnapSyncBlocks_tip last importable
      rw [Engine.importSnapSyncBlocks, last, importable] at newTip
      rw [getHeight, newTip]
      rfl
    dsimp only
    rw [newHeight]
    refine ⟨?_, ?_, ?_⟩
    · apply flagged.filed.putBlocks
      · intro written member m other row
        obtain ⟨block, inside, rfl⟩ := mem_map.mp member
        have fresh := unknown block ((aheadOf_subset blocks).subset inside) (between block inside).1
        exact flagged.filed.unknown fresh row
      · exact pairwise_map.mpr (distinct.sublist (aheadOf_subset blocks))
    · intro n found row
      rw [newHeight]
      rcases stored_putBlocks row with ⟨member, number⟩ | earlier
      · obtain ⟨block, inside, rfl⟩ := mem_map.mp member
        rw [← number]
        exact (between block inside).2
      · have low := flagged.below n found earlier
        omega
    · intro n found row positive
      rcases stored_putBlocks row with ⟨member, number⟩ | earlier
      · obtain ⟨block, inside, rfl⟩ := mem_map.mp member
        rw [← number]
        rfl
      · rw [flagged.flags n found earlier positive]
        have kept := nothing incomingTip last (n, found) ((InsertionMap.mem_entries _ _ _).mpr earlier)
        apply decide_eq_decide.mpr
        constructor
        · intro deep
          show n + e.finalityDepth ≤ incomingTip.number
          omega
        · exact kept
  · exact flagged

theorem FlaggedTo.chainStep (op : ChainOp) (succeeded : e.succeeds p op = true) (crosses : e.CrossesNothing op)
    : (e.chainStep p op).FlaggedTo (e.chainStep p op).getHeight := by
  cases op with
  | applyBlock call block locallyProposed => exact flagged.applyBlock (of_decide_eq_true succeeded)
  | importSnapSyncBlocks blocks => exact flagged.importSnapSyncBlocks crosses

end Engine

/-- A stored block is flagged final exactly from the depth below the tip on, as long as no import
    jumps over a local block's crossing. -/
theorem depth_flags_exact (p : Platform ρ τ) (start : Engine ρ τ) (fresh : start.blockIndex = empty)
    (e : Engine ρ τ)
    (reached : Reaches (fun e op => e.succeeds p op = true ∧ e.CrossesNothing op) (Engine.chainStep p) start e)
    (n : Int) (block : ChainBlock) (stored : e.blockIndex.getBlockByNumber n = some block)
    (inChain : 1 ≤ n ∧ n ≤ e.getHeight) :
    block.finalized = true ↔ n + max 1 e.cfg.finalityDepth ≤ e.getHeight := by
  have flagged : e.FlaggedTo e.getHeight := by
    apply Reaches.invariant (fun e : Engine ρ τ => e.FlaggedTo e.getHeight) _ _ reached
    · refine ⟨?_, ?_, ?_⟩
      · rw [fresh]
        exact BlockIndex.Filed.empty
      · intro n block row
        rw [fresh] at row
        cases row
      · intro n block row
        rw [fresh] at row
        cases row
    · intro state op held admitted
      exact held.chainStep op admitted.1 admitted.2
  rw [flagged.flags n block stored inChain.1, decide_eq_true_eq]
  exact Iff.rfl

section Sample

instance (e : Engine ρ τ) (op : ChainOp) : Decidable (e.CrossesNothing op) := by
  unfold Engine.CrossesNothing
  split <;> infer_instance

def thirdBlock : ChainBlock := sampleBlock 3 secondBlock.hash "node-1" 3000

def fourthBlock : ChainBlock := sampleBlock 4 thirdBlock.hash "node-2" 4000

def shortJump : List ChainOp :=
  [.applyBlock sampleCall firstBlock true, .importSnapSyncBlocks [secondBlock, thirdBlock],
    .applyBlock sampleCall fourthBlock true]

theorem short_jump_flags_exact :
    let e := shortJump.foldl (Engine.chainStep plainPlatform) sampleEngine
    ∃ block, e.blockIndex.getBlockByNumber 1 = some block ∧
      (block.finalized = true ↔ 1 + max 1 e.cfg.finalityDepth ≤ e.getHeight) ∧ block.finalized = true := by
  intro e
  obtain ⟨admitted, stored, inChain⟩ :
      Admitted (fun e op => e.succeeds plainPlatform op = true ∧ e.CrossesNothing op) (Engine.chainStep plainPlatform)
          sampleEngine shortJump ∧
        e.blockIndex.getBlockByNumber 1 = some { firstBlock with
          gasUsed := some 0, bftFinalized := some false, stateRoot := some "0xempty", finalized := true } ∧
        1 ≤ (1 : Int) ∧ 1 ≤ e.getHeight := by decide +kernel
  refine ⟨_, stored, ?_, rfl⟩
  exact depth_flags_exact plainPlatform sampleEngine rfl e (Reaches.start.run admitted) 1 _ stored inChain

def longJump : List ChainOp :=
  [.applyBlock sampleCall firstBlock true, .importSnapSyncBlocks [secondBlock, thirdBlock, fourthBlock]]

theorem long_jump_forgets_flag :
    ∃ e, Reaches (fun e op => e.succeeds plainPlatform op = true) (Engine.chainStep plainPlatform) sampleEngine e ∧
      ∃ block, e.blockIndex.getBlockByNumber 1 = some block ∧ 1 ≤ e.getHeight ∧ block.finalized = false ∧
        1 + max 1 e.cfg.finalityDepth ≤ e.getHeight := by
  have admitted : Admitted (fun e op => e.succeeds plainPlatform op = true) (Engine.chainStep plainPlatform) sampleEngine
      longJump := by decide +kernel
  refine ⟨_, Reaches.start.run admitted,
    { firstBlock with gasUsed := some 0, bftFinalized := some false, stateRoot := some "0xempty" }, ?_⟩
  decide +kernel

end Sample

end Palimesh.Chain
