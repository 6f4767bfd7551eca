import Palimesh.Chain.IndexConsistency
import Palimesh.State.Rollback

set_option linter.unusedSectionVars false

namespace Palimesh.Chain

open Collections State Engine

variable {ρ τ : Type} [DecidableEq ρ] [DecidableEq τ] {p : Platform ρ τ} {e e' : Engine ρ τ} {call : ApplyCall}
  {block : ChainBlock} {locallyProposed : Bool} {s base : PersistentStateTrie ρ τ} {l : Level ρ}

structure Unchanged (H : Hashes ρ τ) (e e' : Engine ρ τ) : Prop where
  root : e'.stateTrie.trie.root = e.stateTrie.trie.root
  stateRoot : e'.stateTrie.stateRoot = e.stateTrie.stateRoot
  accounts : ∀ address, (e'.stateTrie.get H address).1 = (e.stateTrie.get H address).1
  storage : ∀ address slot, (e'.stateTrie.getStorageAt H address slot).1 = (e.stateTrie.getStorageAt H address slot).1
  persisted : e'.stateTrie.db.stateRoot = e.stateTrie.db.stateRoot
  tip : e'.getTip = e.getTip

theorem Unchanged.refl (H : Hashes ρ τ) (e : Engine ρ τ) : Unchanged H e e :=
  ⟨rfl, rfl, fun _ => rfl, fun _ _ => rfl, rfl, rfl⟩

theorem Restored.reads {H : Hashes ρ τ} (restored : Restored base s) (settled : Settled H base l) :
    (∀ address, (s.get H address).1 = (base.get H address).1) ∧
      ∀ address slot, (s.getStorageAt H address slot).1 = (base.getStorageAt H address slot).1 := by
  have refines := restored.refines settled
  constructor
  · intro address
    obtain ⟨_, readAfter, _⟩ := RefinesWith.get refines address
    obtain ⟨_, readBefore, _⟩ := RefinesWith.get settled.refines address
    rw [readAfter, readBefore]
  · intro address slot
    rw [refines.getStorageAt_value, settled.refines.getStorageAt_value]

theorem Unchanged.of_restored (settled : Settled p.H e.stateTrie l) (restored : Restored e.stateTrie s.revert.revert)
    (persisted : s.db.stateRoot = e.stateTrie.db.stateRoot) : Unchanged p.H e (e.rollback s) := by
  obtain ⟨accounts, storage⟩ := Restored.reads restored settled
  have root : s.revert.revert.trie.root = e.stateTrie.trie.root := by rw [restored.trie]
  refine ⟨root, ?_, accounts, storage, persisted, rfl⟩
  change (some s.revert.revert.trie.root).or _ = e.stateTrie.lastStateRoot.or _
  rw [settled.live, root]
  rfl

section Execution

variable {n : Nat} (p e call block locallyProposed)

theorem executeBlock_shielded (shield : Shielded base n 0 s) (positive : 0 < n) :
    Shielded base n 0 (executeBlock p e call block locallyProposed s).2 :=
  executeBlock_keeps e call block locallyProposed (fun _ _ shield balanced => shield.run positive balanced) shield

theorem commitBlock_flushed (shield : Shielded base 2 0 s) :
    Flushed base (commitBlock p s).2 ∧ (commitBlock p s).1 = (commitBlock p s).2.trie.root := by
  have inner : Shielded base 1 0 (s.commit p.H).2 := shield.lower.commit Nat.one_pos
  obtain ⟨flushed, root⟩ := inner.flush (H := p.H)
  unfold commitBlock
  rw [flushed.computeStateRoot]
  exact ⟨flushed, root⟩

end Execution

theorem rollback_flushed_iff (settled : Settled p.H e.stateTrie l) (flushed : Flushed e.stateTrie s) :
    Unchanged p.H e (e.rollback s) ↔ s.trie.root = e.stateTrie.trie.root := by
  -- Reverting after both commits restores the state only if the block has not changed it.
  have first := revert_closed flushed.closed
  have second : s.revert.revert.trie = s.trie := by
    rw [revert_closed (by rw [first]; exact flushed.closed), first]
  constructor
  · intro unchanged
    have root : s.revert.revert.trie.root = e.stateTrie.trie.root := unchanged.root
    rw [← root, second]
  · intro same
    apply Unchanged.of_restored settled (flushed.restored same).revert
    rw [flushed.persisted, settled.persisted, same]

namespace Engine

variable (p e call block locallyProposed)

def SealFails (totalGasUsed : Int) (s : PersistentStateTrie ρ τ) : Prop :=
  (∃ err, e.sealBlock block locallyProposed (p.rootHex (commitBlock p s).1) totalGasUsed = .error err) ∨
    call.batchFails.isSome = true

/-- An executed block fails afterwards only if it has left the state root as it was, and the write of finality
    flags does not fail once it is stored. -/
def FailsCleanly : Prop :=
  e.applyingBlock = false → e.blockIndex.getBlockByHash block.hash = none →
    e.validate p.host call.now block locallyProposed = .ok () →
    ∀ totalGasUsed s, executeBlock p e call block locallyProposed e.stateTrie.checkpoint.checkpoint =
        (.ok totalGasUsed, s) →
      (SealFails p e call block locallyProposed totalGasUsed s → (commitBlock p s).1 = e.stateTrie.trie.root) ∧
        (¬ SealFails p e call block locallyProposed totalGasUsed s →
          call.finalityFails = none ∨ e.newlyFinal block.number = none)

variable {p e call block locallyProposed}

theorem newlyFinal_putBlock {stored : ChainBlock} {trie : PersistentStateTrie ρ τ} (number : stored.number = block.number) :
    newlyFinal { e with stateTrie := trie, blockIndex := e.blockIndex.putBlock stored } stored.number =
      e.newlyFinal block.number := by
  have deep : 1 ≤ e.finalityDepth := le_max_left 1 _
  have below : block.number - e.finalityDepth ≠ stored.number := by omega
  have row : (e.blockIndex.putBlock stored).getBlockByNumber (block.number - e.finalityDepth) =
      e.blockIndex.getBlockByNumber (block.number - e.finalityDepth) :=
    (BlockIndex.getBlockByNumber_updateBlock _ _ _).trans (if_neg below)
  unfold newlyFinal
  rw [number]
  change (if block.number - e.finalityDepth < 1 then none
    else ((e.blockIndex.putBlock stored).getBlockByNumber (block.number - e.finalityDepth)).filter _) = _
  rw [row]

theorem linked_tip_ne {stored : ChainBlock} (number : stored.number = block.number)
    (linked : validateBlockLink e.getTip block = true) : some stored ≠ e.getTip := by
  intro same
  have next := validateBlockLink_number linked
  rw [← same] at next
  have above : block.number = stored.number + 1 := next
  omega

theorem finishBlock_unchanged_iff (settled : Settled p.H e.stateTrie l) (shield : Shielded e.stateTrie 2 0 s)
    (linked : validateBlockLink e.getTip block = true) (totalGasUsed : Int) :
    (∀ err e', finishBlock p e call block locallyProposed totalGasUsed s = (.error err, e') → Unchanged p.H e e') ↔
      (SealFails p e call block locallyProposed totalGasUsed s → (commitBlock p s).1 = e.stateTrie.trie.root) ∧
        (¬ SealFails p e call block locallyProposed totalGasUsed s →
          call.finalityFails = none ∨ e.newlyFinal block.number = none) := by
  obtain ⟨flushed, root⟩ := commitBlock_flushed (p := p) shield
  have rolledBack (err : ApplyError) :
      (∀ err' e', ((.error err, e.rollback (commitBlock p s).2) : Except ApplyError Unit × Engine ρ τ) = (.error err', e') →
        Unchanged p.H e e') ↔ (commitBlock p s).1 = e.stateTrie.trie.root := by
    rw [root, ← rollback_flushed_iff settled flushed]
    constructor
    · intro unchanged
      exact unchanged err _ rfl
    · intro unchanged err' e' same
      cases same
      exact unchanged
  unfold finishBlock
  dsimp only
  split
  · rename_i err refused
    have fails : SealFails p e call block locallyProposed totalGasUsed s := .inl ⟨err, refused⟩
    rw [rolledBack err]
    exact ⟨fun same => ⟨fun _ => same, fun holds => absurd fails holds⟩, fun both => both.1 fails⟩
  · rename_i stored sealed
    obtain ⟨number, _⟩ := sealBlock_keeps sealed
    split
    · rename_i message failed
      have fails : SealFails p e call block locallyProposed totalGasUsed s := .inr (by rw [failed]; rfl)
      rw [rolledBack (.thrown message)]
      exact ⟨fun same => ⟨fun _ => same, fun holds => absurd fails holds⟩, fun both => both.1 fails⟩
    · rename_i written
      have seals : ¬ SealFails p e call block locallyProposed totalGasUsed s := by
        rintro (⟨err, refused⟩ | failed)
        · rw [sealed] at refused
          cases refused
        · rw [written] at failed
          cases failed
      have height : getHeight { e with
          stateTrie := (commitBlock p s).2
          blockIndex := e.blockIndex.putBlock stored } = stored.number := rfl
      unfold updateFinalityFlags
      rw [height, newlyFinal_putBlock number]
      split
      · rename_i none'
        exact ⟨fun _ => ⟨fun fails => absurd fails seals, fun _ => .inr none'⟩, fun _ _ _ => nofun⟩
      · rename_i final crosses
        split
        · rename_i message failed
          constructor
          · intro unchanged
            have tip := (unchanged _ _ rfl).tip
            exact absurd tip (linked_tip_ne number linked)
          · rintro ⟨_, clean⟩
            rcases clean seals with unfailed | uncrossed
            · rw [failed] at unfailed
              cases unfailed
            · rw [crosses] at uncrossed
              cases uncrossed
        · rename_i unfailed
          exact ⟨fun _ => ⟨fun fails => absurd fails seals, fun _ => .inl unfailed⟩, fun _ _ _ => nofun⟩

theorem applyDuplicate_unchanged {existing : ChainBlock} {err : ApplyError}
    (failed : e.applyDuplicate call existing block locallyProposed = (.error err, e')) : e' = e := by
  unfold applyDuplicate at failed
  split at failed
  · split at failed
    · cases failed
      rfl
    · dsimp only at failed
      split at failed
      · cases failed
      · cases failed
  · cases failed

end Engine

section Sample

def payingPlatform (result : Except String Unit) : Platform (Option (FiniteMap Hex Bytes))
    (FiniteMap Hex (AccountState (Option (FiniteMap Hex Bytes)))) :=
  { plainPlatform with
    evm := { idleEvm with
      applyBlockContext := fun _ _ => ⟨[.state (.put "0xa" ⟨0, 5, none, zeroHash⟩)], rfl, result⟩ } }

theorem sampleEngine_settled : Settled plainHashes sampleEngine.stateTrie ⟨∅, World.empty⟩ where
  refines := (Refines.new emptyDatabase 10 10).recordRoot
  clean := fun _ => rfl
  live := rfl
  persisted := rfl

end Sample

end Palimesh.Chain
