import Palimesh.Chain.Engine

namespace Palimesh.Chain

open Collections State

structure PhantomPruning where
  scanned : Nat
  prunedAboveTip : Nat
  prunedInvalidProposer : Nat
  tipHeight : Option Int
  activeValidators : List String
deriving DecidableEq

namespace Engine

variable {ρ τ : Type}

section

variable (e : Engine ρ τ)

def validatorSet : List String :=
  let named := e.activeValidators.flatMap (fun v => [v.id, v.address]) ++ e.cfg.validators
  ((named.filter (· ≠ "")).map toLowerCase).eraseDups

def aboveTip (n : Int) : Bool := (e.getTip.map ChainBlock.number).any fun tipHeight => tipHeight < n

def foreignProposer (block : ChainBlock) : Bool :=
  toLowerCase block.proposer != "" && !e.validatorSet.contains (toLowerCase block.proposer)

def pruneStalePhantoms : PhantomPruning × Engine ρ τ :=
  let rows := e.blockIndex.byNumber.entries
  let above := rows.filter fun row => e.aboveTip row.1
  let foreign := rows.filter fun row => !e.aboveTip row.1 && e.foreignProposer row.2
  (⟨rows.length, above.length, foreign.length, e.getTip.map ChainBlock.number, e.validatorSet⟩,
    { e with blockIndex := e.blockIndex.dropBlocks fun n block => e.aboveTip n || e.foreignProposer block })

structure VerifyOptions where
  skipProposerCheck : Bool
  skipParentHashContinuity : Bool

/-- The links inside a window. Snapshots may have gaps in parent hashes and clocks, never in numbers. -/
def continues (opts : VerifyOptions) (prev : Option ChainBlock) (block : ChainBlock) : Bool :=
  match prev with
  | none => !(block.number == 1 && block.parentHash != zeroHash)
  | some prev =>
    (opts.skipParentHashContinuity || block.parentHash == prev.hash) && block.number == prev.number + 1 &&
      (opts.skipParentHashContinuity || decide (prev.timestampMs < block.timestampMs))

def hasValidSnapshotWeight (prev : Option ChainBlock) (block : ChainBlock) : Bool :=
  match block.cumulativeWeight, prev.bind ChainBlock.cumulativeWeight with
  | none, prevWeight => prevWeight.isNone
  | some weight, none => 0 < weight
  | some weight, some prevWeight => prevWeight < weight

def knownProposer (block : ChainBlock) : Bool :=
  let validators := if e.governance.isSome then e.activeValidators.map ValidatorInfo.id else e.cfg.validators
  validators.isEmpty || match e.setSchedule.map fun entries => allowedAt entries block.number with
    | some none => true
    | some (some era) => era.contains (toLowerCase block.proposer)
    | none => validators.any fun v => toLowerCase v == toLowerCase block.proposer

def signedByProposer (block : ChainBlock) : Bool :=
  match e.signatureVerifier, truthy block.signature with
  | some verifyNodeSig, some signature => verifyNodeSig ("block:" ++ block.hash) signature block.proposer
  | _, _ => true

def verifyBlock (host : Host) (e : Engine ρ τ) (opts : VerifyOptions) (prev : Option ChainBlock) (block : ChainBlock) :
    Bool :=
  hashBlockPayload host block == block.hash && continues opts prev block && hasValidSnapshotWeight prev block &&
    (opts.skipProposerCheck || e.knownProposer block) && e.signedByProposer block

def verifyBlockChain (host : Host) (e : Engine ρ τ) (opts : VerifyOptions) : Option ChainBlock → List ChainBlock → Bool
  | _, [] => true
  | prev, block :: blocks => e.verifyBlock host opts prev block && e.verifyBlockChain host opts (some block) blocks

def snapSyncOptions : VerifyOptions := ⟨true, true⟩

def normalized (tipHeight : Int) (block : ChainBlock) : ChainBlock :=
  { block with finalized := decide (block.number + e.finalityDepth ≤ tipHeight), bftFinalized := some false }

def aheadOf (blocks : List ChainBlock) : List ChainBlock :=
  match blocks with
  | [] => []
  | first :: _ => if first.number ≤ e.getHeight then blocks.filter fun block => e.getHeight < block.number else blocks

end

def importable (host : Host) (e : Engine ρ τ) (blocks : List ChainBlock) : Bool :=
  match blocks.getLast? with
  | none => false
  | some incomingTip =>
    decide (e.getHeight < incomingTip.number) && !(e.aheadOf blocks).isEmpty &&
      e.verifyBlockChain host snapSyncOptions none (e.aheadOf blocks)

def importSnapSyncBlocks (host : Host) (e : Engine ρ τ) (blocks : List ChainBlock) : Bool × Engine ρ τ :=
  match blocks.getLast?, e.importable host blocks with
  | some incomingTip, true =>
    let written := (e.aheadOf blocks).map (e.normalized incomingTip.number)
    (true, { e with blockIndex := written.foldl BlockIndex.putBlock e.blockIndex })
  | _, _ => (false, e)

variable {e : Engine ρ τ} {host : Host} {window : List ChainBlock} {tip : ChainBlock}

theorem importable_spec (importable : e.importable host window = true) (last : window.getLast? = some tip) :
    e.getHeight < tip.number ∧ e.verifyBlockChain host snapSyncOptions none (e.aheadOf window) = true := by
  rw [Engine.importable, last] at importable
  simp only [Bool.and_eq_true, decide_eq_true_eq] at importable
  exact ⟨importable.1.1, importable.2⟩

theorem latest_putBlocks (index : BlockIndex) {blocks : List ChainBlock} (last : blocks.getLast? = some tip) :
    (blocks.foldl BlockIndex.putBlock index).latest = some tip := by
  obtain ⟨init, rfl⟩ := List.getLast?_eq_some_iff.mp last
  rw [List.foldl_append]
  rfl

theorem aheadOf_getLast? (last : window.getLast? = some tip) (ahead : e.getHeight < tip.number) :
    (e.aheadOf window).getLast? = some tip := by
  obtain ⟨init, rfl⟩ := List.getLast?_eq_some_iff.mp last
  unfold aheadOf
  split
  · rename_i empty
    simp at empty
  · split
    · rw [List.filter_append, List.filter_cons_of_pos (by simpa using ahead)]
      simp
    · exact last

theorem importSnapSyncBlocks_tip (last : window.getLast? = some tip) (importable : e.importable host window = true) :
    (e.importSnapSyncBlocks host window).1 = true ∧
      (e.importSnapSyncBlocks host window).2.getTip = some (e.normalized tip.number tip) ∧
        (e.importSnapSyncBlocks host window).2.stateTrie = e.stateTrie := by
  obtain ⟨ahead, _⟩ := importable_spec importable last
  unfold importSnapSyncBlocks
  rw [last, importable]
  refine ⟨rfl, ?_, rfl⟩
  apply latest_putBlocks
  rw [List.getLast?_map, aheadOf_getLast? last ahead]
  rfl

theorem importSnapSyncBlocks_refused (refused : e.importable host window = false) :
    e.importSnapSyncBlocks host window = (false, e) := by
  unfold importSnapSyncBlocks
  rw [refused]
  cases window.getLast? <;> rfl

end Engine

end Palimesh.Chain
