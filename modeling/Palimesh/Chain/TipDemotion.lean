import Palimesh.Chain.Atomicity

namespace Palimesh.Chain

open Collections State BlockIndex

structure PeerBlock where
  number : Option String
  hash : Hex

/-- The blocks of a peer's snapshot, if they come as an array, whose entries may be missing. -/
abbrev PeerSnapshot := Option (List (Option PeerBlock))

structure PromoteOptions where
  /-- `Math.ceil(total * fraction)` -/
  share : Nat → Int := fun total => (total + 1) / 2
  prune : Bool := false

inductive TipReason
  | agreed | phantomMismatch | peersUnreachable | noLocalTip | noQuorumAgreement
deriving DecidableEq

structure TipCheck where
  verified : Bool
  demoted : Bool
  demotedFrom : Option Int
  demotedTo : Option Int
  reason : TipReason
  peerCount : Nat
  prunedCount : Option Nat := none
deriving DecidableEq

def countBlock (counts : InsertionMap String (InsertionMap Hex Nat)) :
    Option PeerBlock → InsertionMap String (InsertionMap Hex Nat)
  | some ⟨some heightKey, hash⟩ =>
    if hash = "" then counts
    else
      let inner := (counts.get? heightKey).getD .empty
      counts.set heightKey (inner.set (toLowerCase hash) ((inner.get? (toLowerCase hash)).getD 0 + 1))
  | _ => counts

def heightHashCounts (snapshots : List PeerSnapshot) : InsertionMap String (InsertionMap Hex Nat) :=
  (snapshots.flatMap fun blocks => blocks.getD []).foldl countBlock .empty

def quorumAgrees (opts : PromoteOptions) (counts : InsertionMap String (InsertionMap Hex Nat)) (height : Int)
    (hash : Hex) : Bool :=
  match counts.get? (toString height) with
  | none => false
  | some peers =>
    let total := (peers.entries.map Prod.snd).sum
    max 1 (opts.share total) ≤ ((peers.get? (toLowerCase hash)).getD 0 : Int)

def scanLimit : Int := 256

/-- The scan from a height downwards, over so many heights. -/
def BlockIndex.scanBack (index : BlockIndex) (agrees : Int → Hex → Bool) : Nat → Int → Option (Int × BlockIndex)
  | 0, _ => none
  | heights + 1, h =>
    match index.getBlockByNumber h with
    | none => index.scanBack agrees heights (h - 1)
    | some localBlock =>
      if agrees h localBlock.hash then
        match index.demoteLatestTo h with
        | (none, _) => index.scanBack agrees heights (h - 1)
        | (some demotedTo, demoted) => some (demotedTo, demoted)
      else index.scanBack agrees heights (h - 1)

def BlockIndex.prunedAfter (index : BlockIndex) (opts : PromoteOptions) (h : Int) : Option Nat × BlockIndex :=
  if opts.prune then
    let result := index.pruneStaleBlocksAfterTip h
    (some result.1, result.2)
  else (none, index)

namespace Engine

variable {ρ τ : Type}

/-- Peers that cannot be asked are none. -/
def verifyAndPromoteTipWithPeers (e : Engine ρ τ) (fetched : Option (List PeerSnapshot)) (opts : PromoteOptions) :
    TipCheck × Engine ρ τ :=
  match e.blockIndex.getLatestBlock with
  | none => (⟨false, false, none, none, .noLocalTip, 0, none⟩, e)
  | some localTip =>
    let snapshots := fetched.getD []
    let kept := fun (verified : Bool) (reason : TipReason) =>
      (⟨verified, false, some localTip.number, some localTip.number, reason, snapshots.length, none⟩, e)
    if snapshots.length = 0 then kept false .peersUnreachable
    else
      let agrees := quorumAgrees opts (heightHashCounts snapshots)
      if agrees localTip.number localTip.hash then kept true .agreed
      else
        let scanFloor := if scanLimit < localTip.number then localTip.number - scanLimit else 1
        match e.blockIndex.scanBack agrees (localTip.number - scanFloor).toNat (localTip.number - 1) with
        | none => kept false .noQuorumAgreement
        | some (h, demoted) =>
          let pruned := demoted.prunedAfter opts h
          (⟨true, true, some localTip.number, some h, .phantomMismatch, snapshots.length, pruned.1⟩,
            { e with blockIndex := pruned.2 })

theorem scanBack_demotes {index demoted : BlockIndex} {agrees : Int → Hex → Bool} {heights : Nat} {start h : Int}
    (found : index.scanBack agrees heights start = some (h, demoted)) :
    ∃ parent, index.getBlockByNumber h = some parent ∧ demoted = { index with latest := some parent } := by
  induction heights generalizing start with
  | zero => cases found
  | succ heights ih =>
    rw [scanBack] at found
    split at found
    · exact ih found
    · rename_i localBlock stored
      split at found
      · rw [demoteLatestTo, stored] at found
        cases found
        exact ⟨localBlock, stored, rfl⟩
      · exact ih found

/-- A demotion writes the tip and, if asked to, prunes the rows above it; the state stays. -/
theorem demotion_eq {e : Engine ρ τ} {fetched : Option (List PeerSnapshot)} {opts : PromoteOptions}
    (demoted : (e.verifyAndPromoteTipWithPeers fetched opts).1.demoted = true) :
    ∃ h parent, (e.verifyAndPromoteTipWithPeers fetched opts).1.demotedTo = some h ∧
      e.blockIndex.getBlockByNumber h = some parent ∧ (e.verifyAndPromoteTipWithPeers fetched opts).2 =
        { e with blockIndex := { (e.blockIndex.prunedAfter opts h).2 with latest := some parent } } := by
  unfold verifyAndPromoteTipWithPeers at demoted ⊢
  dsimp only at demoted ⊢
  split at demoted
  · cases demoted
  · split at demoted
    · cases demoted
    · rename_i localTip latest asked
      split at demoted
      · cases demoted
      · rename_i disagreed
        split at demoted
        · cases demoted
        · rename_i h index found
          obtain ⟨parent, stored, rfl⟩ := scanBack_demotes found
          simp only [if_neg asked, if_neg disagreed]
          refine ⟨h, parent, rfl, stored, ?_⟩
          unfold prunedAfter
          split
          · rfl
          · rfl

variable {e : Engine ρ τ} {call : ApplyCall} {block : ChainBlock} {locallyProposed : Bool}

theorem getTip_updateFinalityFlags (e : Engine ρ τ) (fails : Option String) :
    (e.updateFinalityFlags fails).2.getTip = e.getTip := by
  unfold updateFinalityFlags
  split
  · rfl
  · split
    · rfl
    · rfl

theorem applyDuplicate_tip {existing parent tip : ChainBlock} (latest : e.getTip = some parent)
    (other : block.hash ≠ parent.hash)
    (after : (e.applyDuplicate call existing block locallyProposed).2.getTip = some tip) : tip.hash ≠ block.hash := by
  have kept {tip : ChainBlock} (same : e.getTip = some tip) : tip.hash ≠ block.hash := by
    cases latest.symm.trans same
    exact other.symm
  unfold applyDuplicate at after
  split at after
  · split at after
    · exact kept after
    · dsimp only at after
      split at after
      · rename_i again
        cases after
        rw [latest] at again
        exact fun same => other (same.symm.trans (Option.some.inj again).symm)
      · exact kept after
  · exact kept after

variable [DecidableEq ρ] [DecidableEq τ] (p : Platform ρ τ) (s : PersistentStateTrie ρ τ)

def StateOf (block : ChainBlock) : Prop :=
  block.stateRoot = s.stateRoot.map p.rootHex

instance (block : ChainBlock) : Decidable (StateOf p s block) :=
  inferInstanceAs (Decidable (_ = _))

def Passes (e : Engine ρ τ) (call : ApplyCall) (block : ChainBlock) (locallyProposed : Bool) : Prop :=
  e.applyingBlock = false ∧ e.validate p.host call.now block locallyProposed = .ok () ∧ call.batchFails = none ∧
    ∃ totalGasUsed s storedBlock,
      executeBlock p e call block locallyProposed e.stateTrie.checkpoint.checkpoint = (.ok totalGasUsed, s) ∧
      e.sealBlock block locallyProposed (p.rootHex (commitBlock p s).1) totalGasUsed = .ok storedBlock

/-- A valid successor of the tip: not the tip again, and it passes on whatever settled state has the
    tip's root, with the code that is there. -/
def ValidNext (e : Engine ρ τ) (parent : ChainBlock) (call : ApplyCall) (block : ChainBlock)
    (locallyProposed : Bool) : Prop :=
  block.hash ≠ parent.hash ∧ ∀ s l, Settled p.H s l → s.db.code = e.stateTrie.db.code → StateOf p s parent →
    Passes p { e with stateTrie := s } call block locallyProposed

structure Resumable (e : Engine ρ τ) (parent : ChainBlock) : Prop where
  state : StateOf p e.stateTrie parent
  next : ∀ call block locallyProposed, ValidNext p e parent call block locallyProposed →
    ∃ tip, (applyBlock p e call block locallyProposed).2.getTip = some tip ∧ tip.number = block.number ∧
      tip.hash = block.hash

variable {p : Platform ρ τ}

theorem Passes.becomes_tip (passes : Passes p e call block locallyProposed)
    (fresh : e.blockIndex.getBlockByHash block.hash = none) :
    ∃ tip, (applyBlock p e call block locallyProposed).2.getTip = some tip ∧ tip.number = block.number ∧
      tip.hash = block.hash := by
  obtain ⟨idle, valid, written, totalGasUsed, s, storedBlock, executed, sealed⟩ := passes
  refine ⟨storedBlock, ?_, sealBlock_keeps sealed⟩
  simp only [applyBlock, idle, Bool.false_eq_true, if_false, fresh, valid, executed, finishBlock, sealed, written]
  rw [getTip_updateFinalityFlags]
  rfl

theorem applyBlock_duplicate {existing : ChainBlock} (idle : e.applyingBlock = false)
    (found : e.blockIndex.getBlockByHash block.hash = some existing) :
    applyBlock p e call block locallyProposed = e.applyDuplicate call existing block locallyProposed := by
  simp only [applyBlock, idle, Bool.false_eq_true, if_false, found]

/-- A demoted node can go on exactly if its state is already that of the new tip, and no valid successor
    is still found under its hash. -/
theorem demotion_resumable_iff (p : Platform ρ τ) (e : Engine ρ τ) {l : Level ρ} (settled : Settled p.H e.stateTrie l)
    (fetched : Option (List PeerSnapshot)) (opts : PromoteOptions)
    (demoted : (e.verifyAndPromoteTipWithPeers fetched opts).1.demoted = true) :
    ∃ h parent, (e.verifyAndPromoteTipWithPeers fetched opts).1.demotedTo = some h ∧
      e.blockIndex.getBlockByNumber h = some parent ∧
      (e.verifyAndPromoteTipWithPeers fetched opts).2.getTip = some parent ∧
      (Resumable p (e.verifyAndPromoteTipWithPeers fetched opts).2 parent ↔
        StateOf p e.stateTrie parent ∧ ∀ call block locallyProposed,
          ValidNext p (e.verifyAndPromoteTipWithPeers fetched opts).2 parent call block locallyProposed →
            (e.blockIndex.prunedAfter opts h).2.getBlockByHash block.hash = none) := by
  obtain ⟨h, parent, height, stored, after⟩ := demotion_eq demoted
  refine ⟨h, parent, height, stored, ?_⟩
  rw [after]
  refine ⟨rfl, ?_⟩
  constructor
  · rintro ⟨state, next⟩
    refine ⟨state, ?_⟩
    intro call block locallyProposed valid
    by_contra held
    obtain ⟨existing, found⟩ := Option.ne_none_iff_exists'.mp held
    obtain ⟨tip, becomes, _, hash⟩ := next call block locallyProposed valid
    rw [applyBlock_duplicate (valid.2 _ l settled rfl state).1 found] at becomes
    exact applyDuplicate_tip rfl valid.1 becomes hash
  · rintro ⟨state, unstored⟩
    refine ⟨state, ?_⟩
    intro call block locallyProposed valid
    exact (valid.2 _ l settled rfl state).becomes_tip (unstored call block locallyProposed valid)

end Engine

section Sample

def parentBlock (stateRoot : Hex) : ChainBlock :=
  { number := 1, hash := "0xa", parentHash := zeroHash, proposer := "node-1", timestampMs := 1000, txs := [],
    finalized := false, stateRoot := some stateRoot }

def phantomBlock : ChainBlock := sampleBlock 2 "0xa" "node-2" 2000

def phantomTip (stateRoot : Hex) : Engine (Option (FiniteMap Hex Bytes))
    (FiniteMap Hex (AccountState (Option (FiniteMap Hex Bytes)))) :=
  { sampleEngine with blockIndex := (BlockIndex.empty.putBlock (parentBlock stateRoot)).putBlock phantomBlock }

def askPeer (stateRoot : Hex) (prune : Bool) : TipCheck × Engine (Option (FiniteMap Hex Bytes))
    (FiniteMap Hex (AccountState (Option (FiniteMap Hex Bytes)))) :=
  (phantomTip stateRoot).verifyAndPromoteTipWithPeers (some [some [some ⟨some "1", "0xA"⟩]]) { prune }

theorem pruned_demotion_resumable : Engine.Resumable plainPlatform (askPeer "0xempty" true).2 (parentBlock "0xempty") := by
  have one : (askPeer "0xempty" true).1.demotedTo = some 1 := by decide +kernel
  have first : (askPeer "0xempty" true).2.getTip = some (parentBlock "0xempty") := by decide +kernel
  have rows : (askPeer "0xempty" true).2.blockIndex.byHash = InsertionMap.empty.set "0xa" 1 := by decide +kernel
  obtain ⟨h, parent, height, -, tip, resumable⟩ := Engine.demotion_resumable_iff plainPlatform (phantomTip "0xempty")
    sampleEngine_settled _ _ (show (askPeer "0xempty" true).1.demoted = true by decide +kernel)
  cases one.symm.trans height
  cases first.symm.trans tip
  refine resumable.mpr ⟨by decide +kernel, ?_⟩
  intro call block locallyProposed valid
  have other : block.hash ≠ "0xa" := valid.1
  have unheld : (askPeer "0xempty" true).2.blockIndex.byHash.get? block.hash = none := by simp [rows, other]
  exact congrArg (Option.bind · _) unheld

/-- The state is left behind where the second block had changed it; and the second block itself, though
    valid, is taken for a duplicate as long as its row is there. -/
theorem demotion_strands_node :
    ¬ Engine.Resumable plainPlatform (askPeer "0xfirst" true).2 (parentBlock "0xfirst") ∧
      ¬ Engine.Resumable plainPlatform (askPeer "0xempty" false).2 (parentBlock "0xempty") := by
  constructor
  · intro resumable
    exact absurd resumable.state (by decide +kernel)
  · intro resumable
    have checked : (askPeer "0xempty" false).2.validate plainPlatform.host sampleCall.now phantomBlock false = .ok () := by
      decide +kernel
    have kept : (Engine.applyBlock plainPlatform (askPeer "0xempty" false).2 sampleCall phantomBlock false).2.getTip =
        some (parentBlock "0xempty") := by decide +kernel
    obtain ⟨tip, becomes, number, _⟩ := resumable.next sampleCall phantomBlock false ⟨by decide +kernel,
      fun s _ _ _ _ => ⟨rfl, checked, rfl, 0, s.checkpoint.checkpoint, _, rfl, rfl⟩⟩
    cases kept.symm.trans becomes
    cases number

end Sample

end Palimesh.Chain
