import Palimesh.Chain.Atomicity
import Palimesh.Chain.SnapSync

set_option linter.unusedSectionVars false

namespace Palimesh.Chain

open Collections State Engine

section Ops

variable {ρ τ : Type} {p : Platform ρ τ}

def PlainOp : ManagerOp ρ → Prop
  | .state .checkpoint | .state .commit | .state .revert => False
  | _ => True

theorem depthAfter_plain {ops : List (ManagerOp ρ)} (plain : ∀ op ∈ ops, PlainOp op) (depth : Nat) :
    depthAfter depth ops = some depth := by
  induction ops with
  | nil => rfl
  | cons op ops ih =>
    have rest := ih fun op member => plain op (List.mem_cons_of_mem _ member)
    have here := plain op List.mem_cons_self
    cases op with
    | state op => cases op <;> first | exact here.elim | exact rest
    | putCode code => exact rest
    | computeStateRoot => exact rest

theorem andThen_plain {first rest : ImportRun ρ} (firstPlain : ∀ op ∈ first.ops, PlainOp op)
    (restPlain : ∀ op ∈ rest.ops, PlainOp op) : ∀ op ∈ (first.andThen rest).ops, PlainOp op := by
  unfold ImportRun.andThen
  split
  · exact firstPlain
  · intro op member
    rcases List.mem_append.mp member with here | there
    · exact firstPlain op here
    · exact restPlain op there

theorem importSlots_plain (address : Hex) (storage : List (Hex × Hex)) :
    ∀ op ∈ (importSlots p address storage).ops, PlainOp op := by
  induction storage with
  | nil => intro op member; cases member
  | cons entry rest ih =>
    intro op member
    unfold importSlots at member
    split at member
    · rcases List.mem_cons.mp member with rfl | later
      · trivial
      · exact ih op later
    all_goals
      cases List.mem_singleton.mp member
      trivial

theorem importCode_plain (acc : StateSnapshotAccount) : ∀ op ∈ (importCode (ρ := ρ) acc).ops, PlainOp op := by
  unfold importCode
  split
  · intro op member; cases member
  · split
    · intro op member
      cases List.mem_singleton.mp member
      trivial
    · intro op member; cases member

theorem importAccounts_plain (accounts : List StateSnapshotAccount) :
    ∀ op ∈ (importAccounts p accounts).ops, PlainOp op := by
  induction accounts with
  | nil => intro op member; cases member
  | cons acc rest ih =>
    apply andThen_plain _ ih
    apply andThen_plain (importCode_plain acc)
    intro op member
    rcases List.mem_cons.mp member with rfl | later
    · trivial
    · exact importSlots_plain acc.address acc.storage op later

end Ops

variable {ρ τ : Type} [DecidableEq ρ] [DecidableEq τ] {p : Platform ρ τ} {e e' : Engine ρ τ}
  {s s' : PersistentStateTrie ρ τ} {l : Level ρ} {snapshot snap : StateSnapshot} {result : ImportResult}

structure Pinned (p : Platform ρ τ) (l : Level ρ) (expected : Hex) (s' : PersistentStateTrie ρ τ) : Prop where
  hex : p.rootHex s'.trie.root = expected
  persisted : s'.db.stateRoot = some s'.trie.root
  settled : s'.trie.root = p.H.accounts.hash l.records → Settled p.H s' l

variable {tipHeight : Int} {trusted : SnapVote}

section

variable (settled : Settled p.H s l)
include settled

theorem importAccounts_shielded (accounts : List StateSnapshotAccount) :
    Shielded s 1 0 ((importAccounts p accounts).ops.foldl (PersistentStateTrie.managerStep p.H) s.checkpoint) :=
  (settled.shield 1).1.run Nat.one_pos (depthAfter_plain (importAccounts_plain accounts) 0)

theorem restoreRoot_settled {after : PersistentStateTrie ρ τ} (grown : Grown s after.revert)
    : Settled p.H (restoreRoot s.stateRoot after) l := by
  have recorded : s.stateRoot = some s.trie.root := by
    rw [PersistentStateTrie.stateRoot, settled.live]
    rfl
  rw [recorded]
  exact grown.pin settled

theorem importStateSnapshot_error {expected message : String}
    (failed : importStateSnapshot p s snapshot expected = (.error message, s')) : Settled p.H s' l := by
  have shield := importAccounts_shielded settled snapshot.accounts
  unfold importStateSnapshot at failed
  split at failed
  · cases failed
    exact settled
  · dsimp only at failed
    split at failed
    · cases failed
      exact restoreRoot_settled settled shield.restored.grown
    · split at failed
      · cases failed
        -- The commit is through already: only the pinned root brings the state back.
        exact restoreRoot_settled settled (shield.flush (H := p.H)).1.grown.revert
      · split at failed
        · cases failed
        · cases failed

theorem importStateSnapshot_ok {expected : String} (named : expected ≠ "")
    (imported : importStateSnapshot p s snapshot expected = (.ok result, s')) : Pinned p l expected s' := by
  have grown := ((importAccounts_shielded settled snapshot.accounts).flush (H := p.H)).1.grown
  unfold importStateSnapshot at imported
  split at imported
  · cases imported
  · dsimp only at imported
    generalize PersistentStateTrie.commit p.H _ = committed at imported grown
    split at imported
    · cases imported
    · split at imported
      · cases imported
      · rename_i agrees
        cases imported
        refine ⟨?_, rfl, ?_⟩
        · by_contra differs
          exact agrees ⟨named, differs⟩
        · intro same
          change committed.1 = _ at same
          rw [same, ← settled.root]
          exact grown.pin settled

variable {answers : List (Option StateSnapshot)}

theorem importFirst_none
    (outcome : importFirst p tipHeight trusted answers s = (none, s')) : Settled p.H s' l := by
  induction answers generalizing s with
  | nil =>
    cases outcome
    exact settled
  | cons answer rest ih =>
    cases answer with
    | none => exact ih settled outcome
    | some snap =>
      unfold importFirst at outcome
      split at outcome
      · split at outcome
        · cases outcome
        · rename_i failed
          exact ih (importStateSnapshot_error settled failed) outcome
      · exact ih settled outcome

theorem importFirst_some
    (named : trusted.stateRoot ≠ "") (outcome : importFirst p tipHeight trusted answers s = (some (snap, result), s'))
    : snap.stateRoot = trusted.stateRoot ∧ Pinned p l trusted.stateRoot s' := by
  induction answers generalizing s with
  | nil => cases outcome
  | cons answer rest ih =>
    cases answer with
    | none => exact ih settled outcome
    | some tried =>
      unfold importFirst at outcome
      split at outcome
      · rename_i agrees
        split at outcome
        · rename_i imported
          cases outcome
          simp only [matchesVote, Bool.and_eq_true, beq_iff_eq] at agrees
          exact ⟨agrees.1.2, importStateSnapshot_ok settled named imported⟩
        · rename_i failed
          exact ih (importStateSnapshot_error settled failed) outcome
      · exact ih settled outcome

end

theorem Unchanged.of_settled (before : Settled p.H e.stateTrie l) (after : Settled p.H e'.stateTrie l)
    (tip : e'.getTip = e.getTip) : Unchanged p.H e e' := by
  have root : e'.stateTrie.trie.root = e.stateTrie.trie.root := after.root.trans before.root.symm
  refine ⟨root, ?_, ?_, ?_, ?_, tip⟩
  · rw [PersistentStateTrie.stateRoot, PersistentStateTrie.stateRoot, after.live, before.live, root]
    rfl
  · intro address
    obtain ⟨_, readAfter, _⟩ := RefinesWith.get after.refines address
    obtain ⟨_, readBefore, _⟩ := RefinesWith.get before.refines address
    rw [readAfter, readBefore]
  · intro address slot
    rw [after.refines.getStorageAt_value, before.refines.getStorageAt_value]
  · rw [after.persisted, before.persisted, root]

namespace Engine

variable {host : Host} {window : List ChainBlock} {tip : ChainBlock}

theorem restoreGovernance_keeps (e : Engine ρ τ) (validators : Option (List ValidatorInfo)) :
    (e.restoreGovernance validators).stateTrie = e.stateTrie ∧
      (e.restoreGovernance validators).blockIndex = e.blockIndex ∧
        (e.restoreGovernance validators).signatureVerifier = e.signatureVerifier := by
  cases validators with
  | none => exact ⟨rfl, rfl, rfl⟩
  | some validators => exact ⟨rfl, rfl, rfl⟩

theorem verifyBlockChain_congr (same : e'.signatureVerifier = e.signatureVerifier) (prev : Option ChainBlock)
    (blocks : List ChainBlock) :
    e'.verifyBlockChain host snapSyncOptions prev blocks = e.verifyBlockChain host snapSyncOptions prev blocks := by
  induction blocks generalizing prev with
  | nil => rfl
  | cons block blocks ih =>
    have here : e'.verifyBlock host snapSyncOptions prev block = e.verifyBlock host snapSyncOptions prev block := by
      unfold verifyBlock signedByProposer
      rw [same]
      rfl
    rw [verifyBlockChain, verifyBlockChain, here, ih]

theorem trustedRoot_some {peers : List SnapPeer}
    (found : trustedRoot host window peers = some (tipHeight, trusted)) :
    ∃ tip, window.getLast? = some tip ∧ tipHeight = tip.number ∧ trusted.stateRoot ≠ "" := by
  unfold trustedRoot at found
  split at found
  · cases found
  · rename_i tip last
    obtain ⟨vote, kept, same⟩ := Option.map_eq_some_iff.mp found
    cases same
    obtain ⟨_, named⟩ := Option.filter_eq_some_iff.mp kept
    exact ⟨tip, last, rfl, by simpa using named⟩

variable (p e)

/-- The state is that of the tip: after a sync that of the snapshot imported for it, and otherwise,
    with the tip, what it was. -/
structure SnapCoherent (result : SnapSyncResult ρ τ) : Prop where
  synced : result.synced = true → ∃ snap tip, result.imported = some snap ∧ result.engine.getTip = some tip ∧
    p.host.bigInt snap.blockHeight = some tip.number ∧ snap.blockHash = tip.hash ∧
      p.rootHex result.engine.stateTrie.trie.root = snap.stateRoot ∧
        result.engine.stateTrie.db.stateRoot = some result.engine.stateTrie.trie.root
  refused : result.synced = false → Unchanged p.H e result.engine

/-- The first answer that agrees with the vote and can be imported is the state of the window's last block; if the
    window cannot be written, the voted root is the node's own. -/
def SnapMatches (window : List ChainBlock) (peers : List SnapPeer) : Prop :=
  ∀ tip ∈ window.getLast?, ∀ trusted, trustedRoot p.host window peers = some (tip.number, trusted) →
    ∀ snap result s, importFirst p tip.number trusted (cachedAnswers peers) e.stateTrie = (some (snap, result), s) →
      (e.importable p.host window = true →
        p.host.bigInt snap.blockHeight = some tip.number ∧ snap.blockHash = tip.hash) ∧
      (e.importable p.host window = false → p.rootHex e.stateTrie.trie.root = trusted.stateRoot)

variable {p e}

theorem blocks_coherent_iff {expected : Hex} (settled : Settled p.H e.stateTrie l)
    (ownHex : ∀ root, p.rootHex root = p.rootHex e.stateTrie.trie.root → root = e.stateTrie.trie.root)
    (last : window.getLast? = some tip) (voted : snap.stateRoot = expected) (pinned : Pinned p l expected s)
    (validators : Option (List ValidatorInfo)) :
    let blocks := ({ e with stateTrie := s }.restoreGovernance validators).importSnapSyncBlocks p.host window
    e.SnapCoherent p ⟨blocks.1, some snap, blocks.2⟩ ↔
      (e.importable p.host window = true →
        p.host.bigInt snap.blockHeight = some tip.number ∧ snap.blockHash = tip.hash) ∧
      (e.importable p.host window = false → p.rootHex e.stateTrie.trie.root = expected) := by
  obtain ⟨sameTrie, sameIndex, sameVerifier⟩ := restoreGovernance_keeps { e with stateTrie := s } validators
  generalize { e with stateTrie := s }.restoreGovernance validators = imported at sameTrie sameIndex sameVerifier
  have same : imported.importable p.host window = e.importable p.host window := by
    have height : imported.getHeight = e.getHeight := by
      rw [getHeight, getHeight, getTip, getTip, sameIndex]
    unfold importable aheadOf
    rw [height, verifyBlockChain_congr (show imported.signatureVerifier = e.signatureVerifier from sameVerifier)]
  cases importable : e.importable p.host window with
  | true =>
    obtain ⟨written, newTip, trie⟩ := importSnapSyncBlocks_tip last (same.trans importable)
    rw [sameTrie] at trie
    constructor
    · intro coherent
      obtain ⟨_, _, found, tipFound, height, hash, _⟩ := coherent.synced written
      cases found
      rw [newTip] at tipFound
      cases tipFound
      exact ⟨fun _ => ⟨height, hash⟩, by simp⟩
    · rintro ⟨ofTip, _⟩
      obtain ⟨height, hash⟩ := ofTip rfl
      constructor
      · intro _
        refine ⟨snap, _, rfl, newTip, height, hash, ?_, ?_⟩
        · rw [trie, voted]
          exact pinned.hex
        · rw [trie]
          exact pinned.persisted
      · intro refused
        rw [written] at refused
        cases refused
  | false =>
    rw [importSnapSyncBlocks_refused (same.trans importable)]
    constructor
    · intro coherent
      have root : imported.stateTrie.trie.root = e.stateTrie.trie.root := (coherent.refused rfl).root
      rw [sameTrie] at root
      refine ⟨by simp, fun _ => ?_⟩
      rw [← root]
      exact pinned.hex
    · rintro ⟨_, already⟩
      constructor
      · intro taken
        cases taken
      · intro _
        have root : s.trie.root = e.stateTrie.trie.root := ownHex _ (pinned.hex.trans (already rfl).symm)
        have after : Settled p.H imported.stateTrie l := by
          rw [sameTrie]
          exact pinned.settled (root.trans settled.root)
        apply Unchanged.of_settled settled after
        rw [getTip, getTip, sameIndex]

end Engine

section Sample

def snapPeer (blockHeight : String) (blockHash : Hex) : SnapPeer where
  url := "http://peer-1"
  answer := .fulfilled (some ⟨1, "0xwritten", blockHeight, blockHash, [⟨"0xa", "0", "5", "0x0", "0x0", [], none⟩], none⟩)

theorem sampleEngine_ownHex (root : FiniteMap Hex (AccountState (Option (FiniteMap Hex Bytes))))
    (same : plainPlatform.rootHex root = plainPlatform.rootHex sampleEngine.stateTrie.trie.root) :
    root = sampleEngine.stateTrie.trie.root := by
  by_contra differs
  have written : plainPlatform.rootHex root = "0xwritten" := if_neg differs
  rw [written] at same
  revert same
  decide

end Sample

end Palimesh.Chain
