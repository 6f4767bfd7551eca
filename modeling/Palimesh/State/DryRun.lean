import Palimesh.State.Consistency

set_option linter.unusedSectionVars false

namespace Palimesh.State

open Collections CheckpointTrie Protocol List PersistentStateTrie CheckpointTrie

variable {ρ τ : Type} [DecidableEq ρ] [DecidableEq τ] {H : Hashes ρ τ} {s : PersistentStateTrie ρ τ}

namespace PersistentStateTrie

variable (H) (s : PersistentStateTrie ρ τ)

def DryRunAdmits : ManagerOp ρ → Prop
  | .state .commit | .state .revert => 2 ≤ s.trie.frames.length
  | _ => True

def writtenTrie (address : Hex) : CheckpointTrie Hex Bytes ρ :=
  ((s.get H address).2.getStorageTrie H address ((s.get H address).1.getD (newAccount H)).storageRoot).1

/-- Writes go to storage tries with an open frame, and no commit pops the only frame of a storage
    trie that holds something new. -/
def StaysIsolated : ManagerOp ρ → Prop
  | .state (.putStorageAt address _ _) => (s.writtenTrie H address).frames ≠ []
  | .state .commit => ∀ entry ∈ s.storageTries.entries, entry.2.frames.length = 1 →
      ∀ frame ∈ entry.2.frames, frame.nodes ⊆ s.db.storage entry.1
  | _ => True

end PersistentStateTrie

structure Isolated (db : Database ρ τ) (s : PersistentStateTrie ρ τ) : Prop where
  db : s.db = db
  dryRun : s.dryRunMode = true
  framed : s.trie.frames ≠ []

variable {db : Database ρ τ}

theorem write_framed {κ ν σ : Type} [DecidableEq κ] [DecidableEq ν] (H : ContentHash κ ν σ)
    {t : CheckpointTrie κ ν σ} (framed : t.frames ≠ []) (store : List (FiniteMap κ ν)) (contents : FiniteMap κ ν) :
    (write H t store contents).2 = store ∧ (write H t store contents).1.frames ≠ [] := by
  unfold write
  split
  · rename_i closed
    exact absurd closed framed
  · exact ⟨rfl, cons_ne_nil _ _⟩

section

variable (isolated : Isolated db s) (address : Hex)
include isolated

theorem Isolated.get : Isolated db (s.get H address).2 := by
  unfold PersistentStateTrie.get
  split
  · exact isolated
  · exact { isolated with }

theorem Isolated.put (state : AccountState ρ) : Isolated db (s.put H address state) := by
  obtain ⟨store, framed⟩ := write_framed H.accounts isolated.framed s.db.accounts
    ((s.trie.contents H.accounts s.db.accounts).insert address state)
  refine ⟨?_, isolated.dryRun, framed⟩
  change { s.db with accounts := (s.trie.put H.accounts s.db.accounts address state).2 } = db
  rw [CheckpointTrie.put, store]
  exact isolated.db

theorem Isolated.delete : Isolated db (s.delete H address) := by
  obtain ⟨store, framed⟩ := write_framed H.accounts isolated.framed s.db.accounts
    ((s.trie.contents H.accounts s.db.accounts).erase address)
  have deleted : (s.trie.del H.accounts s.db.accounts address).2 = s.db.accounts ∧
      (s.trie.del H.accounts s.db.accounts address).1.frames ≠ [] := by
    unfold del
    split
    · exact ⟨store, framed⟩
    · exact ⟨rfl, isolated.framed⟩
  refine ⟨?_, isolated.dryRun, deleted.2⟩
  change { s.db with accounts := (s.trie.del H.accounts s.db.accounts address).2 } = db
  rw [deleted.1]
  exact isolated.db

theorem Isolated.getStorageTrie (storageRoot : ρ) : Isolated db (s.getStorageTrie H address storageRoot).2 := by
  unfold PersistentStateTrie.getStorageTrie
  split
  · split
    · exact { isolated with }
    · unfold touchLru
      split
      · exact { isolated with }
      · exact isolated
  · exact { isolated with }

theorem Isolated.getStorageAt (address slot : Hex) : Isolated db (s.getStorageAt H address slot).2 := by
  have read := isolated.get (H := H) address
  unfold PersistentStateTrie.getStorageAt
  split
  · rename_i found
    rw [found] at read
    exact read
  · rename_i found
    rw [found] at read
    exact read.getStorageTrie address _

end

theorem writeSlot_framed {trie : CheckpointTrie Hex Bytes ρ} (framed : trie.frames ≠ [])
    (nodes : List (FiniteMap Hex Bytes)) (slot : Hex) (value : Bytes) :
    (writeSlot H trie nodes slot value).2 = nodes := by
  unfold writeSlot del CheckpointTrie.put
  split
  · split
    · exact (write_framed H.storage framed _ _).1
    · rfl
  · exact (write_framed H.storage framed _ _).1

section

variable (isolated : Isolated db s)
include isolated

theorem Isolated.setStorageTrie {address : Hex} {written : CheckpointTrie Hex Bytes ρ × List (FiniteMap Hex Bytes)}
    (kept : written.2 = s.db.storage address) : Isolated db (s.setStorageTrie address written) := by
  refine ⟨?_, isolated.dryRun, isolated.framed⟩
  change { s.db with storage := Function.update s.db.storage address written.2 } = db
  rw [kept, Function.update_eq_self]
  exact isolated.db

theorem Isolated.putStorageAt (address slot : Hex) (value : Bytes) (framed : (s.writtenTrie H address).frames ≠ [])
    : Isolated db (s.putStorageAt H address slot value) := by
  have opened := (isolated.get (H := H) address).getStorageTrie (H := H) address
    (((s.get H address).1.getD (newAccount H)).storageRoot)
  have kept := writeSlot_framed (H := H) framed (((s.get H address).2.getStorageTrie H address
    ((s.get H address).1.getD (newAccount H)).storageRoot).2.db.storage address) slot value
  exact (opened.setStorageTrie kept).put address _

theorem Isolated.clearStorage (address : Hex) : Isolated db (s.clearStorage H address) := by
  have dropped : Isolated db { s with storageTries := s.storageTries.delete address } :=
    { isolated with }
  have read := dropped.get (H := H) address
  unfold PersistentStateTrie.clearStorage
  split
  · rename_i found
    rw [found] at read
    exact read.put address _
  · rename_i found
    rw [found] at read
    exact read

theorem Isolated.syncStorageRoot (address : Hex) : Isolated db (s.syncStorageRoot H address) := by
  unfold PersistentStateTrie.syncStorageRoot
  split
  · rename_i storageTrie cached _ _
    split
    · exact isolated
    · obtain ⟨store, framed⟩ := write_framed H.accounts isolated.framed s.db.accounts
        ((s.trie.contents H.accounts s.db.accounts).insert address { cached with storageRoot := storageTrie.root })
      refine ⟨?_, isolated.dryRun, framed⟩
      dsimp only [CheckpointTrie.put]
      rw [store]
      exact isolated.db
  · exact isolated

theorem Isolated.syncStorageRoots (addresses : List Hex) :
    Isolated db (addresses.foldl (PersistentStateTrie.syncStorageRoot H) s) := by
  induction addresses generalizing s with
  | nil => exact isolated
  | cons address addresses ih => exact ih (isolated.syncStorageRoot address)

theorem Isolated.computeStateRoot : Isolated db (s.computeStateRoot H).2 :=
  isolated.syncStorageRoots _

theorem Isolated.putCode (code : Bytes) : Isolated db (s.putCode H code).2 := by
  unfold PersistentStateTrie.putCode
  rw [isolated.dryRun]
  exact ⟨isolated.db, rfl, isolated.framed⟩

end

theorem union_of_subset {nodes store : List (FiniteMap Hex Bytes)} (known : nodes ⊆ store) : nodes ∪ store = store := by
  induction nodes with
  | nil => rfl
  | cons node nodes ih =>
    have rest := ih fun _ member => known (mem_cons_of_mem _ member)
    rw [cons_union, rest]
    exact insert_of_mem (known (by simp))

theorem committedNodes_kept {nodes : List (FiniteMap Hex Bytes)} {cached : Option (CheckpointTrie Hex Bytes ρ)}
    (known : ∀ trie ∈ cached, trie.frames.length = 1 → ∀ frame ∈ trie.frames, frame.nodes ⊆ nodes) :
    committedNodes nodes cached = nodes := by
  cases cached with
  | none => rfl
  | some trie =>
    have last := known trie rfl
    unfold committedNodes CheckpointTrie.commit
    dsimp only
    split
    · rfl
    · rename_i frame only
      rw [only] at last
      exact union_of_subset (last rfl frame (by simp))
    · rfl

theorem commit_framed {t : CheckpointTrie Hex (AccountState ρ) τ} (deep : 2 ≤ t.frames.length)
    (store : List (FiniteMap Hex (AccountState ρ))) :
    (t.commit store).2 = store ∧ (t.commit store).1.frames ≠ [] := by
  unfold CheckpointTrie.commit
  split
  · rename_i closed
    rw [closed] at deep
    simp at deep
  · rename_i last only
    rw [only] at deep
    simp at deep
  · exact ⟨rfl, cons_ne_nil _ _⟩

theorem Isolated.popCheckpoints (isolated : Isolated db s) (deep : 2 ≤ s.trie.frames.length)
    (known : ∀ address, ∀ trie ∈ s.storageTries.get? address, trie.frames.length = 1 →
      ∀ frame ∈ trie.frames, frame.nodes ⊆ s.db.storage address) : Isolated db s.popCheckpoints := by
  obtain ⟨store, framed⟩ := commit_framed deep s.db.accounts
  refine ⟨?_, isolated.dryRun, framed⟩
  have storage : (fun address => committedNodes (s.db.storage address)
      (s.storageTries.get? address)) = s.db.storage := by
    funext address
    exact committedNodes_kept (known address)
  unfold PersistentStateTrie.popCheckpoints
  dsimp only
  rw [store, storage]
  exact isolated.db

theorem Isolated.recordRoot (isolated : Isolated db s) : Isolated db s.recordRoot := by
  unfold PersistentStateTrie.recordRoot
  rw [if_neg (by simpa using isolated.framed)]
  exact { isolated with }

theorem syncStorageRoot_frame (s : PersistentStateTrie ρ τ) (address : Hex) :
    (s.syncStorageRoot H address).storageTries = s.storageTries ∧
      (s.syncStorageRoot H address).trie.frames.length = s.trie.frames.length := by
  unfold PersistentStateTrie.syncStorageRoot
  split
  · split
    · exact ⟨rfl, rfl⟩
    · exact ⟨rfl, write_depth _ _ _⟩
  · exact ⟨rfl, rfl⟩

theorem syncStorageRoots_frame (s : PersistentStateTrie ρ τ) (addresses : List Hex) :
    (addresses.foldl (PersistentStateTrie.syncStorageRoot H) s).storageTries = s.storageTries ∧
      (addresses.foldl (PersistentStateTrie.syncStorageRoot H) s).trie.frames.length = s.trie.frames.length := by
  induction addresses generalizing s with
  | nil => exact ⟨rfl, rfl⟩
  | cons address addresses ih =>
    have first := syncStorageRoot_frame (H := H) s address
    have rest := ih (s.syncStorageRoot H address)
    exact ⟨rest.1.trans first.1, rest.2.trans first.2⟩

theorem Isolated.commit (isolated : Isolated db s) (deep : 2 ≤ s.trie.frames.length)
    (stays : s.StaysIsolated H (.state .commit)) : Isolated db (s.commit H).2 := by
  have cleared : Isolated db { s with dirtyAddresses := .empty } :=
    { isolated with }
  have synced := cleared.syncStorageRoots (H := H) s.dirtyAddresses.keys
  obtain ⟨tries, depth⟩ := syncStorageRoots_frame (H := H) { s with dirtyAddresses := .empty } s.dirtyAddresses.keys
  unfold PersistentStateTrie.commit
  dsimp only
  rw [if_neg (by simpa using synced.framed)]
  refine (synced.popCheckpoints (depth ▸ deep) ?_).recordRoot
  intro address trie cached last frame member
  rw [tries] at cached
  rw [synced.db, ← isolated.db]
  exact stays (address, trie) ((InsertionMap.mem_entries _ _ _).mpr cached) last frame member

theorem Isolated.step (isolated : Isolated db s) (op : ManagerOp ρ) (admitted : s.DryRunAdmits op)
    (stays : s.StaysIsolated H op) : Isolated db (s.managerStep H op) := by
  cases op with
  | putCode code => exact isolated.putCode code
  | computeStateRoot => exact isolated.computeStateRoot
  | state op =>
    cases op with
    | get address => exact isolated.get address
    | put address state => exact isolated.put address state
    | delete address => exact isolated.delete address
    | getStorageAt address slot => exact isolated.getStorageAt address slot
    | putStorageAt address slot value => exact isolated.putStorageAt address slot value stays
    | clearStorage address => exact isolated.clearStorage address
    | checkpoint => exact ⟨isolated.db, isolated.dryRun, cons_ne_nil _ _⟩
    | commit => exact isolated.commit admitted stays
    | revert =>
      refine ⟨isolated.db, isolated.dryRun, ?_⟩
      have deep : 2 ≤ s.trie.frames.length := admitted
      change s.trie.revert.frames ≠ []
      unfold CheckpointTrie.revert
      split
      · exact isolated.framed
      · rename_i top outer open'
        rw [open', length_cons] at deep
        have below : 0 < outer.length := by omega
        exact List.length_pos_iff.mp below

/-- A dry run that writes only under open frames and never flushes one leaves the database, and with
    it every read of the parent, as it was. -/
theorem dry_run_isolated (H : Hashes ρ τ) (parent s : PersistentStateTrie ρ τ)
    (reached : Reaches (fun (s : PersistentStateTrie ρ τ) op => s.DryRunAdmits op ∧ s.StaysIsolated H op)
      (managerStep H) (parent.forkForDryRun H) s) :
    s.db = parent.db ∧
      (∀ address, (PersistentStateTrie.get H { parent with db := s.db } address).1 = (parent.get H address).1) ∧
      ∀ address slot, (PersistentStateTrie.getStorageAt H { parent with db := s.db } address slot).1 =
        (parent.getStorageAt H address slot).1 := by
  have forked : Isolated parent.db (parent.forkForDryRun H) := ⟨rfl, rfl, cons_ne_nil _ _⟩
  have isolated : Isolated parent.db s :=
    reached.invariant (Isolated parent.db) forked
      fun s op isolated allowed => isolated.step op allowed.1 allowed.2
  rw [isolated.db]
  exact ⟨rfl, fun _ => rfl, fun _ _ => rfl⟩

section Sample

instance (s : PersistentStateTrie ρ τ) (op : ManagerOp ρ) : Decidable (s.DryRunAdmits op) := by
  unfold PersistentStateTrie.DryRunAdmits
  split <;> infer_instance

instance (H : Hashes ρ τ) (s : PersistentStateTrie ρ τ) (op : ManagerOp ρ) : Decidable (s.StaysIsolated H op) := by
  unfold PersistentStateTrie.StaysIsolated
  split <;> infer_instance

def sampleParent := PersistentStateTrie.putStorageAt plainHashes (.new plainHashes emptyDatabase 512 50000) "0xa" "0x1" [1]

def touchedBeforeCall : List (ManagerOp (Option (FiniteMap Hex Bytes))) :=
  [.state (.getStorageAt "0xa" "0x1"), .state .checkpoint, .state (.putStorageAt "0xa" "0x1" [2]), .state .commit,
    .putCode [96, 0], .computeStateRoot]

theorem touched_before_call_isolated :
    (touchedBeforeCall.foldl (managerStep plainHashes)
        (sampleParent.forkForDryRun plainHashes)).db = sampleParent.db ∧
      ((touchedBeforeCall.foldl (managerStep plainHashes)
        (sampleParent.forkForDryRun plainHashes)).getStorageAt plainHashes "0xa" "0x1").1 = some [2] := by
  have admitted : Admitted (fun (s : PersistentStateTrie _ _) op => s.DryRunAdmits op ∧ s.StaysIsolated plainHashes op)
      (managerStep plainHashes) (sampleParent.forkForDryRun plainHashes) touchedBeforeCall := by
    decide
  exact ⟨(dry_run_isolated plainHashes sampleParent _ (Reaches.start.run admitted)).1, by decide⟩

/-- A contract first touched inside an inner call has one frame, which the end of that call flushes. -/
theorem touched_in_call_reaches_database :
    ∃ s, Reaches (fun (s : PersistentStateTrie _ _) op => s.DryRunAdmits op)
        (managerStep plainHashes) (sampleParent.forkForDryRun plainHashes) s ∧
      (s.db.storage "0xa").length = 2 ∧ (sampleParent.db.storage "0xa").length = 1 := by
  have admitted : Admitted (fun (s : PersistentStateTrie _ _) op => s.DryRunAdmits op)
      (managerStep plainHashes) (sampleParent.forkForDryRun plainHashes)
      [.state .checkpoint, .state (.putStorageAt "0xa" "0x1" [2]), .state .commit] := by decide
  exact ⟨_, Reaches.start.run admitted, by decide, by decide⟩

end Sample

end Palimesh.State
