import Palimesh.State.Rollback

set_option linter.unusedSectionVars false

namespace Palimesh.State

open Collections CheckpointTrie List InsertionMap PersistentStateTrie

abbrev Records (ρ : Type) := FiniteMap Hex (AccountState ρ)

variable {ρ τ : Type} [DecidableEq ρ] [DecidableEq τ] {H : Hashes ρ τ}

/-- The account trie stands for a stack of record maps, and the account cache for the top one. Nothing
    is said of storage, so this holds along every run. -/
structure HoldsRecords (H : Hashes ρ τ) (s : PersistentStateTrie ρ τ) (levels : List (Records ρ)) : Prop where
  represents : Represents H.accounts s.db.accounts s.trie.root s.trie.frames levels
  cache : ∀ address cached, s.accountCache.get? address = some cached →
    ∀ records ∈ levels.head?, cached = records.lookup address

namespace PersistentStateTrie

variable (H)

def openedAt (s : PersistentStateTrie ρ τ) (address : Hex) : CheckpointTrie Hex Bytes ρ × PersistentStateTrie ρ τ :=
  let read := s.get H address
  read.2.getStorageTrie H address (read.1.getD (newAccount H)).storageRoot

def writtenRoot (s : PersistentStateTrie ρ τ) (address slot : Hex) (value : Bytes) : ρ :=
  let opened := s.openedAt H address
  (writeSlot H opened.1 (opened.2.db.storage address) slot value).1.root

end PersistentStateTrie

def SameAccounts (records records' : Records ρ) : Prop :=
  ∀ address, (records'.lookup address).map AccountState.account = (records.lookup address).map AccountState.account

theorem SameAccounts.refl (records : Records ρ) : SameAccounts records records := fun _ => rfl

theorem SameAccounts.trans {first second third : Records ρ} (one : SameAccounts first second)
    (two : SameAccounts second third) : SameAccounts first third :=
  fun address => (two address).trans (one address)

namespace HoldsRecords

variable {s s' : PersistentStateTrie ρ τ} {c d : Records ρ} {levels rest : List (Records ρ)} {a : Hex}

section

variable (holds : HoldsRecords H s (c :: rest))
include holds

theorem contents : s.trie.contents H.accounts s.db.accounts = c :=
  holds.represents.resolve

theorem cached {entry : Option (AccountState ρ)} (found : s.accountCache.get? a = some entry) : entry = c.lookup a :=
  holds.cache a entry found c rfl

theorem get (a : Hex) : ∃ cache,
    s.get H a = (c.lookup a, { s with accountCache := cache }) ∧
      HoldsRecords H { s with accountCache := cache } (c :: rest) := by
  obtain ⟨cache, read, consistent⟩ := get_reads holds.contents (fun _ _ => holds.cached) a
  refine ⟨cache, read, holds.represents, ?_⟩
  intro address entry found records head
  cases head
  exact consistent address entry found

theorem root : s.trie.root = H.accounts.hash c := holds.represents.cons.1.symm

theorem lookup (a : Hex) : (s.get H a).1 = c.lookup a := by
  obtain ⟨cache, read, -⟩ := holds.get a
  rw [read]

end

theorem written {write : CheckpointTrie Hex (AccountState ρ) τ × List (Records ρ)}
    (represents : Represents H.accounts write.2 write.1.root write.1.frames (d :: rest))
    (trie : s'.trie = write.1) (accounts : s'.db.accounts = write.2)
    (cache : ∀ address entry, s'.accountCache.get? address = some entry → entry = d.lookup address) :
    HoldsRecords H s' (d :: rest) := by
  refine ⟨?_, ?_⟩
  · rw [trie, accounts]
    exact represents
  · intro address entry found records head
    cases head
    exact cache address entry found

theorem put (holds : HoldsRecords H s (c :: rest)) (a : Hex) (state : AccountState ρ) :
    HoldsRecords H (s.put H a state) (c.insert a state :: rest) := by
  refine written (holds.represents.put a state) rfl rfl ?_
  intro address entry found
  change (InsertionMap.set _ a (some state)).get? address = some entry at found
  rw [get?_set] at found
  split at found
  · rename_i here
    cases found
    rw [here, Finmap.lookup_insert]
  · rename_i other
    rw [Finmap.lookup_insert_of_ne _ other]
    exact holds.cached (get?_dropOldest found)

theorem delete (holds : HoldsRecords H s (c :: rest)) (a : Hex) : HoldsRecords H (s.delete H a) (c.erase a :: rest) := by
  refine written (holds.represents.del a) rfl rfl ?_
  intro address entry found
  change (s.accountCache.delete a).get? address = some entry at found
  rw [get?_delete] at found
  split at found
  · cases found
  · rename_i other
    rw [Finmap.lookup_erase_ne other]
    exact holds.cached found

theorem getStorageTrie_tries (s : PersistentStateTrie ρ τ) (a : Hex) (storageRoot : ρ) :
    ∃ tries, (s.getStorageTrie H a storageRoot).2 = { s with storageTries := tries } := by
  unfold getStorageTrie
  split
  · split
    · exact ⟨_, rfl⟩
    · obtain ⟨tries, touched, -⟩ := touchLru_frame s a
      exact ⟨tries, touched⟩
  · exact ⟨_, rfl⟩

theorem getStorageTrie (holds : HoldsRecords H s levels) (a : Hex) (storageRoot : ρ) :
    HoldsRecords H (s.getStorageTrie H a storageRoot).2 levels := by
  obtain ⟨tries, opened⟩ := getStorageTrie_tries (H := H) s a storageRoot
  rw [opened]
  exact { holds with }

theorem getStorageAt (holds : HoldsRecords H s (c :: rest)) (a slot : Hex) :
    HoldsRecords H (s.getStorageAt H a slot).2 (c :: rest) := by
  obtain ⟨cache, read, kept⟩ := holds.get a
  unfold PersistentStateTrie.getStorageAt
  rw [read]
  cases c.lookup a with
  | none => exact kept
  | some account => exact kept.getStorageTrie a account.storageRoot

theorem putStorageAt (holds : HoldsRecords H s (c :: rest)) (a slot : Hex) (value : Bytes) :
    HoldsRecords H (s.putStorageAt H a slot value)
      (c.insert a { (c.lookup a).getD (newAccount H) with
        storageRoot := s.writtenRoot H a slot value } :: rest) := by
  obtain ⟨cache, read, kept⟩ := holds.get a
  unfold PersistentStateTrie.putStorageAt writtenRoot openedAt
  rw [read]
  have opened := kept.getStorageTrie a ((c.lookup a).getD (newAccount H)).storageRoot
  exact HoldsRecords.put (s := PersistentStateTrie.setStorageTrie _ a _) ⟨opened.represents, opened.cache⟩ a _

theorem clearStorage (holds : HoldsRecords H s (c :: rest)) (a : Hex) :
    HoldsRecords H (s.clearStorage H a) ((match c.lookup a with
      | some account => c.insert a { account with storageRoot := H.zeroRoot }
      | none => c) :: rest) := by
  have dropped : HoldsRecords H { s with storageTries := s.storageTries.delete a } (c :: rest) :=
    { holds with }
  obtain ⟨cache, read, kept⟩ := dropped.get a
  unfold PersistentStateTrie.clearStorage
  rw [read]
  cases c.lookup a with
  | none => exact kept
  | some account => exact kept.put a _

theorem putCode (holds : HoldsRecords H s levels) (code : Bytes) : HoldsRecords H (s.putCode H code).2 levels := by
  unfold PersistentStateTrie.putCode
  split <;> exact { holds with }

theorem syncStorageRoot (holds : HoldsRecords H s (c :: rest)) (a : Hex) : ∃ c', SameAccounts c c' ∧
    HoldsRecords H (s.syncStorageRoot H a) (c' :: rest) := by
  unfold PersistentStateTrie.syncStorageRoot
  split
  · rename_i storageTrie account trieFound found
    split
    · exact ⟨c, .refl c, holds⟩
    · have record := holds.cached found
      refine ⟨c.insert a { account with storageRoot := storageTrie.root }, ?_,
        written (holds.represents.put a _) rfl rfl ?_⟩
      · intro address
        by_cases here : address = a
        · rw [here, Finmap.lookup_insert, ← record]
          rfl
        · rw [Finmap.lookup_insert_of_ne _ here]
      · intro address entry cached
        rw [get?_set] at cached
        split at cached
        · rename_i here
          cases cached
          rw [here, Finmap.lookup_insert]
        · rename_i other
          rw [Finmap.lookup_insert_of_ne _ other]
          exact holds.cached cached
  · exact ⟨c, .refl c, holds⟩

theorem syncStorageRoots (holds : HoldsRecords H s (c :: rest)) (addresses : List Hex) : ∃ c', SameAccounts c c' ∧
    HoldsRecords H (addresses.foldl (PersistentStateTrie.syncStorageRoot H) s) (c' :: rest) := by
  induction addresses generalizing s c with
  | nil => exact ⟨c, .refl c, holds⟩
  | cons address addresses ih =>
    obtain ⟨first, same, synced⟩ := holds.syncStorageRoot address
    obtain ⟨last, same', done⟩ := ih synced
    exact ⟨last, same.trans same', done⟩

/-- Every account to be synced whose record and storage trie are cached has the trie's root. -/
def Synced (s : PersistentStateTrie ρ τ) : Prop :=
  ∀ address ∈ s.dirtyAddresses.keys, ∀ storageTrie ∈ s.storageTries.get? address,
    ∀ account ∈ (s.accountCache.get? address).join, account.storageRoot = storageTrie.root

instance (s : PersistentStateTrie ρ τ) : Decidable (Synced s) :=
  inferInstanceAs (Decidable (∀ address ∈ s.dirtyAddresses.keys, ∀ storageTrie ∈ s.storageTries.get? address,
    ∀ account ∈ (s.accountCache.get? address).join, account.storageRoot = storageTrie.root))

theorem syncStorageRoots_synced (addresses : List Hex)
    (agrees : ∀ address ∈ addresses, ∀ storageTrie ∈ s.storageTries.get? address,
      ∀ account ∈ (s.accountCache.get? address).join, account.storageRoot = storageTrie.root) :
    addresses.foldl (PersistentStateTrie.syncStorageRoot H) s = s := by
  induction addresses with
  | nil => rfl
  | cons address addresses ih =>
    obtain ⟨first, rest⟩ := List.forall_mem_cons.mp agrees
    have unchanged : s.syncStorageRoot H address = s := by
      unfold PersistentStateTrie.syncStorageRoot
      split
      · rename_i storageTrie account cachedTrie cachedAccount
        exact if_pos (first storageTrie cachedTrie account (by rw [cachedAccount]; rfl))
      · rfl
    rw [foldl_cons, unchanged]
    exact ih rest

theorem computeStateRoot_synced (synced : Synced s) : s.computeStateRoot H = (s.trie.root, s) := by
  unfold computeStateRoot
  rw [syncStorageRoots_synced _ synced]

theorem checkpoint (holds : HoldsRecords H s (c :: rest)) : HoldsRecords H s.checkpoint (c :: c :: rest) :=
  ⟨holds.represents.checkpoint, holds.cache⟩

theorem recordRoot (holds : HoldsRecords H s levels) : HoldsRecords H s.recordRoot levels := by
  unfold PersistentStateTrie.recordRoot
  split <;> exact { holds with }

theorem depth (holds : HoldsRecords H s levels) : levels.length = s.trie.frames.length + 1 := holds.represents.length

theorem recordRoot_frame (s : PersistentStateTrie ρ τ) :
    s.recordRoot.trie = s.trie ∧ s.recordRoot.dirtyAddresses = s.dirtyAddresses := by
  unfold PersistentStateTrie.recordRoot
  split <;> exact ⟨rfl, rfl⟩

theorem synced_clean (clean : s.dirtyAddresses = .empty) : Synced s := by
  intro address member
  rw [clean] at member
  cases member

section

variable (holds : HoldsRecords H s (c :: d :: rest))
include holds

theorem popped : HoldsRecords H
    (if s.trie.frames.isEmpty then s else s.popCheckpoints).recordRoot (c :: rest) := by
  have deep := holds.depth
  simp only [length_cons] at deep
  have popped : HoldsRecords H s.popCheckpoints (c :: rest) := ⟨holds.represents.commit, holds.cache⟩
  rw [if_neg (by rw [List.isEmpty_iff, ← List.length_eq_zero_iff]; omega)]
  exact popped.recordRoot

theorem commit : ∃ c', SameAccounts c c' ∧
    HoldsRecords H (s.commit H).2 (c' :: rest) := by
  have cleared : HoldsRecords H { s with dirtyAddresses := .empty } (c :: d :: rest) := { holds with }
  obtain ⟨c', same, synced⟩ := cleared.syncStorageRoots s.dirtyAddresses.keys
  exact ⟨c', same, synced.popped⟩

theorem commit_synced (synced : Synced s) : HoldsRecords H (s.commit H).2 (c :: rest) := by
  have cleared : HoldsRecords H { s with dirtyAddresses := .empty } (c :: d :: rest) := { holds with }
  have unchanged : s.dirtyAddresses.keys.foldl (PersistentStateTrie.syncStorageRoot H)
      { s with dirtyAddresses := .empty } = { s with dirtyAddresses := .empty } := syncStorageRoots_synced _ synced
  unfold PersistentStateTrie.commit
  rw [unchanged]
  exact cleared.popped

theorem revert : HoldsRecords H s.revert (d :: rest) :=
  ⟨holds.represents.revert, fun _ _ => nofun⟩

end

theorem commit_root (s : PersistentStateTrie ρ τ) : (s.commit H).1 = (s.commit H).2.trie.root := by
  unfold PersistentStateTrie.commit
  rw [(recordRoot_frame _).1]

theorem commit_dirty (s : PersistentStateTrie ρ τ) : (s.commit H).2.dirtyAddresses = .empty := by
  have cleared := syncStorageRoots_dirtyAddresses (H := H) s.dirtyAddresses.keys { s with dirtyAddresses := .empty }
  unfold PersistentStateTrie.commit
  rw [(recordRoot_frame _).2]
  split <;> exact cleared

theorem revert_closed (holds : HoldsRecords H s [c]) : HoldsRecords H s.revert [c] := by
  have closed : s.trie.frames = [] := by
    have depth := holds.depth
    simp only [length_singleton] at depth
    exact List.length_eq_zero_iff.mp (by omega)
  refine ⟨?_, fun _ _ => nofun⟩
  have same : s.revert.trie = s.trie := by
    change s.trie.revert = s.trie
    unfold CheckpointTrie.revert
    rw [closed]
  rw [same]
  exact holds.represents

theorem computeStateRoot (holds : HoldsRecords H s (c :: rest)) : ∃ c', SameAccounts c c' ∧
    HoldsRecords H (s.computeStateRoot H).2 (c' :: rest) :=
  holds.syncStorageRoots _

theorem run {ops : List (ManagerOp ρ)} {depth depth' : Nat} (inner : List (Records ρ))
    (holds : HoldsRecords H s (inner ++ rest)) (deep : inner.length = depth + 1)
    (after : depthAfter depth ops = some depth') : ∃ inner', inner'.length = depth' + 1 ∧
      HoldsRecords H (ops.foldl (managerStep H) s) (inner' ++ rest) := by
  induction ops generalizing s depth inner with
  | nil =>
    cases after
    exact ⟨inner, deep, holds⟩
  | cons op ops ih =>
    obtain ⟨c, below, rfl⟩ := exists_cons_of_length_pos (show 0 < inner.length by omega)
    -- Every step but a commit or a revert leaves the levels below the top one alone.
    have kept : ∀ {s'} {c' : Records ρ}, depthAfter depth ops = some depth' →
        HoldsRecords H s' (c' :: (below ++ rest)) → ∃ inner', inner'.length = depth' + 1 ∧
          HoldsRecords H (ops.foldl (managerStep H) s') (inner' ++ rest) := by
      intro s' c' after step
      exact ih (c' :: below) step (by simpa using deep) after
    cases op with
    | putCode code => exact kept after (holds.putCode code)
    | computeStateRoot =>
      obtain ⟨c', -, step⟩ := holds.computeStateRoot
      exact kept after step
    | state op =>
      cases op with
      | get address =>
        obtain ⟨cache, read, step⟩ := holds.get address
        have step : HoldsRecords H (s.get H address).2 (c :: (below ++ rest)) := by
          rw [read]
          exact step
        exact kept after step
      | put address state => exact kept after (holds.put address state)
      | delete address => exact kept after (holds.delete address)
      | getStorageAt address slot => exact kept after (holds.getStorageAt address slot)
      | putStorageAt address slot value =>
        exact kept after (holds.putStorageAt address slot value)
      | clearStorage address => exact kept after (holds.clearStorage address)
      | checkpoint => exact ih (c :: c :: below) holds.checkpoint (by simpa using deep) after
      | commit =>
        simp only [depthAfter] at after
        split at after
        · cases after
        · obtain ⟨d, below, rfl⟩ := exists_cons_of_length_pos (show 0 < below.length by simp at deep; omega)
          obtain ⟨c', -, step⟩ := HoldsRecords.commit (d := d) holds
          exact ih (c' :: below) step (by simp at deep ⊢; omega) after
      | revert =>
        simp only [depthAfter] at after
        split at after
        · cases after
        · obtain ⟨d, below, rfl⟩ := exists_cons_of_length_pos (show 0 < below.length by simp at deep; omega)
          exact ih (d :: below) (HoldsRecords.revert (d := d) holds) (by simp at deep ⊢; omega) after

theorem run_balanced {ops : List (ManagerOp ρ)} (holds : HoldsRecords H s (c :: rest)) (balanced : Balanced ops) :
    ∃ c', HoldsRecords H (ops.foldl (managerStep H) s) (c' :: rest) := by
  obtain ⟨inner, length, done⟩ := run [c] holds rfl balanced
  obtain ⟨c', rfl⟩ := List.length_eq_one_iff.mp length
  exact ⟨c', done⟩

end HoldsRecords

end Palimesh.State
