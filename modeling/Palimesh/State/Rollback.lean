import Palimesh.State.Consistency

set_option linter.unusedSectionVars false

namespace Palimesh.State

open Collections CheckpointTrie List InsertionMap Function PersistentStateTrie

variable {ρ τ : Type} [DecidableEq ρ] [DecidableEq τ] {H : Hashes ρ τ} {s s' s'' : PersistentStateTrie ρ τ}

/-- An operation that opens and closes no checkpoint: the outermost roots stay, nodes are only added, and a new
    storage trie has no checkpoint of its own. -/
structure Flat (s s' : PersistentStateTrie ρ τ) : Prop where
  live : s'.dryRunMode = s.dryRunMode
  depth : s'.trie.frames.length = s.trie.frames.length
  bottom : s.trie.frames ≠ [] → bottom s'.trie.root s'.trie.frames = bottom s.trie.root s.trie.frames
  accounts : s.db.accounts ⊆ s'.db.accounts
  storage : ∀ address, s.db.storage address ⊆ s'.db.storage address
  persisted : s'.db.stateRoot = s.db.stateRoot
  tries : ∀ address trie', s'.storageTries.get? address = some trie' → trie'.frames = [] ∨
    ∃ trie, s.storageTries.get? address = some trie ∧ trie'.frames.length = trie.frames.length ∧
      CheckpointTrie.bottom trie'.root trie'.frames = CheckpointTrie.bottom trie.root trie.frames

theorem Flat.recorded {w : CheckpointTrie Hex (AccountState ρ) τ × List (FiniteMap Hex (AccountState ρ))}
    (depth : w.1.frames.length = s.trie.frames.length)
    (bottom' : s.trie.frames ≠ [] →
      CheckpointTrie.bottom w.1.root w.1.frames = CheckpointTrie.bottom s.trie.root s.trie.frames)
    (nodes : s.db.accounts ⊆ w.2) (live : s'.dryRunMode = s.dryRunMode) (trie : s'.trie = w.1)
    (db : s'.db = { s.db with accounts := w.2 })
    (dropped : ∀ address trie, s'.storageTries.get? address = some trie → s.storageTries.get? address = some trie) :
    Flat s s' where
  live := live
  depth := by rw [trie]; exact depth
  bottom := fun open' => by rw [trie]; exact bottom' open'
  accounts := by rw [db]; exact nodes
  storage := fun address => by rw [db]; exact List.Subset.refl _
  persisted := by rw [db]
  tries := fun address trie' cached => .inr ⟨trie', dropped address trie' cached, rfl, rfl⟩

theorem Flat.of_dropped (live : s'.dryRunMode = s.dryRunMode) (trie : s'.trie = s.trie) (db : s'.db = s.db)
    (dropped : ∀ address trie, s'.storageTries.get? address = some trie → s.storageTries.get? address = some trie) :
    Flat s s' :=
  Flat.recorded (w := (s.trie, s.db.accounts)) rfl (fun _ => rfl) (List.Subset.refl _) live trie db dropped

theorem Flat.refl (s : PersistentStateTrie ρ τ) : Flat s s := Flat.of_dropped rfl rfl rfl fun _ _ cached => cached

theorem Flat.trans (first : Flat s s') (second : Flat s' s'') : Flat s s'' where
  live := second.live.trans first.live
  depth := second.depth.trans first.depth
  bottom := by
    intro open'
    have stillOpen : s'.trie.frames ≠ [] := by
      intro closed
      have same := first.depth
      rw [closed] at same
      exact open' (List.length_eq_zero_iff.mp same.symm)
    exact (second.bottom stillOpen).trans (first.bottom open')
  accounts := List.Subset.trans first.accounts second.accounts
  storage := fun address => List.Subset.trans (first.storage address) (second.storage address)
  persisted := second.persisted.trans first.persisted
  tries := by
    intro address trie'' cached
    rcases second.tries address trie'' cached with bare | ⟨trie', cached', depth', bottom'⟩
    · exact .inl bare
    · rcases first.tries address trie' cached' with bare | ⟨trie, cached, depth, bottom⟩
      · rw [bare] at depth'
        exact .inl (List.length_eq_zero_iff.mp depth')
      · exact .inr ⟨trie, cached, depth'.trans depth, bottom'.trans bottom⟩

variable (H)

theorem Flat.get (s : PersistentStateTrie ρ τ) (address : Hex) : Flat s (s.get H address).2 := by
  unfold PersistentStateTrie.get
  split
  · exact Flat.refl s
  · exact Flat.of_dropped rfl rfl rfl fun _ _ cached => cached

theorem Flat.put (s : PersistentStateTrie ρ τ) (address : Hex) (state : AccountState ρ) :
    Flat s (s.put H address state) :=
  Flat.recorded (w := s.trie.put H.accounts s.db.accounts address state) (write_depth _ _ _)
    (bottom_write _ _) (store_subset_write _ _ _) rfl rfl rfl fun _ _ cached => cached

theorem del_flat {κ ν υ : Type} [DecidableEq κ] [DecidableEq ν] [DecidableEq υ] (hash : ContentHash κ ν υ)
    (t : CheckpointTrie κ ν υ) (store : List (FiniteMap κ ν)) (key : κ) :
    (t.del hash store key).1.frames.length = t.frames.length ∧
      (t.frames ≠ [] → bottom (t.del hash store key).1.root (t.del hash store key).1.frames = bottom t.root t.frames) ∧
      store ⊆ (t.del hash store key).2 := by
  unfold CheckpointTrie.del
  split
  · exact ⟨write_depth _ _ _, bottom_write _ _, store_subset_write _ _ _⟩
  · exact ⟨rfl, fun _ => rfl, List.Subset.refl _⟩

variable {trie : CheckpointTrie Hex Bytes ρ} {address : Hex}

theorem get?_of_delete {m : InsertionMap Hex (CheckpointTrie Hex Bytes ρ)} {other : Hex}
    (found : (m.delete address).get? other = some trie) : m.get? other = some trie := by
  rw [get?_delete] at found
  split at found
  · cases found
  · exact found

theorem Flat.dropTrie (s : PersistentStateTrie ρ τ) (address : Hex) :
    Flat s { s with storageTries := s.storageTries.delete address } :=
  Flat.of_dropped rfl rfl rfl fun _ _ found => get?_of_delete found

theorem Flat.delete (s : PersistentStateTrie ρ τ) (address : Hex) : Flat s (s.delete H address) := by
  obtain ⟨depth, bottom', nodes⟩ := del_flat H.accounts s.trie s.db.accounts address
  exact Flat.recorded depth bottom' nodes rfl rfl rfl fun _ _ cached => get?_of_delete cached

theorem openStorageTrie_flat (live : s.dryRunMode = false) (address : Hex) (storageRoot : ρ) :
    Flat s (s.openStorageTrie H address storageRoot).2 ∧
      (s.openStorageTrie H address storageRoot).2.storageTries.get? address =
        some (s.openStorageTrie H address storageRoot).1 := by
  obtain ⟨tries, opened, lookups⟩ := openStorageTrie_frame (H := H) live address storageRoot
  rw [opened]
  refine ⟨⟨rfl, rfl, fun _ => rfl, List.Subset.refl _, fun _ => List.Subset.refl _, rfl, ?_⟩,
    (lookups address).trans (if_pos rfl)⟩
  intro other trie' cached
  rw [lookups] at cached
  split at cached
  · cases cached
    exact .inl rfl
  · rcases evictLru_get? s other with kept | gone
    · rw [kept] at cached
      exact .inr ⟨trie', cached, rfl, rfl⟩
    · rw [gone] at cached
      cases cached

theorem getStorageTrie_flat (live : s.dryRunMode = false) (address : Hex) (storageRoot : ρ) :
    Flat s (s.getStorageTrie H address storageRoot).2 ∧
      (s.getStorageTrie H address storageRoot).2.storageTries.get? address =
        some (s.getStorageTrie H address storageRoot).1 := by
  unfold getStorageTrie
  split
  · rename_i trie cached
    split
    · have dropped := Flat.dropTrie s address
      obtain ⟨flat, cachedNew⟩ := openStorageTrie_flat H (dropped.live.trans live) address storageRoot
      exact ⟨dropped.trans flat, cachedNew⟩
    · obtain ⟨tries, touched, lookups⟩ := touchLru_frame s address
      rw [touched]
      constructor
      · exact Flat.of_dropped rfl rfl rfl fun other _ found => (lookups other).symm.trans found
      · exact (lookups address).trans cached
  · exact openStorageTrie_flat H live address storageRoot

theorem Flat.getStorageAt (live : s.dryRunMode = false) (address slot : Hex) :
    Flat s (s.getStorageAt H address slot).2 := by
  have read := Flat.get H s address
  unfold PersistentStateTrie.getStorageAt
  split
  · rename_i found
    rw [found] at read
    exact read
  · rename_i account read' found
    rw [found] at read
    have stillLive : read'.dryRunMode = false := read.live.trans live
    exact read.trans (getStorageTrie_flat H stillLive address account.storageRoot).1

theorem writeSlot_flat (trie : CheckpointTrie Hex Bytes ρ) (nodes : List (FiniteMap Hex Bytes)) (slot : Hex)
    (value : Bytes) :
    (writeSlot H trie nodes slot value).1.frames.length = trie.frames.length ∧
      (trie.frames ≠ [] → bottom (writeSlot H trie nodes slot value).1.root
        (writeSlot H trie nodes slot value).1.frames = bottom trie.root trie.frames) ∧
      nodes ⊆ (writeSlot H trie nodes slot value).2 := by
  unfold writeSlot
  split
  · exact del_flat H.storage trie nodes slot
  · exact ⟨write_depth _ _ _, bottom_write _ _, store_subset_write _ _ _⟩

theorem Flat.setStorageTrie (cached : s.storageTries.get? address = some trie) (slot : Hex)
    (value : Bytes) :
    Flat s (s.setStorageTrie address (writeSlot H trie (s.db.storage address) slot value)) := by
  obtain ⟨depth, bottom', nodes⟩ := writeSlot_flat H trie (s.db.storage address) slot value
  refine ⟨rfl, rfl, fun _ => rfl, List.Subset.refl _, ?_, rfl, ?_⟩
  · intro other
    change s.db.storage other ⊆ Function.update s.db.storage address _ other
    by_cases here : other = address
    · subst here
      rw [update_self]
      exact nodes
    · rw [update_of_ne here]
      exact List.Subset.refl _
  · intro other trie' found
    change (s.storageTries.set address _).get? other = some trie' at found
    rw [get?_set] at found
    split at found
    · rename_i here
      cases found
      by_cases bare : trie.frames = []
      · rw [bare] at depth
        exact .inl (List.length_eq_zero_iff.mp depth)
      · exact .inr ⟨trie, here ▸ cached, depth, bottom' bare⟩
    · exact .inr ⟨trie', found, rfl, rfl⟩

theorem Flat.putStorageAt (live : s.dryRunMode = false) (address slot : Hex) (value : Bytes) :
    Flat s (s.putStorageAt H address slot value) := by
  have read := Flat.get H s address
  have stillLive : (s.get H address).2.dryRunMode = false := read.live.trans live
  obtain ⟨opened, cached⟩ := getStorageTrie_flat H stillLive address
    (((s.get H address).1.getD (newAccount H)).storageRoot)
  exact (read.trans opened).trans ((Flat.setStorageTrie H cached slot value).trans (Flat.put H _ address _))

theorem Flat.clearStorage (s : PersistentStateTrie ρ τ) (address : Hex) : Flat s (s.clearStorage H address) := by
  have read := (Flat.dropTrie s address).trans (Flat.get H _ address)
  unfold PersistentStateTrie.clearStorage
  split
  · rename_i account s' found
    rw [found] at read
    exact read.trans (Flat.put H _ address _)
  · rename_i found
    rw [found] at read
    exact read

theorem Flat.putCode (s : PersistentStateTrie ρ τ) (code : Bytes) : Flat s (s.putCode H code).2 := by
  unfold PersistentStateTrie.putCode
  split
  · exact Flat.of_dropped rfl rfl rfl fun _ _ cached => cached
  · exact ⟨rfl, rfl, fun _ => rfl, List.Subset.refl _, fun _ => List.Subset.refl _, rfl,
      fun _ trie' cached => .inr ⟨trie', cached, rfl, rfl⟩⟩

theorem Flat.syncStorageRoot (s : PersistentStateTrie ρ τ) (address : Hex) :
    Flat s (s.syncStorageRoot H address) := by
  unfold PersistentStateTrie.syncStorageRoot
  split
  · split
    · exact Flat.refl s
    · rename_i storageTrie cached _ _ _
      exact Flat.recorded (w := s.trie.put H.accounts s.db.accounts address
        { cached with storageRoot := storageTrie.root }) (write_depth _ _ _) (bottom_write _ _)
        (store_subset_write _ _ _) rfl rfl rfl fun _ _ found => found
  · exact Flat.refl s

theorem Flat.syncStorageRoots (addresses : List Hex) (s : PersistentStateTrie ρ τ) :
    Flat s (addresses.foldl (PersistentStateTrie.syncStorageRoot H) s) := by
  induction addresses generalizing s with
  | nil => exact Flat.refl s
  | cons address addresses ih => exact (Flat.syncStorageRoot H s address).trans (ih _)

variable {H} {base : PersistentStateTrie ρ τ} {n inner : Nat}

/-- Above `n` checkpoints of a base state, with `inner` more open: its root and those of the storage tries cached
    in it can still be reached by reverting. -/
structure Shielded (base : PersistentStateTrie ρ τ) (n inner : Nat) (s : PersistentStateTrie ρ τ) : Prop where
  live : s.dryRunMode = false
  depth : s.trie.frames.length = inner + n
  bottom : bottom s.trie.root s.trie.frames = base.trie.root
  accounts : base.db.accounts ⊆ s.db.accounts
  storage : ∀ address, base.db.storage address ⊆ s.db.storage address
  persisted : s.db.stateRoot = base.db.stateRoot
  tries : ∀ address trie, s.storageTries.get? address = some trie → trie.frames.length ≤ inner ∨
    (trie.frames.length = inner + n ∧ ∃ old, base.storageTries.get? address = some old ∧
      CheckpointTrie.bottom trie.root trie.frames = old.root)

variable {trie' : CheckpointTrie Hex Bytes ρ}

theorem get?_revert
    (cached : s.revert.storageTries.get? address = some trie') :
    ∃ trie, s.storageTries.get? address = some trie ∧ trie.frames ≠ [] ∧ trie' = trie.revert := by
  change ((s.storageTries.filterValues fun trie => !trie.frames.isEmpty).mapValues CheckpointTrie.revert).get? address =
    some trie' at cached
  rw [get?_mapValues, get?_filterValues] at cached
  obtain ⟨trie, kept, rfl⟩ := Option.map_eq_some_iff.mp cached
  obtain ⟨found, framed⟩ := Option.filter_eq_some_iff.mp kept
  refine ⟨trie, found, ?_, rfl⟩
  simpa using framed

theorem storage_popCheckpoints (s : PersistentStateTrie ρ τ) (address : Hex) :
    s.db.storage address ⊆ s.popCheckpoints.db.storage address := by
  change s.db.storage address ⊆ committedNodes _ (s.storageTries.get? address)
  cases s.storageTries.get? address with
  | none => exact List.Subset.refl _
  | some trie => exact store_subset_commit _ _

theorem get?_popCheckpoints
    (cached : s.popCheckpoints.storageTries.get? address = some trie') :
    ∃ trie, s.storageTries.get? address = some trie ∧ (trie.commit []).1 = trie' := by
  change (s.storageTries.mapValues _).get? address = some trie' at cached
  rw [get?_mapValues] at cached
  exact Option.map_eq_some_iff.mp cached

theorem syncStorageRoots_dirtyAddresses (addresses : List Hex) (s : PersistentStateTrie ρ τ) :
    (addresses.foldl (PersistentStateTrie.syncStorageRoot H) s).dirtyAddresses = s.dirtyAddresses := by
  induction addresses generalizing s with
  | nil => rfl
  | cons address addresses ih =>
    rw [foldl_cons, ih]
    unfold PersistentStateTrie.syncStorageRoot
    split
    · split
      · rfl
      · rfl
    · rfl

section

variable (shield : Shielded base n inner s)
include shield

theorem Shielded.flat (positive : 0 < n) (flat : Flat s s') : Shielded base n inner s' where
  live := flat.live.trans shield.live
  depth := flat.depth.trans shield.depth
  bottom := by
    have open' : s.trie.frames ≠ [] := by
      apply List.length_pos_iff.mp
      rw [shield.depth]
      omega
    exact (flat.bottom open').trans shield.bottom
  accounts := List.Subset.trans shield.accounts flat.accounts
  storage := fun address => List.Subset.trans (shield.storage address) (flat.storage address)
  persisted := flat.persisted.trans shield.persisted
  tries := by
    intro address trie' cached
    rcases flat.tries address trie' cached with bare | ⟨trie, cached, sameDepth, sameBottom⟩
    · rw [bare]
      exact .inl (Nat.zero_le _)
    · rcases shield.tries address trie cached with later | ⟨full, old, before, root⟩
      · exact .inl (sameDepth.trans_le later)
      · exact .inr ⟨sameDepth.trans full, old, before, sameBottom.trans root⟩

theorem Shielded.checkpoint : Shielded base n (inner + 1) s.checkpoint := { shield with
  depth := by
    change s.trie.frames.length + 1 = inner + 1 + n
    rw [shield.depth]
    omega
  tries := by
    intro address trie' cached
    change (s.storageTries.mapValues CheckpointTrie.checkpoint).get? address = some trie' at cached
    rw [get?_mapValues] at cached
    obtain ⟨trie, found, rfl⟩ := Option.map_eq_some_iff.mp cached
    rcases shield.tries address trie found with later | ⟨full, old, before, root⟩
    · exact .inl (Nat.succ_le_succ later)
    · refine .inr ⟨?_, old, before, root⟩
      rw [checkpoint_depth, full]
      omega }

theorem Shielded.revert {n' inner' : Nat} (one : inner' + n' + 1 = inner + n) (shallower : inner' = inner - 1)
    : Shielded base n' inner' s.revert := { shield with
  depth := by
    change s.trie.revert.frames.length = inner' + n'
    rw [revert_depth, shield.depth]
    omega
  bottom := by
    change CheckpointTrie.bottom s.trie.revert.root s.trie.revert.frames = base.trie.root
    rw [bottom_revert]
    exact shield.bottom
  tries := by
    intro address trie' cached
    obtain ⟨trie, found, framed, rfl⟩ := get?_revert cached
    rw [revert_depth, bottom_revert]
    rcases shield.tries address trie found with later | ⟨full, old, before, root⟩
    · exact .inl (by omega)
    · exact .inr ⟨by omega, old, before, root⟩ }

theorem Shielded.commit_eq (positive : 0 < n) :
    ∃ r, Shielded base n inner r ∧ r.dirtyAddresses = .empty ∧
      s.commit H = (r.popCheckpoints.trie.root, r.popCheckpoints.recordRoot) := by
  have cleared : Flat s { s with dirtyAddresses := .empty } := Flat.of_dropped rfl rfl rfl fun _ _ cached => cached
  have synced := shield.flat positive (cleared.trans (Flat.syncStorageRoots H s.dirtyAddresses.keys _))
  refine ⟨_, synced, syncStorageRoots_dirtyAddresses _ _, ?_⟩
  have open' := synced.depth
  unfold PersistentStateTrie.commit
  dsimp only
  rw [if_neg]
  rw [List.isEmpty_iff, ← length_eq_zero_iff]
  omega

end

theorem Shielded.commit (shield : Shielded base n (inner + 1) s) (positive : 0 < n) :
    Shielded base n inner (s.commit H).2 := by
  obtain ⟨r, synced, _, committed⟩ := shield.commit_eq (H := H) positive
  have deep := synced.depth
  have popped : r.popCheckpoints.trie.frames.length = inner + n := by
    change (r.trie.commit r.db.accounts).1.frames.length = inner + n
    rw [commit_depth]
    omega
  have pending : r.popCheckpoints.trie.frames.isEmpty = false := by
    rw [isEmpty_eq_false_iff, ← length_pos_iff]
    omega
  rw [committed, recordRoot, if_neg (by simp [pending])]
  refine ⟨synced.live, popped, ?_, ?_, ?_, synced.persisted, ?_⟩
  · exact (bottom_commit _ (by omega)).trans synced.bottom
  · exact List.Subset.trans synced.accounts (store_subset_commit _ _)
  · intro address
    exact List.Subset.trans (synced.storage address) (storage_popCheckpoints r address)
  · intro address trie' cached
    obtain ⟨trie, found, rfl⟩ := get?_popCheckpoints cached
    rw [commit_depth]
    rcases synced.tries address trie found with later | ⟨full, old, before, root⟩
    · exact .inl (by omega)
    · refine .inr ⟨by omega, old, before, ?_⟩
      rw [bottom_commit _ (by omega)]
      exact root

theorem Shielded.run {ops : List (ManagerOp ρ)} {inner' : Nat} (shield : Shielded base n inner s) (positive : 0 < n)
    (after : depthAfter inner ops = some inner') :
    Shielded base n inner' (ops.foldl (managerStep H) s) := by
  induction ops generalizing inner s with
  | nil =>
    cases after
    exact shield
  | cons op ops ih =>
    cases op with
    | putCode code => exact ih (shield.flat positive (Flat.putCode H s code)) after
    | computeStateRoot => exact ih (shield.flat positive (Flat.syncStorageRoots H _ s)) after
    | state op =>
      cases op with
      | get address => exact ih (shield.flat positive (Flat.get H s address)) after
      | put address state => exact ih (shield.flat positive (Flat.put H s address state)) after
      | delete address => exact ih (shield.flat positive (Flat.delete H s address)) after
      | getStorageAt address slot =>
        exact ih (shield.flat positive (Flat.getStorageAt H shield.live address slot)) after
      | putStorageAt address slot value =>
        exact ih (shield.flat positive (Flat.putStorageAt H shield.live address slot value)) after
      | clearStorage address => exact ih (shield.flat positive (Flat.clearStorage H s address)) after
      | checkpoint => exact ih shield.checkpoint after
      | commit =>
        cases inner with
        | zero => cases after
        | succ inner => exact ih (shield.commit positive) after
      | revert =>
        cases inner with
        | zero => cases after
        | succ inner => exact ih (shield.revert (by omega) rfl) after

structure Settled (H : Hashes ρ τ) (s : PersistentStateTrie ρ τ) (l : Level ρ) : Prop where
  refines : Refines H s [l]
  clean : ∀ address, s.dirtyAddresses.has address = false
  live : s.lastStateRoot = some s.trie.root
  persisted : s.db.stateRoot = some s.trie.root

variable {l : Level ρ}

theorem Settled.closed (settled : Settled H s l) : s.trie.frames = [] := by
  have shallow := RefinesWith.depth settled.refines
  rw [length_singleton] at shallow
  exact List.length_eq_zero_iff.mp (by omega)

theorem Settled.bare (settled : Settled H s l) (cached : s.storageTries.get? address = some trie) :
    trie.frames = [] := by
  have ok := settled.refines.addresses address
  rw [cached] at ok
  have bound := ok.1.depth
  rw [length_map, length_singleton] at bound
  exact List.length_eq_zero_iff.mp (by omega)

theorem Settled.shield (settled : Settled H s l) (n : Nat) :
    Shielded s n 0 (PersistentStateTrie.checkpoint^[n] s) ∧
      ∀ address trie, (PersistentStateTrie.checkpoint^[n] s).storageTries.get? address = some trie →
        trie.frames.length = n ∧ ∃ old, s.storageTries.get? address = some old ∧
          bottom trie.root trie.frames = old.root := by
  induction n with
  | zero =>
    have closed := settled.closed
    constructor
    · refine ⟨settled.refines.live, by simp [closed], ?_, List.Subset.refl _, fun _ => List.Subset.refl _, rfl, ?_⟩
      · rw [iterate_zero_apply, closed]
        rfl
      · intro address trie cached
        rw [settled.bare cached]
        exact .inl le_rfl
    · intro address trie cached
      refine ⟨by rw [settled.bare cached]; rfl, trie, cached, ?_⟩
      rw [settled.bare cached]
      rfl
  | succ n ih =>
    obtain ⟨shield, full⟩ := ih
    rw [iterate_succ_apply']
    have all (address : Hex) (trie' : CheckpointTrie Hex Bytes ρ)
        (cached : (PersistentStateTrie.checkpoint^[n] s).checkpoint.storageTries.get? address = some trie') :
        trie'.frames.length = n + 1 ∧ ∃ old, s.storageTries.get? address = some old ∧
          bottom trie'.root trie'.frames = old.root := by
      change ((PersistentStateTrie.checkpoint^[n] s).storageTries.mapValues _).get? address = some trie' at cached
      rw [get?_mapValues] at cached
      obtain ⟨trie, found, rfl⟩ := Option.map_eq_some_iff.mp cached
      obtain ⟨depth, old, before, root⟩ := full address trie found
      exact ⟨by rw [checkpoint_depth, depth], old, before, root⟩
    refine ⟨{ shield with depth := ?_, tries := ?_ }, all⟩
    · have depth := shield.depth
      change (PersistentStateTrie.checkpoint^[n] s).trie.frames.length + 1 = 0 + (n + 1)
      omega
    · intro address trie' cached
      obtain ⟨depth, before⟩ := all address trie' cached
      exact .inr ⟨by omega, before⟩

structure Restored (base s : PersistentStateTrie ρ τ) : Prop where
  live : s.dryRunMode = false
  trie : s.trie = ⟨base.trie.root, []⟩
  accounts : base.db.accounts ⊆ s.db.accounts
  storage : ∀ address, base.db.storage address ⊆ s.db.storage address
  uncached : ∀ address, s.accountCache.get? address = none
  clean : ∀ address, s.dirtyAddresses.has address = false
  tries : ∀ address trie, s.storageTries.get? address = some trie →
    trie.frames = [] ∧ ∃ old, base.storageTries.get? address = some old ∧ trie.root = old.root

theorem Shielded.restored (shield : Shielded base 1 0 s) : Restored base s.revert := by
  have closed (κ ν υ : Type) (t : CheckpointTrie κ ν υ) (root : υ) (single : t.frames.length = 1)
      (below : CheckpointTrie.bottom t.root t.frames = root) : t.revert = ⟨root, []⟩ := by
    obtain ⟨top, only⟩ := List.length_eq_one_iff.mp single
    rw [only] at below
    unfold CheckpointTrie.revert
    rw [only]
    exact congrArg (fun root => (⟨root, []⟩ : CheckpointTrie κ ν υ)) below
  refine ⟨shield.live, ?_, shield.accounts, shield.storage, fun _ => rfl, fun _ => rfl, ?_⟩
  · exact closed _ _ _ _ _ shield.depth shield.bottom
  · intro address trie' cached
    obtain ⟨trie, found, framed, rfl⟩ := get?_revert cached
    rcases shield.tries address trie found with later | ⟨full, old, before, root⟩
    · exact absurd (List.length_eq_zero_iff.mp (Nat.le_zero.mp later)) framed
    · rw [closed _ _ _ trie old.root full root]
      exact ⟨rfl, old, before, rfl⟩

theorem revert_closed (closed : s.trie.frames = []) : s.revert.trie = s.trie := by
  change s.trie.revert = s.trie
  unfold CheckpointTrie.revert
  rw [closed]

theorem Restored.revert (restored : Restored base s) : Restored base s.revert := by
  have closed : s.trie.frames = [] := by rw [restored.trie]
  refine ⟨restored.live, (revert_closed closed).trans restored.trie, restored.accounts, restored.storage,
    fun _ => rfl, fun _ => rfl, ?_⟩
  intro address trie' cached
  obtain ⟨trie, found, framed, _⟩ := get?_revert cached
  exact absurd (restored.tries address trie found).1 framed

theorem Restored.refines (restored : Restored base s) (settled : Settled H base l) : Refines H s [l] := by
  have records := settled.refines.records
  rw [settled.closed] at records
  refine ⟨restored.live, ?_, settled.refines.accounts, ?_, ?_⟩
  · rw [restored.trie]
    exact records.grow restored.accounts
  · intro address cached found
    rw [restored.uncached] at found
    cases found
  · intro address
    have ok := settled.refines.addresses address
    rw [settled.clean] at ok
    have more := restored.storage address
    cases cached : s.storageTries.get? address with
    | none =>
      intro level member
      apply Opens.grow _ more
      cases before : base.storageTries.get? address with
      | none =>
        rw [before] at ok
        exact ok level member
      | some old =>
        rw [before] at ok
        cases List.mem_singleton.mp member
        exact ok.1.opens (settled.bare before) (ok.2 (settled.bare before) rfl (l.at address) rfl)
    | some trie =>
      obtain ⟨bare, old, before, root⟩ := restored.tries address trie cached
      rw [before] at ok
      have covers := ok.1
      rw [settled.bare before] at covers
      refine ⟨?_, fun _ _ => ok.2 (settled.bare before) rfl⟩
      rw [bare, root]
      exact covers.grow more

theorem Shielded.lower (shield : Shielded base (n + 1) inner s) : Shielded base n (inner + 1) s := { shield with
  depth := by
    rw [shield.depth]
    omega
  tries := by
    intro address trie cached
    rcases shield.tries address trie cached with later | ⟨full, before⟩
    · exact .inl (Nat.le_succ_of_le later)
    · exact .inr ⟨by omega, before⟩ }

structure Flushed (base s : PersistentStateTrie ρ τ) : Prop where
  live : s.dryRunMode = false
  closed : s.trie.frames = []
  accounts : base.db.accounts ⊆ s.db.accounts
  storage : ∀ address, base.db.storage address ⊆ s.db.storage address
  bare : ∀ address trie, s.storageTries.get? address = some trie → trie.frames = []
  clean : s.dirtyAddresses = .empty
  persisted : s.db.stateRoot = some s.trie.root

theorem recordRoot_closed (closed : s.trie.frames = []) :
    s.recordRoot = { s with
      lastStateRoot := some s.trie.root
      committedStateRoot := some s.trie.root
      db := { s.db with stateRoot := some s.trie.root } } := by
  unfold recordRoot
  rw [closed]
  rfl

theorem Shielded.flush (shield : Shielded base 1 0 s) :
    Flushed base (s.commit H).2 ∧ (s.commit H).1 = (s.commit H).2.trie.root := by
  obtain ⟨r, synced, dirty, committed⟩ := shield.commit_eq (H := H) Nat.one_pos
  have deep := synced.depth
  have popped : r.popCheckpoints.trie.frames = [] := by
    apply List.length_eq_zero_iff.mp
    change (r.trie.commit r.db.accounts).1.frames.length = 0
    rw [commit_depth]
    omega
  rw [committed, recordRoot_closed popped]
  refine ⟨⟨synced.live, popped, ?_, ?_, ?_, dirty, rfl⟩, rfl⟩
  · exact List.Subset.trans synced.accounts (store_subset_commit _ _)
  · intro address
    exact List.Subset.trans (synced.storage address) (storage_popCheckpoints r address)
  · intro address trie' cached
    obtain ⟨trie, found, rfl⟩ := get?_popCheckpoints cached
    apply List.length_eq_zero_iff.mp
    rw [commit_depth]
    rcases synced.tries address trie found with later | ⟨full, _⟩
    · omega
    · omega

theorem Flushed.computeStateRoot (flushed : Flushed base s) : (s.computeStateRoot H).2 = s := by
  unfold PersistentStateTrie.computeStateRoot
  rw [flushed.clean]
  rfl

theorem Flushed.restored (flushed : Flushed base s) (same : s.trie.root = base.trie.root) : Restored base s.revert := { flushed with
  trie := by
    -- Reverting after the commit cannot bring anything back; it only helps if nothing has changed.
    rw [revert_closed flushed.closed, ← same, ← flushed.closed]
  uncached := fun _ => rfl
  clean := fun _ => rfl
  tries := by
    intro address trie' cached
    obtain ⟨trie, found, framed, _⟩ := get?_revert cached
    exact absurd (flushed.bare address trie found) framed }

structure Grown (base s : PersistentStateTrie ρ τ) : Prop where
  live : s.dryRunMode = false
  closed : s.trie.frames = []
  accounts : base.db.accounts ⊆ s.db.accounts
  storage : ∀ address, base.db.storage address ⊆ s.db.storage address

theorem Restored.grown (restored : Restored base s) : Grown base s :=
  ⟨restored.live, by rw [restored.trie], restored.accounts, restored.storage⟩

theorem Flushed.grown (flushed : Flushed base s) : Grown base s :=
  { flushed with }

theorem Grown.revert (grown : Grown base s) : Grown base s.revert :=
  ⟨grown.live, by rw [revert_closed grown.closed]; exact grown.closed, grown.accounts, grown.storage⟩

theorem Grown.pin (grown : Grown base s) (settled : Settled H base l) :
    Settled H (s.setStateRoot base.trie.root true) l := by
  have restored : Restored base (s.setStateRoot base.trie.root true) := by
    refine ⟨grown.live, ?_, grown.accounts, grown.storage, fun _ => rfl, fun _ => rfl, fun _ _ => nofun⟩
    rw [← grown.closed]
    rfl
  exact ⟨restored.refines settled, restored.clean, rfl, rfl⟩

theorem Settled.root (settled : Settled H s l) : s.trie.root = H.accounts.hash l.records :=
  (Represents.cons settled.refines.records).1.symm

end Palimesh.State
