import Palimesh.State.Refinement

set_option linter.unusedSectionVars false

namespace Palimesh.State

open Collections CheckpointTrie List InsertionMap PersistentStateTrie RefinesWith CheckpointTrie

variable {ρ τ : Type} [DecidableEq ρ] [DecidableEq τ] {H : Hashes ρ τ} {s : PersistentStateTrie ρ τ}
  {l saved : Level ρ} {levels outer : List (Level ρ)} {dirty : Hex → Bool} {a : Hex}

theorem Refines.checkpoint (ref : Refines H s (l :: outer)) : Refines H s.checkpoint (l :: l :: outer) := by
  refine ⟨ref.live, ref.records.checkpoint, ?_, ?_, ?_⟩
  · intro level member
    rcases List.mem_cons.mp member with rfl | later
    · exact ref.accounts level (by simp)
    · exact ref.accounts level later
  · intro address cached found level head
    cases head
    exact cached_record ref found
  · intro address
    change AddressOk H _ ((s.storageTries.mapValues CheckpointTrie.checkpoint).get? address) _ _
    rw [get?_mapValues]
    exact (ref.addresses address).checkpoint

/-- Storage tries that fall back to their state before the first checkpoint agree with the account
    records that are restored beside them. -/
def PersistentStateTrie.RestoresInStep (H : Hashes ρ τ) (s : PersistentStateTrie ρ τ) : Prop :=
  ∀ entry ∈ s.storageTries.entries, entry.2.frames.length = 1 →
    ∀ level ∈ (s.heldLevels H entry.1 entry.2)[1]?, InStep H level

theorem Refines.revert (ref : Refines H s (l :: saved :: outer)) (restores : s.RestoresInStep H) :
    Refines H s.revert (saved :: outer) := by
  refine ⟨ref.live, ref.records.revert, ?_, ?_, ?_⟩
  · exact fun level member => ref.accounts level (mem_cons_of_mem _ member)
  · intro address cached found
    cases found
  · intro address
    change AddressOk H (s.db.storage address) (((s.storageTries.filterValues fun trie => !trie.frames.isEmpty).mapValues
      CheckpointTrie.revert).get? address) false _
    rw [get?_mapValues, get?_filterValues]
    refine (ref.addresses address).revert ?_
    intro trie cached last
    have held := restores (address, trie) ((mem_entries _ _ _).mpr cached) last
    rw [heldLevels ref cached, last] at held
    exact held (saved.at address) rfl

variable {trie : CheckpointTrie Hex Bytes ρ}

theorem InStep.of_root {level : AddressLevel ρ} {account : AccountState ρ} (record : level.record = some account)
    (hash : H.storage.hash level.slots = trie.root) (agrees : account.storageRoot = trie.root) : InStep H level := by
  intro other found
  rw [record] at found
  cases found
  exact .inl (agrees.trans hash.symm)

structure Synced (H : Hashes ρ τ) (s s' : PersistentStateTrie ρ τ) (l l' : Level ρ) : Prop where
  world : l'.world = l.world
  inStep : ∀ address, InStep H (l.at address) → InStep H (l'.at address)
  storageTries : s'.storageTries = s.storageTries
  dirtyAddresses : s'.dirtyAddresses = s.dirtyAddresses
  storage : s'.db.storage = s.db.storage
  cached : ∀ address, s'.accountCache.has address = s.accountCache.has address
  depth : s'.trie.frames.length = s.trie.frames.length

theorem Synced.refl (s : PersistentStateTrie ρ τ) (l : Level ρ) : Synced H s s l l :=
  ⟨rfl, fun _ => id, rfl, rfl, rfl, fun _ => rfl, rfl⟩

theorem Synced.trans {s' s'' : PersistentStateTrie ρ τ} {l' l'' : Level ρ} (first : Synced H s s' l l')
    (second : Synced H s' s'' l' l'') : Synced H s s'' l l'' where
  world := second.world.trans first.world
  inStep := fun address agrees => second.inStep address (first.inStep address agrees)
  storageTries := second.storageTries.trans first.storageTries
  dirtyAddresses := second.dirtyAddresses.trans first.dirtyAddresses
  storage := second.storage.trans first.storage
  cached := fun address => (second.cached address).trans (first.cached address)
  depth := second.depth.trans first.depth

theorem RefinesWith.syncStorageRoot (ref : RefinesWith H s (l :: outer) dirty) (a : Hex) :
    ∃ l', RefinesWith H (s.syncStorageRoot H a) (l' :: outer) dirty ∧ Synced H s (s.syncStorageRoot H a) l l' ∧
      (s.accountCache.has a = true → s.storageTries.has a = true → InStep H (l'.at a)) := by
  have ok := ref.addresses a
  unfold PersistentStateTrie.syncStorageRoot
  split
  · rename_i storageTrie cached trieFound accountFound
    rw [trieFound] at ok
    have record : l.records.lookup a = some cached := (ref.cached_record accountFound).symm
    obtain ⟨_, hash, _⟩ := ok.1.head
    split
    · rename_i agrees
      exact ⟨l, ref, .refl s l, fun _ _ => InStep.of_root record hash agrees⟩
    · let updated : AccountState ρ := { cached with storageRoot := storageTrie.root }
      have known : l.world.accounts = Function.update l.world.accounts a (some updated.account) := by
        have old := ref.accounts l (by simp) a
        rw [record] at old
        exact (Function.update_eq_self_iff.mpr old).symm
      refine ⟨⟨l.records.insert a updated, l.world⟩, ?_, ⟨rfl, ?_, rfl, rfl, rfl, ?_, write_depth _ _ _⟩, ?_⟩
      · refine ref.recorded ref.live rfl ?_ known (fun _ _ => rfl) (fun other _ => ref.addresses other) ?_
        · intro address entry found
          rw [get?_set] at found
          split at found
          · rename_i same
            cases found
            rw [if_pos same]
          · rename_i other
            rw [if_neg other]
            exact ref.cached_record found
        · rw [trieFound]
          refine ⟨ok.1.record updated, ?_⟩
          intro _ _ level head
          cases head
          exact InStep.of_root rfl hash rfl
      · intro address agrees
        by_cases same : address = a
        · subst same
          exact InStep.of_root (Finmap.lookup_insert _) hash rfl
        · intro account found
          change (l.records.insert a updated).lookup address = some account at found
          rw [Finmap.lookup_insert_of_ne _ same] at found
          exact agrees account found
      · intro address
        change ((s.accountCache.set a (some updated)).get? address).isSome = (s.accountCache.get? address).isSome
        rw [get?_set]
        split
        · rename_i same
          rw [same, accountFound]
          rfl
        · rfl
      · intro _ _
        exact InStep.of_root (Finmap.lookup_insert _) hash rfl
  · rename_i unmatched
    refine ⟨l, ref, .refl s l, ?_⟩
    intro accountCached trieCached
    obtain ⟨entry, accountFound⟩ := Option.isSome_iff_exists.mp accountCached
    obtain ⟨storageTrie, trieFound⟩ := Option.isSome_iff_exists.mp trieCached
    obtain ⟨account, record⟩ := ref.cached_has_record trieFound
    rw [← ref.cached_record accountFound] at record
    subst record
    exact absurd accountFound (fun found => unmatched storageTrie account trieFound found)

theorem RefinesWith.syncStorageRoots (ref : RefinesWith H s (l :: outer) dirty) (addresses : List Hex) :
    ∃ l', RefinesWith H (addresses.foldl (PersistentStateTrie.syncStorageRoot H) s) (l' :: outer) dirty ∧
      Synced H s (addresses.foldl (PersistentStateTrie.syncStorageRoot H) s) l l' ∧
      ∀ address ∈ addresses, s.accountCache.has address = true → s.storageTries.has address = true →
        InStep H (l'.at address) := by
  induction addresses generalizing s l with
  | nil => exact ⟨l, ref, .refl s l, by simp⟩
  | cons a addresses ih =>
    obtain ⟨first, ref', synced, here⟩ := ref.syncStorageRoot a
    obtain ⟨last, ref'', rest, others⟩ := ih ref'
    refine ⟨last, ref'', synced.trans rest, ?_⟩
    intro address member accountCached trieCached
    rcases List.mem_cons.mp member with rfl | later
    · exact rest.inStep address (here accountCached trieCached)
    · refine others address later ?_ ?_
      · rw [synced.cached]
        exact accountCached
      · rw [synced.storageTries]
        exact trieCached

variable {nodes : List (FiniteMap Hex Bytes)}

theorem commit_closed (closed : (trie.commit nodes).1.frames = []) :
    trie.frames.length ≤ 1 := by
  unfold CheckpointTrie.commit at closed
  split at closed
  · rename_i none'
    simp [none']
  · rename_i one
    simp [one]
  · cases closed

theorem AddressOk.pop {cached : Option (CheckpointTrie Hex Bytes ρ)} {level saved : AddressLevel ρ}
    {outer : List (AddressLevel ρ)} {isDirty : Bool}
    (ok : AddressOk H nodes cached isDirty (level :: saved :: outer))
    (agrees : ∀ trie ∈ cached, trie.frames.length ≤ 1 → InStep H level) :
    AddressOk H (committedNodes nodes cached)
      (cached.map fun trie => (trie.commit []).1) false (level :: outer) := by
  cases cached with
  | none =>
    intro l member
    rcases List.mem_cons.mp member with rfl | later
    · exact ok l (by simp)
    · exact ok l (by simp [later])
  | some trie =>
    dsimp only [Option.map_some]
    rw [commit_trie trie [] nodes]
    refine ⟨ok.1.commit, ?_⟩
    intro closed _ l head
    cases head
    exact agrees trie rfl (commit_closed closed)

theorem RefinesWith.popCheckpoints (ref : RefinesWith H s (l :: saved :: outer) dirty)
    (agrees : ∀ address, ∀ trie ∈ s.storageTries.get? address, trie.frames.length ≤ 1 → InStep H (l.at address)) :
    RefinesWith H s.popCheckpoints (l :: outer) fun _ => false := by
  refine ⟨ref.live, ref.records.commit, ?_, ?_, ?_⟩
  · intro level member
    rcases List.mem_cons.mp member with rfl | later
    · exact ref.accounts level (by simp)
    · exact ref.accounts level (by simp [later])
  · intro address cached found level head
    cases head
    exact ref.cached_record found
  · intro address
    have popped := (ref.addresses address).pop (agrees address)
    rw [← get?_mapValues] at popped
    exact popped

/-- A storage trie about to lose its last checkpoint agrees with its account record, or the sync loop sees to it:
    the address is dirty and its record in the read cache. -/
def PersistentStateTrie.CommitsInStep (H : Hashes ρ τ) (s : PersistentStateTrie ρ τ) : Prop :=
  ∀ entry ∈ s.storageTries.entries, entry.2.frames.length ≤ 1 →
    (∀ level ∈ (s.heldLevels H entry.1 entry.2).head?, InStep H level) ∨
      (s.dirtyAddresses.has entry.1 = true ∧ s.accountCache.has entry.1 = true)

theorem Refines.recordRoot (ref : Refines H s levels) : Refines H s.recordRoot levels := by
  unfold PersistentStateTrie.recordRoot
  split <;> exact { ref with }

theorem RefinesWith.depth (ref : RefinesWith H s levels dirty) : levels.length = s.trie.frames.length + 1 := by
  have lengths := ref.records.length
  rwa [length_map] at lengths

theorem Refines.commit (ref : Refines H s (l :: saved :: outer)) (agrees : s.CommitsInStep H) :
    ∃ l', l'.world = l.world ∧ Refines H (s.commit H).2 (l' :: outer) ∧
      ∀ address, (s.commit H).2.dirtyAddresses.has address = false := by
  obtain ⟨l', synced, change', loop⟩ := syncStorageRoots (s := { s with dirtyAddresses := .empty })
    (H := H) { ref with } s.dirtyAddresses.keys
  have inStep : ∀ address, ∀ trie ∈ s.storageTries.get? address, trie.frames.length ≤ 1 →
      InStep H (l'.at address) := by
    intro address trie cached last
    rcases agrees (address, trie) ((mem_entries _ _ _).mpr cached) last with already | ⟨isDirty, read⟩
    · rw [heldLevels ref cached] at already
      exact change'.inStep address (already (l.at address) rfl)
    · refine loop address ((mem_keys _ _).mpr isDirty) read ?_
      rw [InsertionMap.has, show s.storageTries.get? address = some trie from cached]
      rfl
  unfold PersistentStateTrie.commit
  generalize s.dirtyAddresses.keys.foldl (PersistentStateTrie.syncStorageRoot H)
    { s with dirtyAddresses := .empty } = s' at synced change' ⊢
  have deep := synced.depth
  have nested : s'.trie.frames.isEmpty = false := by
    cases frames : s'.trie.frames with
    | nil =>
      rw [frames] at deep
      simp at deep
    | cons top rest => rfl
  have popped := synced.popCheckpoints (fun address trie cached =>
    inStep address trie (change'.storageTries ▸ cached))
  have clean : s'.popCheckpoints.dirtyAddresses.has = fun _ => false := by
    change s'.dirtyAddresses.has = _
    rw [change'.dirtyAddresses]
    rfl
  rw [← clean] at popped
  dsimp only
  rw [nested]
  refine ⟨l', change'.world, Refines.recordRoot popped, ?_⟩
  have same : s'.popCheckpoints.recordRoot.dirtyAddresses = s'.popCheckpoints.dirtyAddresses := by
    unfold PersistentStateTrie.recordRoot
    split <;> rfl
  intro address
  exact (congrArg (InsertionMap.has · address) same).trans (congrFun clean address)

theorem recordRoot_persists (s : PersistentStateTrie ρ τ) (closed : s.recordRoot.trie.frames = []) :
    s.recordRoot.db.stateRoot = some s.recordRoot.trie.root := by
  unfold PersistentStateTrie.recordRoot at closed ⊢
  split at closed
  · rename_i done
    rw [if_pos done]
  · rename_i pending
    exact absurd (List.isEmpty_iff.mpr closed) pending

theorem Covers.depth {root : ρ} {frames : List (CheckpointFrame Hex Bytes ρ)} {levels : List (AddressLevel ρ)}
    (covers : Covers H nodes root frames levels) :
    frames.length + 1 ≤ levels.length := by
  induction frames generalizing root levels with
  | nil =>
    obtain ⟨level, outer, rfl⟩ := covers.nonempty
    simp
  | cons top frames ih =>
    obtain ⟨level, outer, rfl⟩ := covers.nonempty
    have below := ih covers.2.2.2
    simp only [length_cons]
    omega

theorem Covers.opens {level : AddressLevel ρ} {levels : List (AddressLevel ρ)}
    (covers : Covers H nodes trie.root trie.frames (level :: levels)) (bare : trie.frames = [])
    (step : InStep H level) : Opens H nodes level := by
  rw [bare] at covers
  obtain ⟨account, record⟩ := Option.isSome_iff_exists.mp covers.1
  rw [Opens, record]
  rcases step account record with agrees | zero
  · exact .inr ⟨agrees, covers.2.2.1⟩
  · exact .inl zero

theorem Refines.reopened (ref : Refines H s [l]) (clean : ∀ address, s.dirtyAddresses.has address = false)
    (persisted : s.db.stateRoot = some s.trie.root) (maxCachedTries maxAccountCache : Nat) :
    Refines H (new H s.db maxCachedTries maxAccountCache).init [l] := by
  have shallow := depth ref
  have closed : s.trie.frames = [] := by
    rw [length_singleton] at shallow
    exact List.length_eq_zero_iff.mp (by omega)
  have records := ref.records
  rw [closed] at records
  have opened : (new H s.db maxCachedTries maxAccountCache).init =
      { new H s.db maxCachedTries maxAccountCache with
        trie := ⟨s.trie.root, []⟩
        lastStateRoot := some s.trie.root
        committedStateRoot := some s.trie.root } := by
    unfold init
    rw [show (new H s.db maxCachedTries maxAccountCache).db.stateRoot = some s.trie.root from
      persisted]
  rw [opened]
  refine ⟨rfl, records, ref.accounts, ?_, ?_⟩
  · intro address cached found
    cases found
  · intro address level member
    cases List.mem_singleton.mp member
    have ok := ref.addresses address
    rw [clean] at ok
    cases cached : s.storageTries.get? address with
    | none =>
      rw [cached] at ok
      exact ok _ (by simp)
    | some trie =>
      rw [cached] at ok
      have bare : trie.frames = [] := by
        have bound := ok.1.depth
        rw [length_map, length_singleton] at bound
        exact List.length_eq_zero_iff.mp (by omega)
      exact ok.1.opens bare (ok.2 bare rfl (l.at address) rfl)

end Palimesh.State
