import Palimesh.State.StorageLevels

set_option linter.unusedSectionVars false

namespace Palimesh.State

open Collections CheckpointTrie List InsertionMap Function Finmap

structure Level (ρ : Type) where
  records : FiniteMap Hex (AccountState ρ)
  world : World

def Level.at {ρ : Type} (level : Level ρ) (address : Hex) : AddressLevel ρ :=
  ⟨level.records.lookup address, level.world.storage address⟩

variable {ρ τ : Type} [DecidableEq ρ] [DecidableEq τ] {H : Hashes ρ τ}

/-- The trie and its caches stand for a stack of worlds; `dirty` tells which storage tries may be
    ahead of their account record. -/
structure RefinesWith (H : Hashes ρ τ) (s : PersistentStateTrie ρ τ) (levels : List (Level ρ)) (dirty : Hex → Bool) :
    Prop where
  live : s.dryRunMode = false
  records : Represents H.accounts s.db.accounts s.trie.root s.trie.frames (levels.map Level.records)
  accounts : ∀ level ∈ levels, ∀ address,
    (level.records.lookup address).map AccountState.account = level.world.accounts address
  cache : ∀ address cached, s.accountCache.get? address = some cached →
    ∀ level ∈ levels.head?, cached = level.records.lookup address
  addresses : ∀ address, AddressOk H (s.db.storage address) (s.storageTries.get? address) (dirty address)
    (levels.map fun level => level.at address)

def Refines (H : Hashes ρ τ) (s : PersistentStateTrie ρ τ) (levels : List (Level ρ)) : Prop :=
  RefinesWith H s levels s.dirtyAddresses.has

namespace PersistentStateTrie

variable (H)

def heldLevels (s : PersistentStateTrie ρ τ) (address : Hex) (trie : CheckpointTrie Hex Bytes ρ) :
    List (AddressLevel ρ) :=
  List.zipWith (fun records slots => ⟨records.lookup address, slots⟩)
    (snapshots H.accounts s.db.accounts s.trie.root s.trie.frames)
    (snapshots H.storage (s.db.storage address) trie.root trie.frames)

/-- Every storage trie that an eviction would drop now can be opened again from the database, at
    each open checkpoint level. -/
def EvictionKeeps (s : PersistentStateTrie ρ τ) : Prop :=
  ∀ entry ∈ s.storageTries.entries, s.evictLru.storageTries.get? entry.1 = none →
    ∀ level ∈ s.heldLevels H entry.1 entry.2, Opens H (s.db.storage entry.1) level

end PersistentStateTrie

variable {s : PersistentStateTrie ρ τ} {l : Level ρ} {levels outer : List (Level ρ)} {dirty : Hex → Bool} {a : Hex}

theorem zipWith_levels (levels : List (Level ρ)) (address : Hex) (count : Nat) :
    List.zipWith (fun records slots => (⟨records.lookup address, slots⟩ : AddressLevel ρ)) (levels.map Level.records)
        (((levels.map fun level => level.at address).take count).map AddressLevel.slots) =
      (levels.map fun level => level.at address).take count := by
  induction levels generalizing count with
  | nil => simp
  | cons level levels ih =>
    cases count with
    | zero => simp
    | succ count =>
      simp only [map_cons, take_succ_cons, zipWith_cons_cons, ih]
      rfl

variable {trie : CheckpointTrie Hex Bytes ρ}

theorem RefinesWith.heldLevels (ref : RefinesWith H s levels dirty) (cached : s.storageTries.get? a = some trie) :
    s.heldLevels H a trie = (levels.map fun level => level.at a).take (trie.frames.length + 1) := by
  have ok := ref.addresses a
  rw [cached] at ok
  rw [PersistentStateTrie.heldLevels, ref.records.snapshots, ok.1.snapshots, zipWith_levels]

theorem RefinesWith.recached (ref : RefinesWith H s (l :: outer) dirty)
    {cache : InsertionMap Hex (Option (AccountState ρ))}
    (consistent : ∀ address cached, cache.get? address = some cached → cached = l.records.lookup address) :
    RefinesWith H { s with accountCache := cache } (l :: outer) dirty := by
  refine { ref with cache := ?_ }
  intro address cached found level head
  cases head
  exact consistent address cached found

variable {cached : Option (AccountState ρ)}

theorem RefinesWith.cached_record (ref : RefinesWith H s (l :: outer) dirty)
    (found : s.accountCache.get? a = some cached) : cached = l.records.lookup a :=
  ref.cache a cached found l rfl

theorem RefinesWith.contents (ref : RefinesWith H s (l :: outer) dirty) :
    s.trie.contents H.accounts s.db.accounts = l.records :=
  ref.records.resolve

theorem get_reads {records : FiniteMap Hex (AccountState ρ)}
    (contents : s.trie.contents H.accounts s.db.accounts = records)
    (consistent : ∀ address cached, s.accountCache.get? address = some cached → cached = records.lookup address)
    (a : Hex) :
    ∃ cache, s.get H a = (records.lookup a, { s with accountCache := cache }) ∧
      ∀ address cached, cache.get? address = some cached → cached = records.lookup address := by
  unfold PersistentStateTrie.get
  split
  · rename_i cached found
    refine ⟨s.accountCache, ?_, consistent⟩
    rw [consistent a cached found]
  · rw [contents]
    refine ⟨_, rfl, ?_⟩
    intro address cached found
    rw [get?_set] at found
    split at found
    · rename_i same
      cases found
      rw [same]
    · exact consistent address cached (get?_dropOldest found)

theorem RefinesWith.get (ref : RefinesWith H s (l :: outer) dirty) (a : Hex) :
    ∃ cache, s.get H a = (l.records.lookup a, { s with accountCache := cache }) ∧
      ∀ address cached, cache.get? address = some cached → cached = l.records.lookup address :=
  get_reads ref.contents (fun _ _ => ref.cached_record) a

theorem evictOldest_get? (dirtyAddresses : InsertionMap Hex Unit) (attempts toEvict : Nat)
    (tries : InsertionMap Hex (CheckpointTrie Hex Bytes ρ)) (address : Hex) :
    (PersistentStateTrie.evictOldest dirtyAddresses attempts toEvict tries).get? address = tries.get? address ∨
      (PersistentStateTrie.evictOldest dirtyAddresses attempts toEvict tries).get? address = none := by
  induction attempts generalizing toEvict tries with
  | zero => simp [PersistentStateTrie.evictOldest]
  | succ attempts ih =>
    cases toEvict with
    | zero => simp [PersistentStateTrie.evictOldest]
    | succ toEvict =>
      rw [PersistentStateTrie.evictOldest]
      split
      · exact .inl rfl
      · rename_i oldest trie front
        have present : tries.get? oldest = some trie :=
          get?_eq_of_mem (mem_of_mem_head? front)
        split
        · have moved : ((tries.delete oldest).set oldest trie).get? address = tries.get? address := by
            by_cases same : address = oldest
            · simp [same, present]
            · simp [same]
          rw [← moved]
          exact ih _ _
        · rcases ih toEvict (tries.delete oldest) with kept | gone
          · rw [kept, get?_delete]
            split
            · exact .inr rfl
            · exact .inl rfl
          · exact .inr gone

theorem evictLru_get? (s : PersistentStateTrie ρ τ) (address : Hex) :
    s.evictLru.storageTries.get? address = s.storageTries.get? address ∨
      s.evictLru.storageTries.get? address = none := by
  unfold PersistentStateTrie.evictLru
  split
  · exact .inl rfl
  · exact evictOldest_get? _ _ _ _ _

theorem RefinesWith.evicted (ref : RefinesWith H s levels dirty) (keeps : s.EvictionKeeps H) (address : Hex) :
    AddressOk H (s.db.storage address) (s.evictLru.storageTries.get? address) (dirty address)
      (levels.map fun level => level.at address) := by
  have ok := ref.addresses address
  rcases evictLru_get? s address with kept | gone
  · rw [kept]
    exact ok
  · rw [gone]
    cases cached : s.storageTries.get? address with
    | none =>
      rw [cached] at ok
      exact ok
    | some trie =>
      rw [cached] at ok
      have held := keeps (address, trie) ((mem_entries _ _ _).mpr cached) gone
      rw [ref.heldLevels cached] at held
      exact ok.1.dropped held

theorem touchLru_get? (s : PersistentStateTrie ρ τ) (address other : Hex) :
    (s.touchLru address).storageTries.get? other = s.storageTries.get? other := by
  unfold PersistentStateTrie.touchLru
  split
  · rename_i trie found
    by_cases same : other = address
    · simp [same, found]
    · simp [same]
  · rfl

theorem touchLru_frame (s : PersistentStateTrie ρ τ) (address : Hex) :
    ∃ tries, s.touchLru address = { s with storageTries := tries } ∧
      ∀ other, tries.get? other = s.storageTries.get? other := by
  have lookups := touchLru_get? s address
  unfold PersistentStateTrie.touchLru at lookups ⊢
  split at lookups
  · exact ⟨_, rfl, lookups⟩
  · exact ⟨_, rfl, lookups⟩

def openedTrie (H : Hashes ρ τ) (storageRoot : ρ) : CheckpointTrie Hex Bytes ρ :=
  ⟨if storageRoot = H.zeroRoot then H.storage.hash ∅ else storageRoot, []⟩

theorem openStorageTrie_frame (live : s.dryRunMode = false) (a : Hex) (storageRoot : ρ) :
    ∃ tries, s.openStorageTrie H a storageRoot = (openedTrie H storageRoot, { s with storageTries := tries }) ∧
      ∀ other, tries.get? other =
        if other = a then some (openedTrie H storageRoot) else s.evictLru.storageTries.get? other := by
  refine ⟨s.evictLru.storageTries.set a (openedTrie H storageRoot), ?_, fun other => get?_set _ _ _ _⟩
  have plain : (if s.dryRunMode then (openedTrie H storageRoot).checkpoint else openedTrie H storageRoot) =
      openedTrie H storageRoot := if_neg (by simp [live])
  have opened : s.openStorageTrie H a storageRoot =
      ((if s.dryRunMode then (openedTrie H storageRoot).checkpoint else openedTrie H storageRoot),
        { s with storageTries := s.evictLru.storageTries.set a
                  (if s.dryRunMode then (openedTrie H storageRoot).checkpoint else openedTrie H storageRoot) }) := rfl
  rw [opened, plain]

variable {account : AccountState ρ}

section

variable (ref : Refines H s (l :: outer))
include ref

theorem Refines.uses_cached (cached : s.storageTries.get? a = some trie)
    (record : l.records.lookup a = some account) :
    s.getStorageTrie H a account.storageRoot = (trie, s.touchLru a) := by
  -- A cached storage trie is used as it is: while it is out of step with its record it is in flight.
  have ok := ref.addresses a
  rw [cached] at ok
  unfold PersistentStateTrie.getStorageTrie
  rw [cached]
  refine if_neg ?_
  rintro ⟨nonzero, differs, quiet⟩
  simp only [PersistentStateTrie.inFlight, Bool.or_eq_false_iff, Bool.not_eq_false', List.isEmpty_iff] at quiet
  have step := ok.2 quiet.2 quiet.1 (l.at a) rfl account record
  obtain ⟨_, hash, _⟩ := ok.1.head
  rcases step with agrees | ⟨zero, _⟩
  · exact differs (hash.symm.trans agrees.symm)
  · exact nonzero zero

def PersistentStateTrie.OpensSafely (H : Hashes ρ τ) (s : PersistentStateTrie ρ τ) (address : Hex) : Prop :=
  s.storageTries.has address = true ∨ s.EvictionKeeps H

theorem Refines.opened (record : l.records.lookup a = some account) :
    AddressOk H (s.db.storage a) (some (s.getStorageTrie H a account.storageRoot).1) (s.dirtyAddresses.has a)
      ((l :: outer).map fun level => level.at a) := by
  have ok := ref.addresses a
  cases cached : s.storageTries.get? a with
  | some trie =>
    rw [ref.uses_cached cached record]
    rw [cached] at ok
    exact ok
  | none =>
    obtain ⟨tries, opened, _⟩ := openStorageTrie_frame ref.live a account.storageRoot (H := H)
    have fresh : (s.getStorageTrie H a account.storageRoot).1 = openedTrie H account.storageRoot := by
      unfold PersistentStateTrie.getStorageTrie
      rw [cached]
      rw [opened]
    rw [cached] at ok
    rw [fresh]
    have covers := Opens.opened ok record
    refine ⟨covers.1, ?_⟩
    intro _ _ level head
    cases head
    exact covers.2

theorem Refines.getStorageTrie_frame (safe : s.OpensSafely H a) (storageRoot : ρ)
    (uses : ∀ trie, s.storageTries.get? a = some trie →
      s.getStorageTrie H a storageRoot = (trie, s.touchLru a)) :
    ∃ tries, s.getStorageTrie H a storageRoot =
        ((s.getStorageTrie H a storageRoot).1, { s with storageTries := tries }) ∧
      tries.get? a = some (s.getStorageTrie H a storageRoot).1 ∧
      ∀ other, other ≠ a → AddressOk H (s.db.storage other) (tries.get? other) (s.dirtyAddresses.has other)
        ((l :: outer).map fun level => level.at other) := by
  cases cached : s.storageTries.get? a with
  | some trie =>
    obtain ⟨tries, touched, lookups⟩ := touchLru_frame s a
    rw [uses trie cached, touched]
    refine ⟨tries, rfl, (lookups a).trans cached, ?_⟩
    intro other _
    rw [lookups]
    exact ref.addresses other
  | none =>
    have keeps : s.EvictionKeeps H := by
      rcases safe with present | keeps
      · simp [InsertionMap.has, cached] at present
      · exact keeps
    obtain ⟨tries, opened, lookups⟩ := openStorageTrie_frame ref.live a storageRoot (H := H)
    have path : s.getStorageTrie H a storageRoot = s.openStorageTrie H a storageRoot := by
      unfold PersistentStateTrie.getStorageTrie
      rw [cached]
    rw [path, opened]
    refine ⟨tries, rfl, (lookups a).trans (if_pos rfl), ?_⟩
    intro other differs
    rw [lookups, if_neg differs]
    exact RefinesWith.evicted ref keeps other

theorem Refines.getStorageAt_value (a slot : Hex) :
    (s.getStorageAt H a slot).1 = (l.world.storage a).lookup slot := by
  obtain ⟨cache, read, consistent⟩ := RefinesWith.get ref a
  have reread : Refines H { s with accountCache := cache } (l :: outer) := ref.recached consistent
  unfold PersistentStateTrie.getStorageAt
  rw [read]
  cases record : l.records.lookup a with
  | none =>
    have ok := ref.addresses a
    have empty : l.world.storage a = ∅ := by
      cases cached : s.storageTries.get? a with
      | none =>
        rw [cached] at ok
        have opens := ok (l.at a) (by simp)
        rw [Opens, show (l.at a).record = none from record] at opens
        exact opens
      | some trie =>
        rw [cached] at ok
        have present := ok.1.head.1
        rw [show (l.at a).record = none from record] at present
        cases present
    rw [empty]
    rfl
  | some account =>
    have ok := reread.opened record
    dsimp only
    rw [ok.1.contents]
    rfl

theorem Refines.getStorageAt (a slot : Hex) (safe : l.records.lookup a = none ∨ s.OpensSafely H a) :
    Refines H (s.getStorageAt H a slot).2 (l :: outer) := by
  obtain ⟨cache, read, consistent⟩ := RefinesWith.get ref a
  have reread : Refines H { s with accountCache := cache } (l :: outer) := ref.recached consistent
  unfold PersistentStateTrie.getStorageAt
  rw [read]
  cases record : l.records.lookup a with
  | none => exact reread
  | some account =>
    have ok := reread.opened record
    have cached : s.OpensSafely H a := by
      rcases safe with absent | safe
      · rw [record] at absent
        cases absent
      · exact safe
    obtain ⟨tries, opened, here, others⟩ := reread.getStorageTrie_frame cached account.storageRoot
      (fun trie cached => reread.uses_cached cached record)
    dsimp only
    rw [opened]
    refine { ref with cache := reread.cache, addresses := ?_ }
    intro other
    by_cases same : other = a
    · subst same
      rw [here]
      exact ok
    · exact others other same

end

theorem has_set (m : InsertionMap Hex Unit) (key other : Hex) :
    (m.set key ()).has other = if other = key then true else m.has other := by
  unfold InsertionMap.has
  rw [get?_set]
  split <;> rfl

def PersistentStateTrie.OuterKept (H : Hashes ρ τ) (s : PersistentStateTrie ρ τ) (address : Hex) : Prop :=
  ∀ trie ∈ s.storageTries.get? address, ∀ level ∈ (s.heldLevels H address trie).tail,
    Opens H (s.db.storage address) level

variable {state : AccountState ρ}

section

variable (ref : RefinesWith H s (l :: outer) dirty)
include ref

theorem RefinesWith.recorded {s' : PersistentStateTrie ρ τ} {dirty' : Hex → Bool} {w : World}
    (live : s'.dryRunMode = false) (trie : (s'.trie, s'.db.accounts) = s.trie.put H.accounts s.db.accounts a state)
    (cache : ∀ address cached, s'.accountCache.get? address = some cached →
      cached = if address = a then some state else l.records.lookup address)
    (accounts : w.accounts = Function.update l.world.accounts a (some state.account))
    (untouched : ∀ other, other ≠ a → w.storage other = l.world.storage other)
    (others : ∀ other, other ≠ a → AddressOk H (s'.db.storage other) (s'.storageTries.get? other) (dirty' other)
      ((l :: outer).map fun level => level.at other))
    (here : AddressOk H (s'.db.storage a) (s'.storageTries.get? a) (dirty' a)
      (⟨some state, w.storage a⟩ :: outer.map fun level => level.at a)) :
    RefinesWith H s' (⟨l.records.insert a state, w⟩ :: outer) dirty' := by
  have looked (address : Hex) : (l.records.insert a state).lookup address =
      if address = a then some state else l.records.lookup address := by
    by_cases same : address = a
    · rw [if_pos same, same, lookup_insert]
    · rw [if_neg same, lookup_insert_of_ne _ same]
  refine ⟨live, ?_, ?_, ?_, ?_⟩
  · have written := ref.records.put a state
    rw [← trie] at written
    exact written
  · intro level member address
    rcases List.mem_cons.mp member with rfl | later
    · rw [looked, accounts, update_apply]
      split
      · rfl
      · exact ref.accounts l (by simp) address
    · exact ref.accounts level (by simp [later]) address
  · intro address cached found level head
    cases head
    rw [looked]
    exact cache address cached found
  · intro other
    by_cases same : other = a
    · subst same
      simp only [map_cons, Level.at, lookup_insert]
      exact here
    · have ok := others other same
      simp only [map_cons, Level.at, lookup_insert_of_ne _ same, untouched other same]
      exact ok

theorem RefinesWith.evictedCache {address : Hex}
    (found : (s.evictAccountCache.accountCache.set a (some state)).get? address = some cached) :
    cached = if address = a then some state else l.records.lookup address := by
  rw [get?_set] at found
  split at found
  · rename_i same
    cases found
    rw [if_pos same]
  · rename_i differs
    rw [if_neg differs]
    exact ref.cached_record (get?_dropOldest found)

theorem RefinesWith.cached_has_record (cached : s.storageTries.get? a = some trie)
    : ∃ account, l.records.lookup a = some account := by
  have ok := ref.addresses a
  rw [cached] at ok
  exact Option.isSome_iff_exists.mp ok.1.head.1

theorem RefinesWith.outer_opens (kept : s.OuterKept H a) :
    ∀ level ∈ outer.map fun level => level.at a, Opens H (s.db.storage a) level := by
  have ok := ref.addresses a
  cases cached : s.storageTries.get? a with
  | none =>
    rw [cached] at ok
    exact fun level member => ok level (by simp [List.mem_map.mp member])
  | some trie =>
    rw [cached] at ok
    have held := kept trie cached
    rw [ref.heldLevels cached, map_cons, take_succ_cons, tail_cons] at held
    have covers := ok.1
    cases open' : trie.frames with
    | nil =>
      rw [open'] at covers
      exact covers.2.2.2
    | cons top frames =>
      rw [open'] at covers held
      exact covers.2.2.2.dropped held

end

variable (ref : Refines H s (l :: outer))
include ref

theorem Refines.put
    (named : s.storageTries.get? a = none → Opens H (s.db.storage a) ⟨some state, l.world.storage a⟩) :
    Refines H (s.put H a state) (⟨l.records.insert a state, l.world.put a state.account⟩ :: outer) := by
  refine RefinesWith.recorded ref ref.live rfl (fun _ _ => ref.evictedCache) rfl (fun _ _ => rfl) ?_ ?_
  · intro other differs
    change AddressOk H _ _ ((s.dirtyAddresses.set a ()).has other) _
    rw [has_set, if_neg differs]
    exact ref.addresses other
  · change AddressOk H _ _ ((s.dirtyAddresses.set a ()).has a) _
    rw [has_set, if_pos rfl]
    exact (ref.addresses a).put named

theorem Refines.openedFor
    (chosen : account = (l.records.lookup a).getD (PersistentStateTrie.newAccount H)) :
    Covers H (s.db.storage a) (s.getStorageTrie H a account.storageRoot).1.root
      (s.getStorageTrie H a account.storageRoot).1.frames
      (⟨some account, l.world.storage a⟩ :: outer.map fun level => level.at a) := by
  cases record : l.records.lookup a with
  | some known =>
    rw [record, Option.getD_some] at chosen
    subst chosen
    have covers := (ref.opened record).1
    exact covers.record account
  | none =>
    rw [record, Option.getD_none] at chosen
    have ok := ref.addresses a
    have uncached : s.storageTries.get? a = none := by
      cases cached : s.storageTries.get? a with
      | none => rfl
      | some trie =>
        obtain ⟨account, present⟩ := RefinesWith.cached_has_record ref cached
        rw [record] at present
        cases present
    rw [uncached] at ok
    have empty : l.world.storage a = ∅ := by
      have opens := ok (l.at a) (by simp)
      rw [Opens, show (l.at a).record = none from record] at opens
      exact opens
    obtain ⟨tries, opened, _⟩ := openStorageTrie_frame ref.live a account.storageRoot (H := H)
    have fresh : s.getStorageTrie H a account.storageRoot = s.openStorageTrie H a account.storageRoot := by
      unfold PersistentStateTrie.getStorageTrie
      rw [uncached]
    rw [fresh, opened]
    have readable : ∀ level ∈ (⟨some account, l.world.storage a⟩ : AddressLevel ρ) ::
        outer.map (fun level => level.at a), Opens H (s.db.storage a) level := by
      intro level member
      rcases List.mem_cons.mp member with rfl | later
      · exact .inl ⟨by rw [chosen]; rfl, empty⟩
      · exact ok level (by simp [later])
    exact (Opens.opened readable rfl).1

theorem Refines.putStorageAt (a slot : Hex) (value : Bytes) (safe : s.OpensSafely H a) :
    ∃ records, Refines H (s.putStorageAt H a slot value)
      (⟨records, l.world.putStorageAt a slot value⟩ :: outer) := by
  obtain ⟨cache, read, consistent⟩ := RefinesWith.get ref a
  have reread : Refines H { s with accountCache := cache } (l :: outer) := ref.recached consistent
  unfold PersistentStateTrie.putStorageAt
  rw [read]
  dsimp only
  generalize chosen : (l.records.lookup a).getD (PersistentStateTrie.newAccount H) = account
  have covers := reread.openedFor chosen.symm
  obtain ⟨tries, opened, here, others⟩ := reread.getStorageTrie_frame safe account.storageRoot (by
    intro trie cached
    obtain ⟨known, record⟩ := RefinesWith.cached_has_record reread cached
    rw [record, Option.getD_some] at chosen
    subst chosen
    exact reread.uses_cached cached record)
  rw [opened]
  refine ⟨_, RefinesWith.recorded (w := l.world.putStorageAt a slot value) ref ref.live rfl
    (fun _ _ => reread.evictedCache) ?_ ?_ ?_ ?_⟩
  · have known := ref.accounts l (by simp) a
    have account' : ((l.world.accounts a).getD ⟨0, 0, zeroHash⟩) = account.account := by
      rw [← known, ← chosen]
      cases l.records.lookup a <;> rfl
    simp only [World.putStorageAt, account']
    rfl
  · intro other differs
    exact update_of_ne differs ..
  · intro other differs
    change AddressOk H (Function.update s.db.storage a _ other) ((InsertionMap.set tries a _).get? other)
      ((s.dirtyAddresses.set a ()).has other) _
    rw [update_of_ne differs, get?_set, if_neg differs, has_set, if_neg differs]
    exact others other differs
  · change AddressOk H (Function.update s.db.storage a _ a) ((InsertionMap.set tries a _).get? a)
      ((s.dirtyAddresses.set a ()).has a) (⟨some _, Function.update l.world.storage a _ a⟩ :: _)
    rw [update_self, update_self, get?_set, if_pos rfl, has_set, if_pos rfl]
    exact ⟨covers.writeSlot slot value _, fun _ dirty => by cases dirty⟩

theorem Refines.delete (kept : s.OuterKept H a) :
    Refines H (s.delete H a) (⟨l.records.erase a, l.world.delete a⟩ :: outer) := by
  refine ⟨ref.live, ref.records.del a, ?_, ?_, ?_⟩
  · intro level member address
    rcases List.mem_cons.mp member with rfl | later
    · dsimp only [World.delete]
      by_cases same : address = a
      · rw [same, lookup_erase, update_self]
        rfl
      · rw [lookup_erase_ne same, update_of_ne same]
        exact ref.accounts l (by simp) address
    · exact ref.accounts level (by simp [later]) address
  · intro address cached found level head
    cases head
    change (s.accountCache.delete a).get? address = some cached at found
    rw [get?_delete] at found
    split at found
    · cases found
    · rename_i differs
      rw [lookup_erase_ne differs]
      exact ref.cached_record found
  · intro other
    change AddressOk H (s.db.storage other) ((s.storageTries.delete a).get? other)
      ((s.dirtyAddresses.delete a).has other) _
    by_cases same : other = a
    · subst same
      rw [get?_delete, if_pos rfl]
      intro level member
      rcases List.mem_cons.mp member with rfl | later
      · simp [Opens, Level.at, World.delete]
      · exact RefinesWith.outer_opens ref kept level later
    · rw [get?_delete, if_neg same, InsertionMap.has, get?_delete, if_neg same]
      simp only [map_cons, Level.at, lookup_erase_ne same, World.delete, update_of_ne same]
      exact ref.addresses other

theorem Refines.clearStorage (kept : s.OuterKept H a) :
    ∃ records, Refines H (s.clearStorage H a) (⟨records, l.world.clearStorage a⟩ :: outer) := by
  have dropped (other : Hex) : (s.storageTries.delete a).get? other =
      if other = a then none else s.storageTries.get? other := get?_delete _ _ _
  have outside : ∀ level ∈ outer.map fun level => level.at a, Opens H (s.db.storage a) level :=
    RefinesWith.outer_opens ref kept
  have contents : s.trie.contents H.accounts s.db.accounts = l.records := RefinesWith.contents ref
  have cached (address : Hex) (record : Option (AccountState ρ))
      (found : s.accountCache.get? address = some record) : record = l.records.lookup address :=
    RefinesWith.cached_record ref found
  obtain ⟨cache, read, consistent⟩ :=
    get_reads (s := { s with storageTries := s.storageTries.delete a }) contents cached a
  unfold PersistentStateTrie.clearStorage
  rw [read]
  cases record : l.records.lookup a with
  | some account =>
    have reread : RefinesWith H { s with accountCache := cache } (l :: outer) s.dirtyAddresses.has :=
      RefinesWith.recached ref consistent
    refine ⟨_, RefinesWith.recorded (w := l.world.clearStorage a) ref ref.live rfl
      (fun _ _ => reread.evictedCache) ?_ ?_ ?_ ?_⟩
    · have known := ref.accounts l (by simp) a
      rw [record] at known
      exact (Function.update_eq_self_iff.mpr known).symm
    · intro other differs
      exact update_of_ne differs ..
    · intro other differs
      change AddressOk H (s.db.storage other) ((s.storageTries.delete a).get? other)
        ((s.dirtyAddresses.set a ()).has other) _
      rw [dropped, if_neg differs, has_set, if_neg differs]
      exact ref.addresses other
    · change AddressOk H (s.db.storage a) ((s.storageTries.delete a).get? a) _ _
      rw [dropped, if_pos rfl]
      intro level member
      rcases List.mem_cons.mp member with rfl | later
      · exact .inl ⟨rfl, update_self ..⟩
      · exact outside level later
  | none =>
    refine ⟨l.records, ref.live, ref.records, ?_, ?_, ?_⟩
    · intro level member
      rcases List.mem_cons.mp member with rfl | later
      · exact ref.accounts l (by simp)
      · exact ref.accounts level (by simp [later])
    · intro address cached found level head
      cases head
      exact consistent address cached found
    · intro other
      rw [dropped]
      by_cases same : other = a
      · subst same
        rw [if_pos rfl]
        intro level member
        rcases List.mem_cons.mp member with rfl | later
        · simp [Opens, Level.at, record, World.clearStorage]
        · exact outside level later
      · rw [if_neg same]
        simp only [map_cons, Level.at, World.clearStorage, update_of_ne same]
        exact ref.addresses other

end Palimesh.State
