import Palimesh.Chain.Block
import Palimesh.Collections.CheckpointTrie
import Palimesh.Collections.InsertionMap

namespace Palimesh.State

open Collections

abbrev Bytes := List UInt8

structure AccountState (ρ : Type) where
  nonce : Nat
  balance : Nat
  storageRoot : ρ
  codeHash : Hex
deriving DecidableEq

/-- Roots of the two kinds of tries, the all-zero storage root of an account without storage, and
    the hash of contract code. -/
structure Hashes (ρ τ : Type) where
  storage : ContentHash Hex Bytes ρ
  accounts : ContentHash Hex (AccountState ρ) τ
  zeroRoot : ρ
  zeroRoot_free : ∀ slots, storage.hash slots ≠ zeroRoot
  keccak256 : Bytes → Hex

/-- The key families of the shared database: `s:`, `ss:<address>:`, `meta:stateRoot` and `c:`. -/
structure Database (ρ τ : Type) where
  accounts : List (FiniteMap Hex (AccountState ρ))
  storage : Hex → List (FiniteMap Hex Bytes)
  stateRoot : Option τ
  code : Hex → Option Bytes

structure PersistentStateTrie (ρ τ : Type) where
  trie : CheckpointTrie Hex (AccountState ρ) τ
  db : Database ρ τ
  storageTries : InsertionMap Hex (CheckpointTrie Hex Bytes ρ)
  dirtyAddresses : InsertionMap Hex Unit
  accountCache : InsertionMap Hex (Option (AccountState ρ))
  maxCachedTries : Nat
  maxAccountCache : Nat
  lastStateRoot : Option τ
  committedStateRoot : Option τ
  dryRunMode : Bool
  dryRunCodeScratch : InsertionMap Hex Bytes

namespace PersistentStateTrie

variable {ρ τ : Type} [DecidableEq ρ] [DecidableEq τ] (H : Hashes ρ τ)

def new (db : Database ρ τ) (maxCachedTries maxAccountCache : Nat) : PersistentStateTrie ρ τ where
  trie := ⟨H.accounts.hash ∅, []⟩
  db := db
  storageTries := .empty
  dirtyAddresses := .empty
  accountCache := .empty
  maxCachedTries := maxCachedTries
  maxAccountCache := maxAccountCache
  lastStateRoot := none
  committedStateRoot := none
  dryRunMode := false
  dryRunCodeScratch := .empty

variable (s : PersistentStateTrie ρ τ)

def init : PersistentStateTrie ρ τ :=
  match s.db.stateRoot with
  | some root => { s with trie := ⟨root, []⟩, lastStateRoot := some root, committedStateRoot := some root }
  | none => s

def evictAccountCache : PersistentStateTrie ρ τ :=
  { s with accountCache := s.accountCache.dropOldest (s.accountCache.size + 1 - s.maxAccountCache) }

section

variable (address : Hex)

def get : Option (AccountState ρ) × PersistentStateTrie ρ τ :=
  match s.accountCache.get? address with
  | some cached => (cached, s)
  | none =>
    let found := (s.trie.contents H.accounts s.db.accounts).lookup address
    let evicted := s.evictAccountCache
    (found, { evicted with accountCache := evicted.accountCache.set address found })

def put (s : PersistentStateTrie ρ τ) (address : Hex) (state : AccountState ρ) : PersistentStateTrie ρ τ :=
  let written := s.trie.put H.accounts s.db.accounts address state
  let evicted := s.evictAccountCache
  { evicted with
    trie := written.1
    db := { s.db with accounts := written.2 }
    accountCache := evicted.accountCache.set address (some state)
    dirtyAddresses := s.dirtyAddresses.set address ()
    lastStateRoot := none }

def delete (s : PersistentStateTrie ρ τ) (address : Hex) : PersistentStateTrie ρ τ :=
  let written := s.trie.del H.accounts s.db.accounts address
  { s with
    trie := written.1
    db := { s.db with accounts := written.2 }
    accountCache := s.accountCache.delete address
    dirtyAddresses := s.dirtyAddresses.delete address
    storageTries := s.storageTries.delete address
    lastStateRoot := none }

def touchLru : PersistentStateTrie ρ τ :=
  match s.storageTries.get? address with
  | some trie => { s with storageTries := (s.storageTries.delete address).set address trie }
  | none => s

/-- The eviction loop: the oldest trie goes, a dirty one is moved to the end. -/
def evictOldest (dirty : InsertionMap Hex Unit) : Nat → Nat → InsertionMap Hex (CheckpointTrie Hex Bytes ρ) →
    InsertionMap Hex (CheckpointTrie Hex Bytes ρ)
  | 0, _, tries | _, 0, tries => tries
  | attempts + 1, toEvict + 1, tries =>
    match tries.entries.head? with
    | none => tries
    | some (oldest, trie) =>
      if dirty.has oldest then evictOldest dirty attempts (toEvict + 1) ((tries.delete oldest).set oldest trie)
      else evictOldest dirty attempts toEvict (tries.delete oldest)

def evictLru : PersistentStateTrie ρ τ :=
  { s with
    storageTries :=
      if s.dirtyAddresses.size ≥ s.storageTries.size then s.storageTries
      else evictOldest s.dirtyAddresses s.storageTries.size (s.storageTries.size + 1 - s.maxCachedTries)
        s.storageTries }

def openStorageTrie (storageRoot : ρ) : CheckpointTrie Hex Bytes ρ × PersistentStateTrie ρ τ :=
  let evicted := s.evictLru
  let opened : CheckpointTrie Hex Bytes ρ :=
    ⟨if storageRoot = H.zeroRoot then H.storage.hash ∅ else storageRoot, []⟩
  let trie := if s.dryRunMode then opened.checkpoint else opened
  (trie, { evicted with storageTries := evicted.storageTries.set address trie })

def inFlight (trie : CheckpointTrie Hex Bytes ρ) : Bool :=
  s.dirtyAddresses.has address || !trie.frames.isEmpty

def getStorageTrie (storageRoot : ρ) : CheckpointTrie Hex Bytes ρ × PersistentStateTrie ρ τ :=
  match s.storageTries.get? address with
  | some trie =>
    if storageRoot ≠ H.zeroRoot ∧ trie.root ≠ storageRoot ∧ s.inFlight address trie = false then
      openStorageTrie H { s with storageTries := s.storageTries.delete address } address storageRoot
    else (trie, s.touchLru address)
  | none => openStorageTrie H s address storageRoot

/-- The stored value, or nothing where the code answers `"0x0"`. -/
def getStorageAt (address slot : Hex) : Option Bytes × PersistentStateTrie ρ τ :=
  match s.get H address with
  | (none, s) => (none, s)
  | (some account, s) =>
    let opened := s.getStorageTrie H address account.storageRoot
    ((opened.1.contents H.storage (s.db.storage address)).lookup slot, opened.2)

def newAccount : AccountState ρ := ⟨0, 0, H.zeroRoot, zeroHash⟩

def writeSlot (trie : CheckpointTrie Hex Bytes ρ) (nodes : List (FiniteMap Hex Bytes)) (slot : Hex) (value : Bytes) :
    CheckpointTrie Hex Bytes ρ × List (FiniteMap Hex Bytes) :=
  if value = [] then trie.del H.storage nodes slot else trie.put H.storage nodes slot value

def setStorageTrie (written : CheckpointTrie Hex Bytes ρ × List (FiniteMap Hex Bytes))
    : PersistentStateTrie ρ τ :=
  { s with
    storageTries := s.storageTries.set address written.1
    db := { s.db with storage := Function.update s.db.storage address written.2 } }

def putStorageAt (address slot : Hex) (value : Bytes) : PersistentStateTrie ρ τ :=
  let read := s.get H address
  let account := read.1.getD (newAccount H)
  let opened := read.2.getStorageTrie H address account.storageRoot
  let written := writeSlot H opened.1 (opened.2.db.storage address) slot value
  (opened.2.setStorageTrie address written).put H address { account with storageRoot := written.1.root }

def getCode (codeHash : Hex) : Option Bytes :=
  if s.dryRunMode && s.dryRunCodeScratch.has codeHash then s.dryRunCodeScratch.get? codeHash
  else s.db.code codeHash

def putCode (code : Bytes) : Hex × PersistentStateTrie ρ τ :=
  let codeHash := H.keccak256 code
  if s.dryRunMode then (codeHash, { s with dryRunCodeScratch := s.dryRunCodeScratch.set codeHash code })
  else (codeHash, { s with db := { s.db with code := Function.update s.db.code codeHash (some code) } })

def syncStorageRoot : PersistentStateTrie ρ τ :=
  match s.storageTries.get? address, s.accountCache.get? address with
  | some storageTrie, some (some cached) =>
    if cached.storageRoot = storageTrie.root then s
    else
      let updated := { cached with storageRoot := storageTrie.root }
      let written := s.trie.put H.accounts s.db.accounts address updated
      { s with
        trie := written.1
        db := { s.db with accounts := written.2 }
        accountCache := s.accountCache.set address (some updated) }
  | _, _ => s

end

def computeStateRoot : τ × PersistentStateTrie ρ τ :=
  let synced := s.dirtyAddresses.keys.foldl (syncStorageRoot H) s
  (synced.trie.root, synced)

def checkpoint (s : PersistentStateTrie ρ τ) : PersistentStateTrie ρ τ :=
  { s with trie := s.trie.checkpoint, storageTries := s.storageTries.mapValues CheckpointTrie.checkpoint }

def committedNodes (nodes : List (FiniteMap Hex Bytes)) :
    Option (CheckpointTrie Hex Bytes ρ) → List (FiniteMap Hex Bytes)
  | some storageTrie => (storageTrie.commit nodes).2
  | none => nodes

def popCheckpoints : PersistentStateTrie ρ τ :=
  let popped := s.trie.commit s.db.accounts
  { s with
    trie := popped.1
    storageTries := s.storageTries.mapValues fun storageTrie => (storageTrie.commit []).1
    db := { s.db with
      accounts := popped.2
      storage := fun address => committedNodes (s.db.storage address) (s.storageTries.get? address) } }

/-- The root is persisted once no checkpoint is open any more. -/
def recordRoot : PersistentStateTrie ρ τ :=
  if s.trie.frames.isEmpty then
    { s with
      lastStateRoot := some s.trie.root
      committedStateRoot := some s.trie.root
      db := { s.db with stateRoot := some s.trie.root } }
  else { s with lastStateRoot := some s.trie.root }

def commit : τ × PersistentStateTrie ρ τ :=
  let synced := s.dirtyAddresses.keys.foldl (syncStorageRoot H) { s with dirtyAddresses := .empty }
  let popped := if synced.trie.frames.isEmpty then synced else synced.popCheckpoints
  (popped.trie.root, popped.recordRoot)

def revert (s : PersistentStateTrie ρ τ) : PersistentStateTrie ρ τ :=
  let trie := s.trie.revert
  { s with
    trie
    storageTries := (s.storageTries.filterValues fun trie => !trie.frames.isEmpty).mapValues CheckpointTrie.revert
    accountCache := .empty
    dirtyAddresses := .empty
    lastStateRoot := some trie.root }

def clearStorage (address : Hex) : PersistentStateTrie ρ τ :=
  match get H { s with storageTries := s.storageTries.delete address } address with
  | (some account, s) => s.put H address { account with storageRoot := H.zeroRoot }
  | (none, s) => s

def stateRoot : Option τ := s.lastStateRoot.or s.committedStateRoot

def setStateRoot (root : τ) (persist : Bool) : PersistentStateTrie ρ τ :=
  let moved := { s with
    trie := { s.trie with root := root }
    lastStateRoot := some root
    accountCache := .empty
    storageTries := .empty
    dirtyAddresses := .empty }
  if persist then { moved with committedStateRoot := some root, db := { s.db with stateRoot := some root } } else moved

def forkForDryRun : PersistentStateTrie ρ τ :=
  checkpoint { new H s.db s.maxCachedTries s.maxAccountCache with
    trie := ⟨s.trie.root, []⟩
    lastStateRoot := s.lastStateRoot
    committedStateRoot := s.committedStateRoot
    dryRunMode := true }

end PersistentStateTrie

end Palimesh.State
