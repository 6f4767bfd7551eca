import Palimesh.Protocol.Transition
import Palimesh.State.Checkpoints

set_option linter.unusedSectionVars false

namespace Palimesh.State

open Collections CheckpointTrie Protocol PersistentStateTrie RefinesWith World

variable {ρ τ : Type} [DecidableEq ρ] [DecidableEq τ] {H : Hashes ρ τ} {s : PersistentStateTrie ρ τ}
  {l saved : Level ρ} {levels outer : List (Level ρ)} {a : Hex}

namespace PersistentStateTrie

variable (H) (s : PersistentStateTrie ρ τ)

def storedSlots (address : Hex) : FiniteMap Hex Bytes :=
  match (s.get H address).1 with
  | none => ∅
  | some account => (openedTrie H account.storageRoot).contents H.storage (s.db.storage address)

/-- A `put` for an address whose storage trie is not cached names the storage the account has. -/
def NamesStorage (address : Hex) (state : AccountState ρ) : Prop :=
  s.storageTries.has address = true ∨ Opens H (s.db.storage address) ⟨some state, s.storedSlots H address⟩

def Admits : StateOp ρ → Prop
  | .commit | .revert => s.trie.frames ≠ []
  | _ => True

/-- No step drops a storage trie with writes that are nowhere else, and none leaves a storage trie
    and its account record apart. -/
def Keeps : StateOp ρ → Prop
  | .get _ | .checkpoint => True
  | .put address state => s.NamesStorage H address state
  | .getStorageAt address _ => (s.get H address).1 = none ∨ s.OpensSafely H address
  | .putStorageAt address _ _ => s.OpensSafely H address
  | .delete address | .clearStorage address => s.OuterKept H address
  | .commit => s.CommitsInStep H
  | .revert => s.RestoresInStep H

def Reads (w : World) : Prop :=
  (∀ address, (s.get H address).1.map AccountState.account = w.accounts address) ∧
    ∀ address slot, (s.getStorageAt H address slot).1 = (w.storage address).lookup slot

end PersistentStateTrie

theorem Refines.storedSlots (ref : Refines H s (l :: outer)) (uncached : s.storageTries.get? a = none) :
    s.storedSlots H a = l.world.storage a := by
  obtain ⟨cache, read, _⟩ := get ref a
  have ok := ref.addresses a
  rw [uncached] at ok
  have here := ok (l.at a) (by simp)
  unfold PersistentStateTrie.storedSlots
  rw [read]
  cases record : l.records.lookup a with
  | none =>
    rw [Opens, show (l.at a).record = none from record] at here
    exact here.symm
  | some account =>
    have covers : Covers H (s.db.storage a) (openedTrie H account.storageRoot).root
        (openedTrie H account.storageRoot).frames _ := (Opens.opened ok record).1
    exact covers.contents

theorem Refines.reads (ref : Refines H s (l :: outer)) : s.Reads H l.world := by
  constructor
  · intro address
    obtain ⟨cache, read, _⟩ := get ref address
    rw [read]
    exact ref.accounts l (by simp) address
  · exact ref.getStorageAt_value

theorem Refines.step (ref : Refines H s levels) (op : StateOp ρ) (admitted : s.Admits op) (keeps : s.Keeps H op) :
    ∃ levels', Refines H (s.step H op) levels' ∧
      levels'.map Level.world = stepWorlds (levels.map Level.world) op := by
  obtain ⟨l, outer, rfl⟩ : ∃ l outer, levels = l :: outer := by
    have deep := depth ref
    cases levels with
    | nil => simp at deep
    | cons l outer => exact ⟨l, outer, rfl⟩
  have nested (open' : s.trie.frames ≠ []) : ∃ saved rest, outer = saved :: rest := by
    have deep := depth ref
    have positive := List.length_pos_iff.mpr open'
    cases outer with
    | nil =>
      simp only [List.length_cons, List.length_nil] at deep
      omega
    | cons saved rest => exact ⟨saved, rest, rfl⟩
  cases op with
  | get address =>
    obtain ⟨cache, read, consistent⟩ := get ref address
    refine ⟨l :: outer, ?_, rfl⟩
    rw [step, read]
    exact ref.recached consistent
  | put address state =>
    refine ⟨_, ref.put ?_, rfl⟩
    intro uncached
    rcases keeps with present | named
    · simp [InsertionMap.has, uncached] at present
    · rw [ref.storedSlots uncached] at named
      exact named
  | delete address => exact ⟨_, ref.delete keeps, rfl⟩
  | getStorageAt address slot =>
    refine ⟨_, ref.getStorageAt address slot ?_, rfl⟩
    obtain ⟨cache, read, _⟩ := get ref address
    rw [PersistentStateTrie.Keeps, read] at keeps
    exact keeps
  | putStorageAt address slot value =>
    obtain ⟨records, after⟩ := ref.putStorageAt address slot value keeps
    exact ⟨_, after, rfl⟩
  | clearStorage address =>
    obtain ⟨records, after⟩ := ref.clearStorage keeps
    exact ⟨_, after, rfl⟩
  | checkpoint => exact ⟨_, ref.checkpoint, rfl⟩
  | commit =>
    obtain ⟨saved, rest, rfl⟩ := nested admitted
    obtain ⟨l', world, after, _⟩ := ref.commit keeps
    refine ⟨_, after, ?_⟩
    simp [stepWorlds, world]
  | revert =>
    obtain ⟨saved, rest, rfl⟩ := nested admitted
    exact ⟨_, ref.revert keeps, rfl⟩

theorem Refines.new (db : Database ρ τ) (maxCachedTries maxAccountCache : Nat) :
    Refines H (.new H db maxCachedTries maxAccountCache) [⟨∅, empty⟩] := by
  refine ⟨rfl, ⟨rfl, .inl rfl⟩, ?_, ?_, ?_⟩
  · intro level member address
    cases List.mem_singleton.mp member
    rfl
  · intro address cached found
    cases found
  · intro address level member
    cases List.mem_singleton.mp member
    rfl

def stepBoth (H : Hashes ρ τ) (state : PersistentStateTrie ρ τ × List World) (op : StateOp ρ) :
    PersistentStateTrie ρ τ × List World :=
  (state.1.step H op, stepWorlds state.2 op)

section Sample

instance (nodes : List (FiniteMap Hex Bytes)) (slots : FiniteMap Hex Bytes)
    (frames : List (CheckpointFrame Hex Bytes ρ)) : Decidable (Stored frames nodes slots) :=
  inferInstanceAs (Decidable (slots = ∅ ∨ slots ∈ visible frames nodes))

instance (H : Hashes ρ τ) (nodes : List (FiniteMap Hex Bytes)) : ∀ level, Decidable (Opens H nodes level)
  | ⟨none, slots⟩ => inferInstanceAs (Decidable (slots = ∅))
  | ⟨some account, slots⟩ => inferInstanceAs (Decidable ((account.storageRoot = _ ∧ slots = _) ∨ (_ ∧ _)))

instance (H : Hashes ρ τ) (level : AddressLevel ρ) : Decidable (InStep H level) :=
  inferInstanceAs (Decidable (∀ account ∈ level.record, _))

instance (H : Hashes ρ τ) (s : PersistentStateTrie ρ τ) : Decidable (s.EvictionKeeps H) :=
  inferInstanceAs (Decidable (∀ entry ∈ s.storageTries.entries, _ → ∀ level ∈ s.heldLevels H entry.1 entry.2, _))

instance (H : Hashes ρ τ) (s : PersistentStateTrie ρ τ) (address : Hex) : Decidable (s.OpensSafely H address) :=
  inferInstanceAs (Decidable (_ ∨ _))

instance (H : Hashes ρ τ) (s : PersistentStateTrie ρ τ) (op : StateOp ρ) : Decidable (s.Keeps H op) := by
  unfold PersistentStateTrie.Keeps NamesStorage OuterKept CommitsInStep RestoresInStep
  split <;> infer_instance

instance (s : PersistentStateTrie ρ τ) (op : StateOp ρ) : Decidable (s.Admits op) := by
  unfold PersistentStateTrie.Admits
  split <;> infer_instance

def nestedCalls : List (StateOp (Option (FiniteMap Hex Bytes))) :=
  [.putStorageAt "0xa" "0x1" [1], .checkpoint, .putStorageAt "0xa" "0x1" [2], .put "0xa" ⟨1, 10, none, zeroHash⟩,
    .checkpoint, .putStorageAt "0xa" "0x2" [3], .getStorageAt "0xb" "0x1", .putStorageAt "0xb" "0x1" [4], .revert,
    .put "0xa" ⟨2, 10, none, zeroHash⟩]

def deletedInCall : List (StateOp (Option (FiniteMap Hex Bytes))) :=
  [.putStorageAt "0xa" "0x1" [1], .checkpoint, .putStorageAt "0xa" "0x1" [2], .checkpoint, .delete "0xa", .revert]

end Sample

end Palimesh.State
