import Palimesh.State.World

namespace Palimesh.State

open Collections CheckpointTrie

structure AddressLevel (ρ : Type) where
  record : Option (AccountState ρ)
  slots : FiniteMap Hex Bytes

variable {ρ τ : Type} (H : Hashes ρ τ) (nodes : List (FiniteMap Hex Bytes))

def Opens (level : AddressLevel ρ) : Prop :=
  match level.record with
  | none => level.slots = ∅
  | some account => (account.storageRoot = H.zeroRoot ∧ level.slots = ∅) ∨
      (account.storageRoot = H.storage.hash level.slots ∧
        Stored ([] : List (CheckpointFrame Hex Bytes ρ)) nodes level.slots)

def InStep (level : AddressLevel ρ) : Prop :=
  ∀ account ∈ level.record,
    account.storageRoot = H.storage.hash level.slots ∨ (account.storageRoot = H.zeroRoot ∧ level.slots = ∅)

/-- A cached storage trie holds the innermost levels, one more than its checkpoints; those from before it was
    opened can be read from the database. -/
def Covers : ρ → List (CheckpointFrame Hex Bytes ρ) → List (AddressLevel ρ) → Prop
  | _, _, [] => False
  | root, [], level :: outer =>
    level.record.isSome = true ∧ H.storage.hash level.slots = root ∧
      Stored ([] : List (CheckpointFrame Hex Bytes ρ)) nodes level.slots ∧ ∀ l ∈ outer, Opens H nodes l
  | root, top :: frames, level :: outer =>
    level.record.isSome = true ∧ H.storage.hash level.slots = root ∧ Stored (top :: frames) nodes level.slots ∧
      Covers top.savedRoot frames outer

def AddressOk (cached : Option (CheckpointTrie Hex Bytes ρ)) (dirty : Bool)
    (levels : List (AddressLevel ρ)) : Prop :=
  match cached with
  | none => ∀ level ∈ levels, Opens H nodes level
  | some trie => Covers H nodes trie.root trie.frames levels ∧
      (trie.frames = [] → dirty = false → ∀ level ∈ levels.head?, InStep H level)

variable {H} {nodes nodes' : List (FiniteMap Hex Bytes)} {root : ρ} {frames : List (CheckpointFrame Hex Bytes ρ)}
  {trie : CheckpointTrie Hex Bytes ρ} {cached : Option (CheckpointTrie Hex Bytes ρ)} {dirty : Bool}
  {level : AddressLevel ρ} {levels outer : List (AddressLevel ρ)}

theorem Opens.grow (opens : Opens H nodes level) (more : nodes ⊆ nodes') : Opens H nodes' level := by
  unfold Opens at opens ⊢
  split
  · simpa [*] using opens
  · rename_i account found
    rw [found] at opens
    rcases opens with empty | ⟨hash, stored⟩
    · exact .inl empty
    · exact .inr ⟨hash, stored.mono (visible_mono _ more)⟩

theorem Covers.head (covers : Covers H nodes root frames (level :: outer)) :
    level.record.isSome = true ∧ H.storage.hash level.slots = root ∧ Stored frames nodes level.slots := by
  cases frames with
  | nil => exact ⟨covers.1, covers.2.1, covers.2.2.1⟩
  | cons top frames => exact ⟨covers.1, covers.2.1, covers.2.2.1⟩

theorem Covers.nonempty (covers : Covers H nodes root frames levels) : ∃ level outer, levels = level :: outer := by
  cases levels with
  | nil => cases frames <;> exact covers.elim
  | cons level outer => exact ⟨level, outer, rfl⟩

theorem Covers.grow (covers : Covers H nodes root frames levels) (more : nodes ⊆ nodes') :
    Covers H nodes' root frames levels := by
  induction frames generalizing root levels with
  | nil =>
    obtain ⟨level, outer, rfl⟩ := covers.nonempty
    obtain ⟨record, hash, stored, opens⟩ := covers
    exact ⟨record, hash, stored.mono (visible_mono _ more), fun l member => (opens l member).grow more⟩
  | cons top frames ih =>
    obtain ⟨level, outer, rfl⟩ := covers.nonempty
    obtain ⟨record, hash, stored, below⟩ := covers
    exact ⟨record, hash, stored.mono (visible_mono _ more), ih below⟩

theorem Covers.record (covers : Covers H nodes root frames (level :: outer)) (account : AccountState ρ) :
    Covers H nodes root frames (⟨some account, level.slots⟩ :: outer) := by
  cases frames with
  | nil => exact ⟨rfl, covers.2⟩
  | cons top frames => exact ⟨rfl, covers.2⟩

variable {account : AccountState ρ}

theorem Opens.opened (opens : ∀ l ∈ level :: outer, Opens H nodes l)
    (record : level.record = some account) [DecidableEq ρ] :
    Covers H nodes (if account.storageRoot = H.zeroRoot then H.storage.hash ∅ else account.storageRoot) []
      (level :: outer) ∧ InStep H level := by
  have here := opens level (by simp)
  rw [Opens, record] at here
  have later : ∀ l ∈ outer, Opens H nodes l := fun l member => opens l (by simp [member])
  have some' : level.record.isSome = true := by rw [record]; rfl
  rcases here with ⟨zero, empty⟩ | ⟨hash, stored⟩
  · rw [if_pos zero]
    refine ⟨⟨some', by rw [empty], .inl empty, later⟩, ?_⟩
    intro a found
    rw [record] at found
    cases found
    exact .inr ⟨zero, empty⟩
  · rw [if_neg (hash ▸ H.zeroRoot_free _)]
    refine ⟨⟨some', hash.symm, stored, later⟩, ?_⟩
    intro a found
    rw [record] at found
    cases found
    exact .inl hash

theorem AddressOk.checkpoint (ok : AddressOk H nodes cached dirty (level :: outer)) :
    AddressOk H nodes (cached.map CheckpointTrie.checkpoint) dirty (level :: level :: outer) := by
  cases cached with
  | none =>
    intro l member
    rcases List.mem_cons.mp member with rfl | later
    · exact ok l (by simp)
    · exact ok l later
  | some trie =>
    obtain ⟨record, hash, stored⟩ := ok.1.head
    exact ⟨⟨record, hash, stored.mono (by simp [visible]), ok.1⟩, fun closed => by cases closed⟩

variable {saved : AddressLevel ρ}

theorem AddressOk.revert (ok : AddressOk H nodes cached dirty (level :: saved :: outer))
    (agrees : ∀ trie ∈ cached, trie.frames.length = 1 → InStep H saved) :
    AddressOk H nodes ((cached.filter fun trie => !trie.frames.isEmpty).map CheckpointTrie.revert) false
      (saved :: outer) := by
  cases cached with
  | none => exact fun l member => ok l (List.mem_cons_of_mem _ member)
  | some trie =>
    obtain ⟨root, frames⟩ := trie
    cases frames with
    | nil => exact ok.1.2.2.2
    | cons top frames =>
      refine ⟨ok.1.2.2.2, ?_⟩
      intro closed _ l member
      cases member
      have last : frames = [] := closed
      exact agrees _ rfl (by simp [last])

theorem AddressOk.put (ok : AddressOk H nodes cached dirty (level :: outer))
    (named : cached = none → Opens H nodes ⟨some account, level.slots⟩) :
    AddressOk H nodes cached true (⟨some account, level.slots⟩ :: outer) := by
  cases cached with
  | none =>
    intro l member
    rcases List.mem_cons.mp member with rfl | later
    · exact named rfl
    · exact ok l (by simp [later])
  | some trie => exact ⟨ok.1.record account, fun _ dirty => by cases dirty⟩

theorem Covers.dropped (covers : Covers H nodes root frames levels)
    (held : ∀ level ∈ levels.take (frames.length + 1), Opens H nodes level) :
    ∀ level ∈ levels, Opens H nodes level := by
  induction frames generalizing root levels with
  | nil =>
    obtain ⟨level, outer, rfl⟩ := covers.nonempty
    intro l member
    rcases List.mem_cons.mp member with rfl | later
    · exact held l (by simp)
    · exact covers.2.2.2 l later
  | cons top frames ih =>
    obtain ⟨level, outer, rfl⟩ := covers.nonempty
    intro l member
    rcases List.mem_cons.mp member with rfl | later
    · exact held l (by simp)
    · refine ih covers.2.2.2 ?_ l later
      intro l' early
      exact held l' (by simp [early])

theorem Covers.write (covers : Covers H nodes trie.root trie.frames (level :: outer)) (slots : FiniteMap Hex Bytes)
    (account : AccountState ρ) :
    Covers H (write H.storage trie nodes slots).2 (write H.storage trie nodes slots).1.root
      (write H.storage trie nodes slots).1.frames (⟨some account, slots⟩ :: outer) := by
  unfold CheckpointTrie.write
  cases open' : trie.frames with
  | nil =>
    rw [open'] at covers
    refine ⟨rfl, rfl, .inr (by simp [visible]), ?_⟩
    intro l member
    exact (covers.2.2.2 l member).grow fun _ present => List.mem_insert_of_mem present
  | cons top frames =>
    rw [open'] at covers
    exact ⟨rfl, rfl, .inr (by simp [visible]), covers.2.2.2⟩

theorem Covers.commit
    (covers : Covers H nodes trie.root trie.frames (level :: saved :: outer)) :
    Covers H (trie.commit nodes).2 (trie.commit nodes).1.root (trie.commit nodes).1.frames (level :: outer) := by
  unfold CheckpointTrie.commit
  cases open' : trie.frames with
  | nil =>
    rw [open'] at covers
    obtain ⟨record, hash, stored, opens⟩ := covers
    simp only [open']
    exact ⟨record, hash, stored, fun l member => opens l (by simp [member])⟩
  | cons top frames =>
    rw [open'] at covers
    obtain ⟨record, hash, stored, below⟩ := covers
    cases frames with
    | nil =>
      obtain ⟨_, _, _, opens⟩ := below
      refine ⟨record, hash, stored.mono ?_, ?_⟩
      · intro e member
        simpa [visible] using member
      · intro l member
        exact (opens l member).grow fun _ present => List.mem_union_iff.mpr (.inr present)
    | cons next frames =>
      exact ⟨record, hash, stored.mono (visible_commit top next frames nodes), below.2.2.2⟩

variable [DecidableEq ρ]

theorem Covers.snapshots (covers : Covers H nodes root frames levels) :
    snapshots H.storage nodes root frames = (levels.take (frames.length + 1)).map AddressLevel.slots := by
  induction frames generalizing root levels with
  | nil =>
    obtain ⟨level, outer, rfl⟩ := covers.nonempty
    obtain ⟨_, hash, stored, _⟩ := covers
    simp [CheckpointTrie.snapshots, ← hash, resolve_hash stored]
  | cons top frames ih =>
    obtain ⟨level, outer, rfl⟩ := covers.nonempty
    obtain ⟨_, hash, stored, below⟩ := covers
    simp [CheckpointTrie.snapshots, ← hash, resolve_hash stored, ih below]

variable (covers : Covers H nodes trie.root trie.frames (level :: outer))
include covers

theorem Covers.contents : trie.contents H.storage nodes = level.slots := by
  obtain ⟨_, hash, stored⟩ := covers.head
  rw [CheckpointTrie.contents, ← hash]
  exact resolve_hash stored

def writtenSlots (slots : FiniteMap Hex Bytes) (slot : Hex) (value : Bytes) : FiniteMap Hex Bytes :=
  if value = [] then slots.erase slot else slots.insert slot value

theorem Covers.writeSlot (slot : Hex) (value : Bytes) (account : AccountState ρ) :
    Covers H (PersistentStateTrie.writeSlot H trie nodes slot value).2
      (PersistentStateTrie.writeSlot H trie nodes slot value).1.root
      (PersistentStateTrie.writeSlot H trie nodes slot value).1.frames
      (⟨some account, writtenSlots level.slots slot value⟩ :: outer) := by
  unfold PersistentStateTrie.writeSlot writtenSlots
  split
  · unfold del
    rw [covers.contents]
    split
    · exact covers.write _ account
    · rename_i absent
      rw [erase_of_notMem absent]
      exact covers.record account
  · unfold CheckpointTrie.put
    rw [covers.contents]
    exact covers.write _ account

end Palimesh.State
