import Palimesh.Vm.Records

set_option linter.unusedSectionVars false

namespace Palimesh.Vm

open Collections State Protocol Chain PersistentStateManager PersistentStateTrie CheckpointTrie

variable {ρ τ α : Type} [DecidableEq ρ] [DecidableEq τ] {H : Hashes ρ τ} {s t : PersistentStateTrie ρ τ}
  {c : Records ρ} {rest rest' : List (Records ρ)} {a : Hex}

structure SameCode (s s' : PersistentStateTrie ρ τ) : Prop where
  code : s'.db.code = s.db.code
  dryRunMode : s'.dryRunMode = s.dryRunMode
  scratch : s'.dryRunCodeScratch = s.dryRunCodeScratch

namespace SameCode

variable {s' s'' : PersistentStateTrie ρ τ}

theorem refl (s : PersistentStateTrie ρ τ) : SameCode s s := ⟨rfl, rfl, rfl⟩

theorem trans (one : SameCode s s') (two : SameCode s' s'') : SameCode s s'' :=
  ⟨two.code.trans one.code, two.dryRunMode.trans one.dryRunMode, two.scratch.trans one.scratch⟩

theorem getCode (same : SameCode s s') (hash : Hex) : s'.getCode hash = s.getCode hash := by
  unfold PersistentStateTrie.getCode
  rw [same.code, same.dryRunMode, same.scratch]

variable (s : PersistentStateTrie ρ τ)

theorem get (address : Hex) : SameCode s (s.get H address).2 := by
  unfold PersistentStateTrie.get
  split <;> exact ⟨rfl, rfl, rfl⟩

theorem getStorageTrie (address : Hex) (root : ρ) : SameCode s (s.getStorageTrie H address root).2 := by
  obtain ⟨tries, opened⟩ := HoldsRecords.getStorageTrie_tries (H := H) s address root
  rw [opened]
  exact ⟨rfl, rfl, rfl⟩

theorem getStorageAt (address slot : Hex) : SameCode s (s.getStorageAt H address slot).2 := by
  have read := get (H := H) s address
  unfold PersistentStateTrie.getStorageAt
  generalize s.get H address = found at read
  obtain ⟨account | account, s'⟩ := found
  · exact read
  · exact read.trans (getStorageTrie s' address account.storageRoot)

theorem putStorageAt (address slot : Hex) (value : Bytes) : SameCode s (s.putStorageAt H address slot value) := by
  have opened := (get (H := H) s address).trans (getStorageTrie (H := H) (s.get H address).2 address
    ((s.get H address).1.getD (newAccount H)).storageRoot)
  exact { opened with }

theorem clearStorage (address : Hex) : SameCode s (s.clearStorage H address) := by
  have read := get (H := H) { s with storageTries := s.storageTries.delete address } address
  unfold PersistentStateTrie.clearStorage
  generalize PersistentStateTrie.get H { s with storageTries := s.storageTries.delete address } address = found at read
  obtain ⟨account | account, s'⟩ := found <;> exact { read with }

theorem syncStorageRoots (addresses : List Hex) (s : PersistentStateTrie ρ τ) :
    SameCode s (addresses.foldl (syncStorageRoot H) s) := by
  induction addresses generalizing s with
  | nil => exact refl s
  | cons address addresses ih =>
    have first : SameCode s (s.syncStorageRoot H address) := by
      unfold syncStorageRoot
      split
      · split <;> exact ⟨rfl, rfl, rfl⟩
      · exact refl s
    exact first.trans (ih _)

theorem commit : SameCode s (s.commit H).2 := by
  have synced := syncStorageRoots (H := H) s.dirtyAddresses.keys { s with dirtyAddresses := .empty }
  unfold PersistentStateTrie.commit
  generalize s.dirtyAddresses.keys.foldl (syncStorageRoot H)
    { s with dirtyAddresses := .empty } = r at synced
  have popped : SameCode r (if r.trie.frames.isEmpty then r else r.popCheckpoints).recordRoot := by
    unfold recordRoot
    by_cases closed : r.trie.frames.isEmpty
    · rw [if_pos closed, if_pos closed]
      exact ⟨rfl, rfl, rfl⟩
    · rw [if_neg closed]
      split <;> exact ⟨rfl, rfl, rfl⟩
  exact ⟨popped.code.trans synced.code, popped.dryRunMode.trans synced.dryRunMode, popped.scratch.trans synced.scratch⟩

theorem step (op : StateOp ρ) : SameCode s (s.step H op) := by
  cases op with
  | get address => exact get s address
  | getStorageAt address slot => exact getStorageAt s address slot
  | putStorageAt address slot value => exact putStorageAt s address slot value
  | clearStorage address => exact clearStorage s address
  | commit => exact commit s
  | put address state | delete address | checkpoint | revert => exact ⟨rfl, rfl, rfl⟩

end SameCode

section

variable (s : PersistentStateTrie ρ τ)

theorem getCode_putCode (code : Bytes) (hash : Hex) :
    (s.putCode H code).2.getCode hash = if hash = H.keccak256 code then some code else s.getCode hash := by
  unfold putCode PersistentStateTrie.getCode
  cases mode : s.dryRunMode with
  | false =>
    simp only [Bool.false_eq_true, ↓reduceIte, Bool.false_and]
    rw [Function.update_apply]
  | true =>
    simp only [↓reduceIte, Bool.true_and, InsertionMap.has, InsertionMap.get?_set]
    split <;> simp_all

def codeAfter (H : Hashes ρ τ) (find : Hex → Option Bytes) : Action (requests ρ) → Hex → Option Bytes
  | .ask (.putCode _ code), hash => if hash = H.keccak256 code then some code else find hash
  | _, hash => find hash

theorem getCode_step (action : Action (requests ρ)) (hash : Hex) :
    ((manager H).step s action).getCode hash = codeAfter H s.getCode action hash := by
  have kept (op : StateOp ρ) : (s.step H op).getCode hash = s.getCode hash := (SameCode.step s op).getCode hash
  cases action with
  | checkpoint => exact kept .checkpoint
  | commit => exact kept .commit
  | revert => exact kept .revert
  | ask request =>
    cases request with
    | putCode address code =>
      have read := (SameCode.get (H := H) (s.putCode H code).2 address).getCode hash
      rw [getCode_putCode] at read
      exact read
    | putAccount address account =>
      cases account with
      | none => exact kept (.delete address)
      | some account => exact kept (.put address account)
    | getAccount address => exact kept (.get address)
    | getCode address => exact kept (.get address)
    | getStorage address slot => exact kept (.getStorageAt address slot)
    | putStorage address slot value => exact kept (.putStorageAt address slot value)
    | clearStorage address => exact kept (.clearStorage address)

def effectiveRoot (H : Hashes ρ τ) (root : ρ) : ρ := if root = H.zeroRoot then H.storage.hash ∅ else root

def Served (H : Hashes ρ τ) (s : PersistentStateTrie ρ τ) (address : Hex) : Prop :=
  (s.openedAt H address).1.root =
      effectiveRoot H ((s.get H address).1.getD (PersistentStateTrie.newAccount H)).storageRoot ∧
    H.storage.hash ((s.openedAt H address).1.contents H.storage (s.db.storage address)) = (s.openedAt H address).1.root

instance (address : Hex) : Decidable (Served H s address) :=
  inferInstanceAs (Decidable (_ ∧ _))

def Coded (H : Hashes ρ τ) (s : PersistentStateTrie ρ τ) (address : Hex) : Prop :=
  ∀ account ∈ (s.get H address).1, account.codeHash = zeroHash ∨ account.codeHash = H.keccak256 [] ∨
    (s.getCode account.codeHash).isSome = true

instance (address : Hex) : Decidable (Coded H s address) :=
  inferInstanceAs (Decidable (∀ account ∈ (s.get H address).1, _))

/-- Storage tries and code are those of the records where an action relies on it. -/
def InStep (H : Hashes ρ τ) (s : PersistentStateTrie ρ τ) : Action (requests ρ) → Prop
  | .ask (.getStorage address _) | .ask (.putStorage address _ _) => Served H s address
  | .ask (.getCode address) => Coded H s address
  | .commit => HoldsRecords.Synced s
  | _ => True

instance (action : Action (requests ρ)) : Decidable (InStep H s action) := by
  unfold InStep
  split <;> infer_instance

end

theorem served_slots (holds : HoldsRecords H s (c :: rest)) (holds' : HoldsRecords H t (c :: rest'))
    (served : Served H s a) (served' : Served H t a) :
    (s.openedAt H a).1.contents H.storage (s.db.storage a) = (t.openedAt H a).1.contents H.storage (t.db.storage a) := by
  apply H.storage.injective
  rw [served.2, served'.2, served.1, served'.1, holds.lookup, holds'.lookup]

theorem openedAt_db (s : PersistentStateTrie ρ τ) (address : Hex) : (s.openedAt H address).2.db.storage = s.db.storage := by
  unfold openedAt
  obtain ⟨tries, opened⟩ := HoldsRecords.getStorageTrie_tries (H := H) (s.get H address).2 address
    ((s.get H address).1.getD (newAccount H)).storageRoot
  rw [opened]
  unfold PersistentStateTrie.get
  split <;> rfl

theorem write_root {κ ν υ : Type} [DecidableEq κ] [DecidableEq ν] (hash : ContentHash κ ν υ) (trie : CheckpointTrie κ ν υ)
    (store : List (FiniteMap κ ν)) (slots : FiniteMap κ ν) :
    (write hash trie store slots).1.root = hash.hash slots := by
  unfold write
  split <;> rfl

theorem writeSlot_root {trie : CheckpointTrie Hex Bytes ρ} {nodes : List (FiniteMap Hex Bytes)}
    (named : H.storage.hash (trie.contents H.storage nodes) = trie.root) (slot : Hex) (value : Bytes) :
    (writeSlot H trie nodes slot value).1.root = H.storage.hash
      (if value = [] then (trie.contents H.storage nodes).erase slot
        else (trie.contents H.storage nodes).insert slot value) := by
  unfold writeSlot
  split
  · unfold del
    split
    · exact write_root _ _ _ _
    · rename_i absent
      rw [erase_of_notMem absent, named]
  · exact write_root _ _ _ _

theorem served_writtenRoot (holds : HoldsRecords H s (c :: rest)) (holds' : HoldsRecords H t (c :: rest'))
    (served : Served H s a) (served' : Served H t a) (slot : Hex) (value : Bytes) :
    s.writtenRoot H a slot value = t.writtenRoot H a slot value := by
  unfold writtenRoot
  dsimp only
  rw [openedAt_db, openedAt_db, writeSlot_root served.2, writeSlot_root served'.2,
    served_slots holds holds' served served']

theorem getStorageAt_openedAt {account : AccountState ρ} (found : (s.get H a).1 = some account) (slot : Hex) :
    (s.getStorageAt H a slot).1 = ((s.openedAt H a).1.contents H.storage (s.db.storage a)).lookup slot := by
  have same : (s.get H a).2.db = s.db := by
    unfold PersistentStateTrie.get
    split <;> rfl
  rw [← same]
  unfold PersistentStateTrie.getStorageAt openedAt
  generalize s.get H a = read at found
  obtain ⟨entry, s'⟩ := read
  cases found
  rfl

def SharesCode (s t : PersistentStateTrie ρ τ) : Prop := ∀ hash code, s.getCode hash = some code → t.getCode hash = some code

theorem SharesCode.of_eq (same : s.getCode = t.getCode) : SharesCode s t := by
  intro hash code found
  rw [← same]
  exact found

theorem SharesCode.step (shares : SharesCode s t) (action : Action (requests ρ)) :
    SharesCode ((manager H).step s action) ((manager H).step t action) := by
  intro hash code found
  rw [getCode_step] at found ⊢
  unfold codeAfter at found ⊢
  split at found
  · split at found
    · rename_i written
      rw [if_pos written]
      exact found
    · rename_i other
      rw [if_neg other]
      exact shares hash code found
  · exact shares hash code found

theorem codeOf_shared {account : Option (AccountState ρ)} (shares : SharesCode s t)
    (coded : ∀ record ∈ account, record.codeHash = zeroHash ∨ record.codeHash = H.keccak256 [] ∨
      (s.getCode record.codeHash).isSome = true) : codeOf H s account = codeOf H t account := by
  cases account with
  | none => rfl
  | some record =>
    unfold codeOf
    dsimp only
    rcases coded record rfl with zero | empty | stored
    · rw [if_pos (.inl zero), if_pos (.inl zero)]
    · rw [if_pos (.inr empty), if_pos (.inr empty)]
    · obtain ⟨code, found⟩ := Option.isSome_iff_exists.mp stored
      rw [found, shares _ _ found]

/-- Two state tries with the same records on their inner levels, and the code of the first in the second. -/
def Twins (H : Hashes ρ τ) (below below' : List (Records ρ)) (depth : Nat) (s t : PersistentStateTrie ρ τ) : Prop :=
  ∃ inner, inner.length = depth + 1 ∧ HoldsRecords H s (inner ++ below) ∧ HoldsRecords H t (inner ++ below') ∧
    SharesCode s t

theorem twins_answer (holds : HoldsRecords H s (c :: rest)) (holds' : HoldsRecords H t (c :: rest'))
    (code : SharesCode s t) (request : Request ρ) (here : InStep H s (.ask request))
    (there : InStep H t (.ask request)) : answer H request s = answer H request t := by
  cases request with
  | getAccount address => exact (answer_getAccount holds address).trans (answer_getAccount holds' address).symm
  | getCode address =>
    change codeOf H s (s.get H address).1 = codeOf H t (t.get H address).1
    rw [show (t.get H address).1 = (s.get H address).1 from (holds'.lookup address).trans (holds.lookup address).symm]
    exact codeOf_shared code here
  | getStorage address slot =>
    change (s.getStorageAt H address slot).1.getD [] = (t.getStorageAt H address slot).1.getD []
    cases record : c.lookup address with
    | none =>
      have absent := (holds.lookup address).trans record
      have absent' := (holds'.lookup address).trans record
      unfold PersistentStateTrie.getStorageAt
      generalize s.get H address = read at absent
      generalize t.get H address = read' at absent'
      obtain ⟨entry, s'⟩ := read
      obtain ⟨entry', t'⟩ := read'
      cases absent
      cases absent'
      rfl
    | some account =>
      rw [getStorageAt_openedAt ((holds.lookup address).trans record),
        getStorageAt_openedAt ((holds'.lookup address).trans record), served_slots holds holds' here there]
  | putAccount | putCode | putStorage | clearStorage => rfl

theorem twins_ask (holds : HoldsRecords H s (c :: rest)) (holds' : HoldsRecords H t (c :: rest'))
    (request : Request ρ) (here : InStep H s (.ask request)) (there : InStep H t (.ask request)) :
    ∃ c', HoldsRecords H ((manager H).step s (.ask request)) (c' :: rest) ∧
      HoldsRecords H ((manager H).step t (.ask request)) (c' :: rest') := by
  have general (other : ∀ address slot value, request ≠ .putStorage address slot value) :
      ∃ c', HoldsRecords H ((manager H).step s (.ask request)) (c' :: rest) ∧
        HoldsRecords H ((manager H).step t (.ask request)) (c' :: rest') := by
    obtain ⟨c1, asked, wrote⟩ := holds_ask holds request
    obtain ⟨c2, asked', wrote'⟩ := holds_ask holds' request
    rw [← wrote.unique wrote' other] at asked'
    exact ⟨c1, asked, asked'⟩
  cases request with
  | putStorage address slot value =>
    refine ⟨_, holds.putStorageAt address slot value, ?_⟩
    rw [served_writtenRoot holds holds' here there]
    exact holds'.putStorageAt address slot value
  | getAccount | getCode | getStorage | putAccount | putCode | clearStorage => exact general nofun

theorem twins_step {below below' : List (Records ρ)} (depth : Nat) (s t : PersistentStateTrie ρ τ)
    (action : Action (requests ρ)) (twins : Twins H below below' depth s t) (here : InStep H s action)
    (there : InStep H t action) : Program.Step (manager H) (manager H) (Twins H below below') depth s t action := by
  obtain ⟨inner, deep, holds, holds', code⟩ := twins
  obtain ⟨c, inner, rfl⟩ := List.exists_cons_of_length_pos (show 0 < inner.length by omega)
  have codes : SharesCode ((manager H).step s action) ((manager H).step t action) := code.step action
  cases action with
  | ask request =>
    obtain ⟨c', asked, asked'⟩ := twins_ask holds holds' request here there
    exact ⟨twins_answer holds holds' code request here there, c' :: inner, by simpa using deep, asked, asked', codes⟩
  | checkpoint =>
    exact ⟨c :: c :: inner, by simpa using deep, holds.checkpoint, holds'.checkpoint, codes⟩
  | commit =>
    rintro outer rfl
    obtain ⟨d, inner, rfl⟩ := List.exists_cons_of_length_pos (show 0 < inner.length by simp at deep; omega)
    exact ⟨c :: inner, by simpa using deep, HoldsRecords.commit_synced (d := d) holds here,
      HoldsRecords.commit_synced (d := d) holds' there, codes⟩
  | revert =>
    rintro outer rfl
    obtain ⟨d, inner, rfl⟩ := List.exists_cons_of_length_pos (show 0 < inner.length by simp at deep; omega)
    exact ⟨d :: inner, by simpa using deep, HoldsRecords.revert (c := c) holds, HoldsRecords.revert (c := c) holds', codes⟩

/-- The run finds records, storage and code in step, and leaves them so. -/
structure RunsInStep (H : Hashes ρ τ) (program : Run ρ α) (s : PersistentStateTrie ρ τ) : Prop where
  along : ∀ visit ∈ program.trace (manager H) s, InStep H visit.1 visit.2
  settled : HoldsRecords.Synced (program.run (manager H) s).2

instance (program : Run ρ α) (s : PersistentStateTrie ρ τ) : Decidable (RunsInStep H program s) :=
  decidable_of_iff ((∀ visit ∈ program.trace (manager H) s, InStep H visit.1 visit.2) ∧
    HoldsRecords.Synced (program.run (manager H) s).2) ⟨fun h => ⟨h.1, h.2⟩, fun h => ⟨h.along, h.settled⟩⟩

/-- A program that finds records, storage and code in step on two tries with the same records has the same
    result on both, and leaves the same records. -/
theorem twins_run {below below' : List (Records ρ)} (program : Program (requests ρ) α 0)
    (twins : Twins H below below' 0 s t)
    (here : ∀ visit ∈ program.trace (manager H) s, InStep H visit.1 visit.2)
    (there : ∀ visit ∈ program.trace (manager H) t, InStep H visit.1 visit.2) :
    (program.run (manager H) s).1 = (program.run (manager H) t).1 ∧
      Twins H below below' 0 (program.run (manager H) s).2 (program.run (manager H) t).2 :=
  Program.run_related twins_step program twins here there

end Palimesh.Vm
