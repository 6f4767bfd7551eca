import Palimesh.State.AccountLevels
import Palimesh.Vm.EvmChain

set_option linter.unusedSectionVars false

namespace Palimesh.Vm

open Collections State Protocol Chain PersistentStateManager

variable {ρ τ α : Type} [DecidableEq ρ] [DecidableEq τ] {H : Hashes ρ τ}

def Wrote (H : Hashes ρ τ) (c c' : Records ρ) : Request ρ → Prop
  | .getAccount _ | .getCode _ | .getStorage _ _ => c' = c
  | .putAccount address (some account) => c' = c.insert address account
  | .putAccount address none => c' = c.erase address
  | .putCode address code =>
    c' = c.insert address { (c.lookup address).getD (PersistentStateTrie.newAccount H) with codeHash := H.keccak256 code }
  | .putStorage address _ _ => ∃ root,
    c' = c.insert address { (c.lookup address).getD (PersistentStateTrie.newAccount H) with storageRoot := root }
  | .clearStorage address => c' = match c.lookup address with
    | some account => c.insert address { account with storageRoot := H.zeroRoot }
    | none => c

theorem Wrote.unique {c c' c'' : Records ρ} {request : Request ρ} (one : Wrote H c c' request)
    (two : Wrote H c c'' request) (other : ∀ address slot value, request ≠ .putStorage address slot value) : c' = c'' := by
  cases request with
  | putStorage address slot value => exact absurd rfl (other address slot value)
  | putAccount address account => cases account <;> exact one.trans two.symm
  | getAccount | getCode | getStorage | putCode | clearStorage => exact one.trans two.symm

variable {s : PersistentStateTrie ρ τ} {c : Records ρ} {rest : List (Records ρ)}

theorem holds_get (holds : HoldsRecords H s (c :: rest)) (address : Hex) :
    HoldsRecords H (s.get H address).2 (c :: rest) := by
  obtain ⟨cache, read, kept⟩ := holds.get address
  rw [read]
  exact kept

theorem holds_ask (holds : HoldsRecords H s (c :: rest)) (request : Request ρ) :
    ∃ c', HoldsRecords H ((manager H).step s (.ask request)) (c' :: rest) ∧ Wrote H c c' request := by
  cases request with
  | getAccount address => exact ⟨c, holds_get holds address, rfl⟩
  | getCode address => exact ⟨c, holds_get holds address, rfl⟩
  | putAccount address account =>
    cases account with
    | none => exact ⟨_, holds.delete address, rfl⟩
    | some account => exact ⟨_, holds.put address account, rfl⟩
  | putCode address code =>
    have read := holds.lookup address
    refine ⟨_, ?_, rfl⟩
    rw [← read]
    exact (holds_get (holds.putCode code) address).put address _
  | getStorage address slot => exact ⟨c, holds.getStorageAt address slot, rfl⟩
  | putStorage address slot value =>
    exact ⟨_, holds.putStorageAt address slot value, _, rfl⟩
  | clearStorage address => exact ⟨_, holds.clearStorage address, rfl⟩

theorem answer_getAccount (holds : HoldsRecords H s (c :: rest)) (address : Hex) :
    (manager H).answer (.getAccount address) s = (c.lookup address).map (loaded H) := by
  change (s.get H address).1.map (loaded H) = _
  rw [holds.lookup]

theorem holds_run (program : Program (requests ρ) α 0) (holds : HoldsRecords H s (c :: rest)) :
    ∃ c', HoldsRecords H (program.run (manager H) s).2 (c' :: rest) := by
  rw [← programOps_state]
  exact holds.run_balanced (programOps_depth H program s)

def nonceIn (c : Records ρ) (address : Hex) : Nat := ((c.lookup address).map AccountState.nonce).getD 0

def balanceIn (c : Records ρ) (address : Hex) : Nat := ((c.lookup address).map AccountState.balance).getD 0

theorem nonceIn_same {c' : Records ρ} (same : SameAccounts c c') (address : Hex) :
    nonceIn c' address = nonceIn c address := by
  have nonces := congrArg (Option.map Account.nonce) (same address)
  rw [Option.map_map, Option.map_map] at nonces
  exact congrArg (Option.getD · 0) nonces

theorem nonceIn_insert (c : Records ρ) (address other : Hex) (account : AccountState ρ) :
    nonceIn (c.insert address account) other = if other = address then account.nonce else nonceIn c other := by
  unfold nonceIn
  split
  · rename_i here
    rw [here, Finmap.lookup_insert]
    rfl
  · rename_i elsewhere
    rw [Finmap.lookup_insert_of_ne _ elsewhere]

def RaisesNonces (c c' : Records ρ) : Prop := ∀ address, nonceIn c address ≤ nonceIn c' address

namespace RaisesNonces

variable {c' c'' : Records ρ} {address : Hex}

theorem refl (c : Records ρ) : RaisesNonces c c := fun _ => le_rfl

theorem trans (one : RaisesNonces c c') (two : RaisesNonces c' c'') : RaisesNonces c c'' :=
  fun address => (one address).trans (two address)

theorem insert {account : AccountState ρ} (raised : nonceIn c address ≤ account.nonce) :
    RaisesNonces c (c.insert address account) := by
  intro other
  rw [nonceIn_insert]
  split
  · rename_i here
    rw [here]
    exact raised
  · exact le_rfl

theorem of_same (same : SameAccounts c c') : RaisesNonces c c' := fun address => (nonceIn_same same address).ge

theorem getD {given : AccountState ρ} (c : Records ρ) (address : Hex) :
    nonceIn c address ≤ ((c.lookup address).getD given).nonce := by
  unfold nonceIn
  cases c.lookup address with
  | none => exact Nat.zero_le _
  | some account => exact le_rfl

theorem wrote {request : Request ρ} (wrote : Wrote H c c' request)
    (other : ∀ address account, request ≠ .putAccount address account) : RaisesNonces c c' := by
  cases request with
  | getAccount address | getCode address | getStorage address slot =>
    cases wrote
    exact refl c
  | putAccount address account => exact absurd rfl (other address account)
  | putCode address code =>
    cases wrote
    exact insert (getD c address)
  | putStorage address slot value =>
    obtain ⟨root, rfl⟩ := wrote
    exact insert (getD c address)
  | clearStorage address =>
    cases wrote
    cases found : c.lookup address with
    | none => exact refl c
    | some account =>
      refine insert ?_
      unfold nonceIn
      rw [found]
      exact le_rfl

end RaisesNonces

def KeepsNonces (H : Hashes ρ τ) (p : Program (requests ρ) α 0) : Prop :=
  ∀ s c rest, HoldsRecords H s (c :: rest) →
    ∃ c', HoldsRecords H (p.run (manager H) s).2 (c' :: rest) ∧ RaisesNonces c c'

namespace KeepsNonces

variable {β : Type}

theorem done (result : α) : KeepsNonces H (.done result) := fun _ c _ holds => ⟨c, holds, .refl c⟩

theorem ask {request : Request ρ} {next : request.Answer → Program (requests ρ) α 0}
    (other : ∀ address account, request ≠ .putAccount address account)
    (after : ∀ answer, KeepsNonces H (next answer)) : KeepsNonces H (.ask request next) := by
  intro s c rest holds
  obtain ⟨c', asked, wrote⟩ := holds_ask holds request
  obtain ⟨c'', ran, raises⟩ := after _ _ c' rest asked
  exact ⟨c'', ran, (RaisesNonces.wrote wrote other).trans raises⟩

theorem update {address : Hex} {written : Option (AccountState ρ) → AccountState ρ}
    {next : Option (AccountState ρ) → Program (requests ρ) α 0}
    (raised : ∀ existing, (existing.map AccountState.nonce).getD 0 ≤ (written existing).nonce)
    (after : ∀ existing, KeepsNonces H (next existing)) :
    KeepsNonces H (.ask (.getAccount address) fun existing =>
      .ask (.putAccount address (some (written existing))) fun _ => next existing) := by
  intro s c rest holds
  have read := answer_getAccount holds address
  obtain ⟨same, asked, rfl⟩ := holds_ask holds (.getAccount address)
  obtain ⟨c', put, rfl⟩ := holds_ask asked (.putAccount address (some (written ((manager H).answer (.getAccount address) s))))
  obtain ⟨c'', ran, raises⟩ := after ((manager H).answer (.getAccount address) s) _ _ rest put
  refine ⟨c'', ran, (RaisesNonces.insert ?_).trans raises⟩
  have above := raised ((manager H).answer (.getAccount address) s)
  rw [read, Option.map_map] at above
  rw [read]
  exact above

theorem andThen {ε : Type} {p : Program (requests ρ) (Except ε α) 0} {f : α → Program (requests ρ) (Except ε β) 0}
    (first : KeepsNonces H p) (second : ∀ result, KeepsNonces H (f result)) : KeepsNonces H (p.andThen f) := by
  intro s c rest holds
  obtain ⟨c', ran, raises⟩ := first s c rest holds
  rw [Program.run_andThen]
  generalize p.run (manager H) s = outcome at ran
  obtain ⟨result | result, s'⟩ := outcome
  · exact ⟨c', ran, raises⟩
  · obtain ⟨c'', done, raises'⟩ := second result s' c' rest ran
    exact ⟨c'', done, raises.trans raises'⟩

end KeepsNonces

namespace EvmChain

variable (lib : Library ρ)

theorem ensureBeaconRootsContract_nonces : KeepsNonces H (ensureBeaconRootsContract lib H) := by
  refine .ask (fun _ _ => nofun) fun (existingCode : Bytes) => ?_
  split
  · exact .done _
  · refine .update ?_ fun _ => ?_
    · intro existing
      cases existing with
      | none => exact Nat.zero_le _
      | some account => exact le_rfl
    · split
      · exact .done _
      · exact .ask (fun _ _ => nofun) fun _ => .done _

theorem applyParentBeaconBlockRoot_nonces (timestamp : Int) (root : Bytes) :
    KeepsNonces H (applyParentBeaconBlockRoot (ρ := ρ) timestamp root) := by
  refine .ask (fun _ _ => nofun) fun (code : Bytes) => ?_
  split
  · exact .done _
  · split
    · exact .done _
    · exact .ask (fun _ _ => nofun) fun _ => .ask (fun _ _ => nofun) fun _ => .done _

theorem applyBlockContext_nonces (chain : EvmChain) (context : Chain.ExecutionContext) :
    KeepsNonces H (applyBlockContext lib H chain context) := by
  unfold applyBlockContext prepareVmForExecution
  split
  · exact .done _
  · split
    · exact (ensureBeaconRootsContract_nonces lib).andThen fun _ => applyParentBeaconBlockRoot_nonces _ _
    · exact .done _

theorem creditBalance_nonces (address : Hex) (amount : Int) : KeepsNonces H (creditBalance H address amount) := by
  unfold creditBalance
  split
  · exact .done _
  · split
    · refine .update ?_ fun _ => .done _
      intro existing
      cases existing with
      | none => exact Nat.zero_le _
      | some account => exact le_rfl
    · exact .done _

end EvmChain

theorem sampleEngine_holds : HoldsRecords plainHashes sampleEngine.stateTrie [∅] :=
  ⟨⟨rfl, .inl rfl⟩, fun _ _ => nofun⟩

end Palimesh.Vm
