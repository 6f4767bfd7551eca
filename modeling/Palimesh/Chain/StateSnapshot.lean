import Palimesh.Chain.Engine

namespace Palimesh.Chain

open Collections State

structure StateSnapshotAccount where
  address : String
  nonce : String
  balance : String
  storageRoot : Hex
  codeHash : Hex
  storage : List (Hex × Hex)
  code : Option Hex
deriving DecidableEq

structure StateSnapshotValidator where
  id : String
  address : String
  stake : String
  active : Bool
deriving DecidableEq

structure StateSnapshot where
  version : Int
  stateRoot : Hex
  blockHeight : String
  blockHash : Hex
  accounts : List StateSnapshotAccount
  validators : Option (List StateSnapshotValidator)
deriving DecidableEq

def maxSnapshotAccounts : Nat := 100000
def maxStoragePerAccount : Nat := 50000
def maxCodeHexLength : Nat := 49154

variable (host : Host) (text : String)

def hasHexPrefix : Bool :=
  match text.toList with
  | '0' :: 'x' :: _ => true
  | _ => false

def isValidHex : Bool :=
  match text.toList with
  | '0' :: 'x' :: digits => !digits.isEmpty && digits.all isHexChar
  | _ => false

def require (holds : Bool) (message : String) : Except String Unit := if holds then .ok () else .error message

def isNonNegative : Bool := (host.bigInt text).any fun value => 0 ≤ value

def validateSlot (address : String) (entry : Hex × Hex) : Except String Unit := do
  require (isValidHex entry.1) ("account " ++ address ++ " has invalid storage slot hex: " ++ entry.1)
  require (isValidHex entry.2) ("account " ++ address ++ " has invalid storage value hex: " ++ entry.2)
  require (entry.1.length ≤ 66)
    ("account " ++ address ++ " storage slot too large: " ++ toString entry.1.length ++ " chars")
  require (entry.2.length ≤ 66)
    ("account " ++ address ++ " storage value too large: " ++ toString entry.2.length ++ " chars")

def validateAccount (seenAddresses : List String) (acc : StateSnapshotAccount) : Except String Unit := do
  require (hasHexPrefix acc.address) "account has invalid address format"
  require (!seenAddresses.contains (toLowerCase acc.address))
    ("duplicate account address in snapshot: " ++ acc.address)
  require (isNonNegative host acc.nonce) ("account " ++ acc.address ++ " has invalid nonce: " ++ acc.nonce)
  require (isNonNegative host acc.balance) ("account " ++ acc.address ++ " has invalid balance: " ++ acc.balance)
  require (isValidHex acc.storageRoot) ("account " ++ acc.address ++ " has invalid storageRoot hex")
  require (isValidHex acc.codeHash) ("account " ++ acc.address ++ " has invalid codeHash hex")
  require (acc.code.all isValidHex) ("account " ++ acc.address ++ " has invalid code hex")
  require (acc.code.all fun code => code.length ≤ maxCodeHexLength)
    ("account " ++ acc.address ++ " code too large: " ++ toString ((acc.code.map String.length).getD 0) ++
      " chars (max " ++ toString maxCodeHexLength ++ ")")
  require (acc.storage.length ≤ maxStoragePerAccount)
    ("account " ++ acc.address ++ " has too many storage slots: " ++ toString acc.storage.length ++ " (max " ++
      toString maxStoragePerAccount ++ ")")
  acc.storage.forM (validateSlot acc.address)

def validateAccounts : List String → List StateSnapshotAccount → Except String Unit
  | _, [] => .ok ()
  | seenAddresses, acc :: rest => do
    validateAccount host seenAddresses acc
    validateAccounts (toLowerCase acc.address :: seenAddresses) rest

def validateValidator (v : StateSnapshotValidator) : Except String Unit := do
  require (0 < v.id.length && v.id.length ≤ 256) "validator has invalid id"
  require (hasHexPrefix v.address) ("validator " ++ v.id ++ " has invalid address format")
  require (isNonNegative host v.stake) ("validator " ++ v.id ++ " has invalid stake: " ++ v.stake)

def validateSnapshot (snapshot : StateSnapshot) : Except String Unit := do
  require (snapshot.version == 1) ("unsupported snapshot version: " ++ toString snapshot.version)
  require (snapshot.stateRoot != "") "snapshot missing stateRoot"
  require (snapshot.blockHeight != "") "snapshot missing blockHeight"
  require (hasHexPrefix snapshot.blockHash) "snapshot missing or invalid blockHash"
  require (snapshot.accounts.length ≤ maxSnapshotAccounts)
    ("snapshot too large: " ++ toString snapshot.accounts.length ++ " accounts (max " ++
      toString maxSnapshotAccounts ++ ")")
  validateAccounts host [] snapshot.accounts
  (snapshot.validators.getD []).forM (validateValidator host)

def bytePairs : List Char → List UInt8
  | high :: low :: rest => UInt8.ofNat (hexDigit high * 16 + hexDigit low) :: bytePairs rest
  | _ => []

def hexStrToBytes (hex : Hex) : Except String Bytes :=
  let clean := if hasHexPrefix hex then hex.toList.drop 2 else hex.toList
  if clean.length % 2 ≠ 0 then
    .error ("hexStrToBytes: odd-length hex string (" ++ toString clean.length ++ " chars)")
  else if !clean.all isHexChar then .error "hexStrToBytes: invalid hex characters"
  else .ok (bytePairs clean)

structure ImportRun (ρ : Type) where
  ops : List (ManagerOp ρ)
  error : Option String

namespace ImportRun

variable {ρ : Type}

def done : ImportRun ρ := ⟨[], none⟩

def step (op : ManagerOp ρ) (rest : ImportRun ρ) : ImportRun ρ := { rest with ops := op :: rest.ops }

def andThen (first rest : ImportRun ρ) : ImportRun ρ :=
  match first.error with
  | some _ => first
  | none => ⟨first.ops ++ rest.ops, rest.error⟩

end ImportRun

section Import

variable {ρ τ : Type} (p : Platform ρ τ)

/-- `putStorageAt` has opened the storage trie when it decodes the slot and the value. -/
def importSlots (address : Hex) : List (Hex × Hex) → ImportRun ρ
  | [] => .done
  | (slot, value) :: rest =>
    match p.host.hexToBytes slot, p.host.hexToBytes value with
    | .ok _, .ok bytes => (importSlots address rest).step (.state (.putStorageAt address slot bytes))
    | .error message, _ | _, .error message => ⟨[.state (.getStorageAt address slot)], some message⟩

def importedState (acc : StateSnapshotAccount) : AccountState ρ where
  nonce := ((p.host.bigInt acc.nonce).getD 0).toNat
  balance := ((p.host.bigInt acc.balance).getD 0).toNat
  storageRoot := if acc.storage.isEmpty then p.storageRootOf acc.storageRoot else p.H.zeroRoot
  codeHash := acc.codeHash

def importCode (acc : StateSnapshotAccount) : ImportRun ρ :=
  match truthy acc.code with
  | none => .done
  | some code =>
    match hexStrToBytes code with
    | .ok bytes => ⟨[.putCode bytes], none⟩
    | .error message => ⟨[], some message⟩

def importAccount (acc : StateSnapshotAccount) : ImportRun ρ :=
  (importCode acc).andThen ((importSlots p acc.address acc.storage).step
    (.state (.put acc.address (importedState p acc))))

def importAccounts (accounts : List StateSnapshotAccount) : ImportRun ρ :=
  accounts.foldr (fun acc rest => (importAccount p acc).andThen rest) .done

structure ImportResult where
  accountsImported : Nat
  codeImported : Nat
  validators : Option (List ValidatorInfo)

def importResult (snapshot : StateSnapshot) : ImportResult where
  accountsImported := snapshot.accounts.length
  codeImported := (snapshot.accounts.filter fun acc => (truthy acc.code).isSome).length
  validators := snapshot.validators.map (List.map fun v => ⟨v.id, v.address, (p.host.bigInt v.stake).getD 0, v.active⟩)

variable [DecidableEq ρ] [DecidableEq τ]

/-- The `catch` clause: revert what is still under the checkpoint, and pin the root from before. -/
def restoreRoot (originalRoot : Option τ) (s : PersistentStateTrie ρ τ) : PersistentStateTrie ρ τ :=
  match originalRoot with
  | some root => s.revert.setStateRoot root true
  | none => s.revert

def importStateSnapshot (s : PersistentStateTrie ρ τ) (snapshot : StateSnapshot) (expectedStateRoot : Hex) :
    Except String ImportResult × PersistentStateTrie ρ τ :=
  match validateSnapshot p.host snapshot with
  | .error message => (.error message, s)
  | .ok _ =>
    let run := importAccounts p snapshot.accounts
    let written := run.ops.foldl (PersistentStateTrie.managerStep p.H) s.checkpoint
    match run.error with
    | some message => (.error message, restoreRoot s.stateRoot written)
    | none =>
      let committed := written.commit p.H
      if expectedStateRoot ≠ "" ∧ p.rootHex committed.1 ≠ expectedStateRoot then
        (.error ("state root mismatch after import: expected " ++ expectedStateRoot ++ ", got " ++
          p.rootHex committed.1), restoreRoot s.stateRoot committed.2)
      -- The adapter of the node pins the verified root in the same critical section.
      else if expectedStateRoot ≠ "" then (.ok (importResult p snapshot), committed.2.setStateRoot committed.1 true)
      else (.ok (importResult p snapshot), committed.2)

end Import

end Palimesh.Chain
