import Palimesh.State.StateTrie

namespace Palimesh.State

open Collections Function

/-- An account without its storage root, which is not data of its own. -/
structure Account where
  nonce : Nat
  balance : Nat
  codeHash : Hex
deriving DecidableEq

def AccountState.account {ρ : Type} (state : AccountState ρ) : Account := ⟨state.nonce, state.balance, state.codeHash⟩

/-- What the state is for: accounts, and for each account a finite map of slots. -/
structure World where
  accounts : Hex → Option Account
  storage : Hex → FiniteMap Hex Bytes

namespace World

def empty : World := ⟨fun _ => none, fun _ => ∅⟩

variable (w : World) (address : Hex)

def put (account : Account) : World :=
  { w with accounts := update w.accounts address (some account) }

def putStorageAt (address slot : Hex) (value : Bytes) : World where
  accounts := update w.accounts address (some ((w.accounts address).getD ⟨0, 0, zeroHash⟩))
  storage := update w.storage address
    (if value = [] then (w.storage address).erase slot else (w.storage address).insert slot value)

def delete : World where
  accounts := update w.accounts address none
  storage := update w.storage address ∅

def clearStorage : World :=
  { w with storage := update w.storage address ∅ }

end World

inductive StateOp (ρ : Type)
  | get (address : Hex)
  | put (address : Hex) (state : AccountState ρ)
  | delete (address : Hex)
  | getStorageAt (address slot : Hex)
  | putStorageAt (address slot : Hex) (value : Bytes)
  | clearStorage (address : Hex)
  | checkpoint
  | commit
  | revert

variable {ρ τ : Type}

def stepWorlds : List World → StateOp ρ → List World
  | w :: saved, .put address state => w.put address state.account :: saved
  | w :: saved, .delete address => w.delete address :: saved
  | w :: saved, .putStorageAt address slot value => w.putStorageAt address slot value :: saved
  | w :: saved, .clearStorage address => w.clearStorage address :: saved
  | w :: saved, .checkpoint => w :: w :: saved
  | w :: _ :: saved, .commit => w :: saved
  | _ :: saved :: outer, .revert => saved :: outer
  | worlds, _ => worlds

def PersistentStateTrie.step [DecidableEq ρ] [DecidableEq τ] (H : Hashes ρ τ) (s : PersistentStateTrie ρ τ) :
    StateOp ρ → PersistentStateTrie ρ τ
  | .get address => (s.get H address).2
  | .put address state => s.put H address state
  | .delete address => s.delete H address
  | .getStorageAt address slot => (s.getStorageAt H address slot).2
  | .putStorageAt address slot value => s.putStorageAt H address slot value
  | .clearStorage address => s.clearStorage H address
  | .checkpoint => s.checkpoint
  | .commit => (s.commit H).2
  | .revert => s.revert

def plainHashes : Hashes (Option (FiniteMap Hex Bytes))
    (FiniteMap Hex (AccountState (Option (FiniteMap Hex Bytes)))) where
  storage := ⟨some, Option.some_injective _⟩
  accounts := ⟨id, injective_id⟩
  zeroRoot := none
  zeroRoot_free := fun _ => Option.some_ne_none _
  keccak256 := fun code => code.foldl (fun text byte => text ++ toString byte.toNat ++ ".") "0x"

def emptyDatabase : Database (Option (FiniteMap Hex Bytes))
    (FiniteMap Hex (AccountState (Option (FiniteMap Hex Bytes)))) :=
  ⟨[], fun _ => [], none, fun _ => none⟩

inductive ManagerOp (ρ : Type)
  | state (op : StateOp ρ)
  | putCode (code : Bytes)
  | computeStateRoot

def PersistentStateTrie.managerStep [DecidableEq ρ] [DecidableEq τ] (H : Hashes ρ τ) (s : PersistentStateTrie ρ τ) :
    ManagerOp ρ → PersistentStateTrie ρ τ
  | .state op => s.step H op
  | .putCode code => (s.putCode H code).2
  | .computeStateRoot => (s.computeStateRoot H).2

def depthAfter : Nat → List (ManagerOp ρ) → Option Nat
  | depth, [] => some depth
  | depth, .state .checkpoint :: ops => depthAfter (depth + 1) ops
  | depth, .state .commit :: ops | depth, .state .revert :: ops =>
    if depth = 0 then none else depthAfter (depth - 1) ops
  | depth, _ :: ops => depthAfter depth ops

def Balanced (ops : List (ManagerOp ρ)) : Prop := depthAfter 0 ops = some 0

instance (ops : List (ManagerOp ρ)) : Decidable (Balanced ops) := inferInstanceAs (Decidable (_ = _))

end Palimesh.State
