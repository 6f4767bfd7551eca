import Palimesh.Chain.Engine
import Palimesh.Protocol.Interaction

set_option linter.unusedSectionVars false

namespace Palimesh.Vm

open Collections State Protocol Chain

/-- What the virtual machine asks of its state manager. -/
inductive Request (ρ : Type)
  | getAccount (address : Hex)
  | putAccount (address : Hex) (account : Option (AccountState ρ))
  | getCode (address : Hex)
  | putCode (address : Hex) (code : Bytes)
  | getStorage (address slot : Hex)
  | putStorage (address slot : Hex) (value : Bytes)
  | clearStorage (address : Hex)

def Request.Answer {ρ : Type} : Request ρ → Type
  | .getAccount _ => Option (AccountState ρ)
  | .getCode _ | .getStorage _ _ => Bytes
  | .putAccount _ _ | .putCode _ _ | .putStorage _ _ _ | .clearStorage _ => Unit

abbrev requests (ρ : Type) : Interface := ⟨Request ρ, Request.Answer⟩

/-- What a library function does with the state manager it is given, which may be anything it can do
    through the interface. -/
abbrev Run (ρ α : Type) := Program (requests ρ) (Except String α) 0

variable {ρ τ α : Type} [DecidableEq ρ] [DecidableEq τ] (H : Hashes ρ τ)

def accountData (nonce balance : Nat) : AccountState ρ := ⟨nonce, balance, H.storage.hash ∅, H.keccak256 []⟩

namespace PersistentStateManager

/-- The record as `getAccount` hands it out: all-zero hashes are those of an empty account. -/
def loaded (state : AccountState ρ) : AccountState ρ :=
  { state with
    storageRoot := if state.storageRoot = H.zeroRoot then H.storage.hash ∅ else state.storageRoot
    codeHash := if state.codeHash = zeroHash then H.keccak256 [] else state.codeHash }

variable (s : PersistentStateTrie ρ τ)

def codeOf : Option (AccountState ρ) → Bytes
  | none => []
  | some state =>
    if state.codeHash = zeroHash ∨ state.codeHash = H.keccak256 [] then [] else (s.getCode state.codeHash).getD []

def answer : (request : Request ρ) → PersistentStateTrie ρ τ → request.Answer
  | .getAccount address, s => (s.get H address).1.map (loaded H)
  | .getCode address, s => codeOf H s (s.get H address).1
  | .getStorage address slot, s => (s.getStorageAt H address slot).1.getD []
  | .putAccount _ _, _ | .putCode _ _, _ | .putStorage _ _ _, _ | .clearStorage _, _ => ()

def requestOps : Request ρ → List (ManagerOp ρ)
  | .getAccount address | .getCode address => [.state (.get address)]
  | .putAccount address (some account) => [.state (.put address account)]
  | .putAccount address none => [.state (.delete address)]
  | .putCode address code =>
    let account := (s.get H address).1.getD (PersistentStateTrie.newAccount H)
    [.putCode code, .state (.get address), .state (.put address { account with codeHash := H.keccak256 code })]
  | .getStorage address slot => [.state (.getStorageAt address slot)]
  | .putStorage address slot value => [.state (.putStorageAt address slot value)]
  | .clearStorage address => [.state (.clearStorage address)]

def actionOps : Action (requests ρ) → List (ManagerOp ρ)
  | .ask request => requestOps H s request
  | .checkpoint => [.state .checkpoint]
  | .commit => [.state .commit]
  | .revert => [.state .revert]

end PersistentStateManager

open PersistentStateManager

def manager : Handler (requests ρ) (PersistentStateTrie ρ τ) where
  answer := answer H
  step s action := (actionOps H s action).foldl (PersistentStateTrie.managerStep H) s

variable {depth : Nat} (p : Program (requests ρ) α depth) (s : PersistentStateTrie ρ τ)

def programOps : List (ManagerOp ρ) :=
  (p.trace (manager H) s).flatMap fun visit => actionOps H visit.1 visit.2

theorem programOps_state : (programOps H p s).foldl (PersistentStateTrie.managerStep H) s = (p.run (manager H) s).2 := by
  induction p generalizing s with
  | done result => rfl
  | ask request next ih =>
    unfold programOps
    rw [Program.trace, List.flatMap_cons, List.foldl_append]
    exact ih _ _
  | checkpoint next ih => exact ih _
  | commit next ih => exact ih _
  | revert next ih => exact ih _

theorem depthAfter_request (request : Request ρ) (depth : Nat) (ops : List (ManagerOp ρ)) :
    depthAfter depth (requestOps H s request ++ ops) = depthAfter depth ops := by
  cases request with
  | putAccount address account => cases account <;> rfl
  | _ => rfl

theorem programOps_depth : depthAfter depth (programOps H p s) = some 0 := by
  induction p generalizing s with
  | done result => rfl
  | ask request next ih =>
    unfold programOps
    exact (depthAfter_request H s request _ _).trans (ih _ _)
  | checkpoint next ih => exact ih _
  | commit next ih => exact ih _
  | revert next ih => exact ih _

def execution (p : Run ρ α) (s : PersistentStateTrie ρ τ) : Execution ρ α where
  ops := programOps H p s
  balanced := programOps_depth H p s
  result := (p.run (manager H) s).1

variable {H} in
theorem perform_execution {platform : Platform ρ τ} (hashes : platform.H = H) (p : Run ρ α)
    (s : PersistentStateTrie ρ τ) : Engine.perform platform s (execution H p s) =
      ((p.run (manager H) s).1.mapError .thrown, (p.run (manager H) s).2) := by
  subst hashes
  unfold Engine.perform execution
  rw [programOps_state]

end Palimesh.Vm
