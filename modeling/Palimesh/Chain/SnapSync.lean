import Palimesh.Chain.BlockImport
import Palimesh.Chain.StateSnapshot

namespace Palimesh.Chain

open Collections State

inductive SnapAnswer
  | rejected
  | fulfilled (snap : Option StateSnapshot)

structure SnapPeer where
  url : String
  answer : SnapAnswer

structure SnapVote where
  count : Nat
  stateRoot : Hex
  validatorsHash : Hex
deriving DecidableEq

def validatorJson (host : Host) (v : StateSnapshotValidator) : String :=
  "\x7b\"active\":" ++ (if v.active then "true" else "false") ++ ",\"address\":" ++ host.jsonString v.address ++
    ",\"id\":" ++ host.jsonString v.id ++ ",\"stake\":" ++ host.jsonString v.stake ++ "\x7d"

def hashValidators (host : Host) (validators : Option (List StateSnapshotValidator)) : Hex :=
  match validators with
  | none | some [] => "0x"
  | some validators =>
    let sorted := validators.insertionSort fun a b => ¬ b.id < a.id
    host.keccak256Hex ("[" ++ String.intercalate "," (sorted.map (validatorJson host)) ++ "]")

def usable (host : Host) (tipHeight : Int) (snap : StateSnapshot) : Bool :=
  (host.bigInt snap.blockHeight).any fun snapHeight => tipHeight ≤ snapHeight

def snapshotCache (peers : List SnapPeer) : InsertionMap String (Option StateSnapshot) :=
  peers.foldl (fun cache peer => match peer.answer with
    | .rejected => cache
    | .fulfilled snap => cache.set peer.url snap) .empty

def cachedAnswers (peers : List SnapPeer) : List (Option StateSnapshot) :=
  peers.map fun peer => ((snapshotCache peers).get? peer.url).join

def addVote (host : Host) (votes : InsertionMap String SnapVote) (snap : StateSnapshot) :
    InsertionMap String SnapVote :=
  let vHash := hashValidators host snap.validators
  let voteKey := snap.blockHash ++ "|" ++ snap.stateRoot ++ "|" ++ vHash
  votes.set voteKey ⟨((votes.get? voteKey).map SnapVote.count).getD 0 + 1, snap.stateRoot, vHash⟩

def peerStateRoots (host : Host) (tipHeight : Int) (peers : List SnapPeer) : InsertionMap String SnapVote :=
  peers.foldl (fun votes peer => match peer.answer with
    | .fulfilled (some snap) => if usable host tipHeight snap then addVote host votes snap else votes
    | .fulfilled none | .rejected => votes) .empty

def mostVoted (votes : List SnapVote) : Option SnapVote :=
  votes.foldl (fun best vote => match best with
    | none => if 0 < vote.count then some vote else none
    | some leading => if leading.count < vote.count then some vote else some leading) none

/-- One agreed answer, or else a strict majority of those that answered. -/
def trustedVote (votes : List SnapVote) : Option SnapVote :=
  match votes with
  | [] => none
  | [vote] => some vote
  | votes => (mostVoted votes).filter fun vote => (votes.map SnapVote.count).sum < vote.count * 2

section Sync

variable {ρ τ : Type} [DecidableEq ρ] [DecidableEq τ] (p : Platform ρ τ)

/-- Whether the import loop tries this snapshot: the block hash it was voted with is not compared. -/
def matchesVote (tipHeight : Int) (trusted : SnapVote) (snap : StateSnapshot) : Bool :=
  usable p.host tipHeight snap && snap.stateRoot == trusted.stateRoot &&
    hashValidators p.host snap.validators == trusted.validatorsHash

def importFirst (tipHeight : Int) (trusted : SnapVote) :
    List (Option StateSnapshot) → PersistentStateTrie ρ τ →
      Option (StateSnapshot × ImportResult) × PersistentStateTrie ρ τ
  | [], s => (none, s)
  | none :: rest, s => importFirst tipHeight trusted rest s
  | some snap :: rest, s =>
    if matchesVote p tipHeight trusted snap then
      match importStateSnapshot p s snap trusted.stateRoot with
      | (.ok result, s) => (some (snap, result), s)
      | (.error _, s) => importFirst tipHeight trusted rest s
    else importFirst tipHeight trusted rest s

namespace Engine

/-- `initGenesis` takes every restored validator for active. -/
def restoreGovernance (e : Engine ρ τ) (validators : Option (List ValidatorInfo)) : Engine ρ τ :=
  match validators with
  | none => e
  | some validators =>
    { e with governance := e.governance.map fun _ => validators.map fun v => { v with active := true } }

structure SnapSyncResult (ρ τ : Type) where
  synced : Bool
  imported : Option StateSnapshot
  engine : Engine ρ τ

def trustedRoot (host : Host) (window : List ChainBlock) (peers : List SnapPeer) : Option (Int × SnapVote) :=
  match window.getLast? with
  | none => none
  | some tip => ((trustedVote ((peerStateRoots host tip.number peers).entries.map Prod.snd)).filter
      fun vote => vote.stateRoot != "").map fun vote => (tip.number, vote)

def trySnapSync (e : Engine ρ τ) (window : List ChainBlock) (peers : List SnapPeer) : SnapSyncResult ρ τ :=
  match trustedRoot p.host window peers with
  | none => ⟨false, none, e⟩
  | some (tipHeight, trusted) =>
    match importFirst p tipHeight trusted (cachedAnswers peers) e.stateTrie with
    | (none, s) => ⟨false, none, { e with stateTrie := s }⟩
    | (some (snap, result), s) =>
      let imported := { e with stateTrie := s }.restoreGovernance result.validators
      let blocks := imported.importSnapSyncBlocks p.host window
      ⟨blocks.1, some snap, blocks.2⟩

end Engine

end Sync

end Palimesh.Chain
