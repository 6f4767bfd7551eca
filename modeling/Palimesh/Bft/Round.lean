import Palimesh.Bft.Quorum

namespace Palimesh.Bft

open Collections

inductive BftPhase
  | propose | prepare | commit | finalized | failed
deriving DecidableEq, Repr

inductive MessageType
  | propose | prepare | commit
deriving DecidableEq, Repr

structure BftMessage where
  type : MessageType
  height : Int
  blockHash : Hex
  senderId : String
  signature : Hex
  stateRoot : Option Hex := none
deriving DecidableEq, Repr

structure BftRoundConfig where
  validators : List Validator
  localId : String
  relaxedQuorum : Bool
deriving DecidableEq, Repr

structure BftRound where
  config : BftRoundConfig
  height : Int
  phase : BftPhase
  proposedBlock : Option ChainBlock
  prepareVotes : Votes
  commitVotes : Votes
deriving DecidableEq

namespace BftRound

def new (height : Int) (config : BftRoundConfig) : BftRound :=
  ⟨config, height, .propose, none, .empty, .empty⟩

variable (r : BftRound)

def localKey : String := toLowerCase r.config.localId

def isValidator : Bool := isKnownValidator r.config.validators r.config.localId

def terminal : Bool := r.phase = .finalized || r.phase = .failed

def ownStateRoot : Option Hex := (r.prepareVotes.get? r.localKey).bind BftVote.stateRoot

def vote (type : MessageType) (blockHash : Hex) (stateRoot : Option Hex) : BftMessage :=
  { type, height := r.height, blockHash, senderId := r.config.localId, signature := "", stateRoot }

def ownGroupQuorum (votes : Votes) : Bool :=
  hasQuorum (pickWinningVoteGroup votes r.localKey).ids r.config.validators r.config.relaxedQuorum

def recordPrepare (id : String) (vote : BftVote) : BftRound :=
  { r with prepareVotes := r.prepareVotes.set id vote }

def recordCommit (id : String) (vote : BftVote) : BftRound :=
  { r with commitVotes := r.commitVotes.set id vote }

def enter (phase : BftPhase) : BftRound := { r with phase }

/-- The message is the prepare to broadcast; the source returns it as a list of at most one. -/
def handlePropose (block : ChainBlock) (senderId : String) (localStateRoot : Option Hex)
    : BftRound × Option BftMessage :=
  if r.phase ≠ .propose then (r, none)
  else if block.number ≠ r.height then (r, none)
  else if !isKnownValidator r.config.validators senderId then (r, none)
  else if toLowerCase block.proposer ≠ toLowerCase senderId then (r, none)
  else
    let proposed := { r with proposedBlock := some block, phase := .prepare }
    if r.isValidator then
      (proposed.recordPrepare r.localKey ⟨block.hash, localStateRoot⟩,
        some (r.vote .prepare block.hash localStateRoot))
    else (proposed, none)

def evaluatePrepares (blockHash : Hex) : BftRound × Option BftMessage :=
  if r.ownGroupQuorum r.prepareVotes then
    if r.isValidator then
      let committed := (r.recordCommit r.localKey ⟨blockHash, r.ownStateRoot⟩).enter .commit
      -- commits that arrived during the prepare phase may already be enough
      if committed.ownGroupQuorum committed.commitVotes then (committed.enter .finalized, none)
      else (committed, some (r.vote .commit blockHash r.ownStateRoot))
    else (r.enter .commit, none)
  else (r, none)

def handlePrepare (senderId : String) (blockHash : Hex) (stateRoot : Option Hex) : BftRound × Option BftMessage :=
  if r.phase ≠ .prepare then (r, none)
  else match r.proposedBlock with
  | none => (r, none)
  | some block =>
    if !isKnownValidator r.config.validators senderId then (r, none)
    else if blockHash ≠ block.hash then (r, none)
    else if r.prepareVotes.has (toLowerCase senderId) then (r, none)
    else (r.recordPrepare (toLowerCase senderId) ⟨blockHash, stateRoot⟩).evaluatePrepares blockHash

def handleCommit (senderId : String) (blockHash : Hex) (stateRoot : Option Hex) : BftRound × Bool :=
  if r.phase ≠ .commit ∧ r.phase ≠ .prepare then (r, false)
  else if !isKnownValidator r.config.validators senderId then (r, false)
  else match r.proposedBlock with
  | none => (r, false)
  | some block =>
    if blockHash ≠ block.hash then (r, false)
    else if r.commitVotes.has (toLowerCase senderId) then (r, false)
    else
      let voted := r.recordCommit (toLowerCase senderId) ⟨blockHash, stateRoot⟩
      if r.phase = .commit && voted.ownGroupQuorum voted.commitVotes then (voted.enter .finalized, true)
      else (voted, false)

def handleMessage (msg : BftMessage) : BftRound × Option BftMessage × Bool :=
  match msg.type with
  | .propose =>
    match r.proposedBlock with
    | none => (r, none, false)
    | some block =>
      let (r, out) := r.handlePropose block msg.senderId none
      (r, out, false)
  | .prepare =>
    let (r, out) := r.handlePrepare msg.senderId msg.blockHash msg.stateRoot
    (r, out, false)
  | .commit =>
    let (r, finalized) := r.handleCommit msg.senderId msg.blockHash msg.stateRoot
    (r, none, finalized)

end BftRound

end Palimesh.Bft
