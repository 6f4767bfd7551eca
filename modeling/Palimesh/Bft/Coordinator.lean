import Palimesh.Bft.Equivocation
import Palimesh.Bft.VoteLedger

namespace Palimesh.Bft

open Collections

def MessageType.text : MessageType → String
  | .propose => "propose"
  | .prepare => "prepare"
  | .commit => "commit"

def bftCanonicalMessage (type : MessageType) (height : Int) (blockHash : Hex) : String :=
  "bft:" ++ type.text ++ ":" ++ toString height ++ ":" ++ blockHash

structure CoordinatorConfig where
  localId : String
  relaxedQuorum : Bool
  signer : Option (String → Hex)
  verifier : Option (String → Hex → String → Bool)

def CoordinatorConfig.localKey (cfg : CoordinatorConfig) : String := toLowerCase cfg.localId

/-- What a coordinator does to the outside world, in program order; `roundFinalized` marks where a round is
    decided, with the stateRoot this node computed. -/
inductive Effect
  | broadcast (message : BftMessage)
  | roundFinalized (block : ChainBlock) (stateRoot : Option Hex)
  | ledgerWritten (snapshot : VoteLedgerSnapshot)
  | onFinalized (block : ChainBlock)
deriving DecidableEq

structure Linger where
  height : Int
  blockHash : Hex
  remaining : Nat
  lingerPrepare : Option BftMessage
  sameVote : ∀ m ∈ lingerPrepare, m.height = height ∧ m.blockHash = blockHash
deriving DecidableEq

/-- A round object; `id` is its identity, which `===` compares. -/
structure ActiveRound where
  id : Nat
  round : BftRound
deriving DecidableEq

structure Coordinator where
  validators : List Validator
  activeRound : Option ActiveRound
  roundsCreated : Nat
  commitRetryTimer : Bool
  prepareRetryTimer : Bool
  reenteredHeight : Option Int
  stopped : Bool
  linger : Option Linger
  pendingMessages : List BftMessage
  deferredBlock : Option ChainBlock
  lastFinalizedHeight : Int
  equivocationDetector : EquivocationDetector
  equivocationsTotal : Nat
  localPreparedAt : HashAt
  localCommittedAt : HashAt
  localPreparedBlock : InsertionMap Int ChainBlock
  voteLedger : BftVoteLedger
  effects : List Effect
deriving DecidableEq

namespace Coordinator

/-- The constructor: the vote maps are rehydrated from the ledger. `past` is what earlier
    processes of this validator did. -/
def new (validators : List Validator) (ledger : BftVoteLedger) (past : List Effect) : Coordinator where
  validators := validators
  activeRound := none
  roundsCreated := 0
  commitRetryTimer := false
  prepareRetryTimer := false
  reenteredHeight := none
  stopped := false
  linger := none
  pendingMessages := []
  deferredBlock := none
  lastFinalizedHeight := 0
  equivocationDetector := {}
  equivocationsTotal := 0
  localPreparedAt := ledger.prepared
  localCommittedAt := ledger.committed
  localPreparedBlock := .empty
  voteLedger := ledger
  effects := past

variable (c : Coordinator)

def emit (effect : Effect) : Coordinator := { c with effects := c.effects ++ [effect] }

def written (write : Option VoteLedgerSnapshot) : Coordinator :=
  { c with effects := c.effects ++ (write.map .ledgerWritten).toList }

variable (cfg : CoordinatorConfig) (m : BftMessage) (block : ChainBlock)

def signMessage : BftMessage :=
  match cfg.signer with
  | none => m
  | some sign => { m with signature := sign (bftCanonicalMessage m.type m.height m.blockHash) }

@[simp] theorem signMessage_height : (signMessage cfg m).height = m.height := by
  unfold signMessage
  split <;> rfl

@[simp] theorem signMessage_blockHash : (signMessage cfg m).blockHash = m.blockHash := by
  unfold signMessage
  split <;> rfl

def broadcastMessage : Coordinator :=
  c.emit (.broadcast (signMessage cfg m))

def plainVote (type : MessageType) (height : Int) (blockHash : Hex) : BftMessage :=
  { type, height, blockHash, senderId := cfg.localId, signature := "" }

def clearRound : Coordinator :=
  { c with activeRound := none, commitRetryTimer := false, prepareRetryTimer := false }

def clearTerminal : Coordinator :=
  match c.activeRound with
  | some active => if active.round.terminal then c.clearRound else c
  | none => c

def isSupersededReentry : Bool :=
  match c.activeRound with
  | some active => some active.round.height = c.reenteredHeight && block.number > active.round.height
  | none => false

def roundConfig : BftRoundConfig :=
  ⟨c.validators, cfg.localId, cfg.relaxedQuorum⟩

def hasProgress : Bool :=
  match c.activeRound with
  | some active =>
    (active.round.phase = .prepare || active.round.phase = .commit) &&
      (0 < active.round.prepareVotes.size || 0 < active.round.commitVotes.size) &&
      !c.isSupersededReentry block
  | none => false

def refusesPrepare : Bool :=
  match c.localPreparedAt.get? block.number with
  | some previous => previous ≠ block.hash
  | none => false

def recordPrepare : Coordinator :=
  let write := c.voteLedger.recordPrepared block.number block.hash
  { c with
    localPreparedAt := c.localPreparedAt.set block.number block.hash
    localPreparedBlock := c.localPreparedBlock.set block.number block
    voteLedger := write.1 }.written write.2

def recordCommit (height : Int) (blockHash : Hex) : Coordinator :=
  let write := c.voteLedger.recordCommitted height blockHash
  { c with
    localCommittedAt := c.localCommittedAt.set height blockHash
    voteLedger := write.1 }.written write.2

def refusesCommit (height : Int) (blockHash : Hex) : Bool :=
  match c.localCommittedAt.get? height with
  | some previous => previous ≠ blockHash
  | none => false

def pruneMaps (finalizedHeight : Int) : Coordinator :=
  { c with
    localPreparedAt := BftVoteLedger.above c.localPreparedAt finalizedHeight
    localCommittedAt := BftVoteLedger.above c.localCommittedAt finalizedHeight
    localPreparedBlock := c.localPreparedBlock.filterKeys fun height => finalizedHeight < height
    reenteredHeight := c.reenteredHeight.filter fun height => finalizedHeight < height }

def pruneLedger (finalizedHeight : Int) : Coordinator :=
  let write := c.voteLedger.prune finalizedHeight
  { c with voteLedger := write.1 }.written write.2

variable (round : BftRound) (height : Int) (m : BftMessage) (blockHash : Hex)

def lingerPrepare : Option BftMessage :=
  if c.localPreparedAt.get? height = some blockHash then
    some (signMessage cfg { plainVote cfg .prepare height blockHash with stateRoot := round.ownStateRoot })
  else none

theorem lingerPrepare_same : ∀ m ∈ c.lingerPrepare cfg round height blockHash,
      m.height = height ∧ m.blockHash = blockHash := by
  intro m captured
  unfold lingerPrepare at captured
  split at captured
  · rw [Option.mem_some] at captured
    subst captured
    simp [plainVote]
  · cases captured

def startLingerBroadcast : Coordinator :=
  let prepare := c.lingerPrepare cfg round height blockHash
  { c with linger := some ⟨height, blockHash, 6, prepare, c.lingerPrepare_same cfg round height blockHash⟩ }

def decide (block : ChainBlock) : Coordinator :=
  let decided := { c with lastFinalizedHeight := round.height }.emit
    (.roundFinalized block round.ownStateRoot)
  let cleared := (decided.startLingerBroadcast cfg round round.height block.hash).clearRound
  { cleared with
    equivocationDetector := cleared.equivocationDetector.clearEvidenceBefore (round.height + 1) }.pruneMaps
      round.height

/-- `reenterLocallyPreparedRound`, without the re-gossip of the block. -/
def reenterLocallyPreparedRound : Coordinator :=
  if c.stopped then c
  else if c.deferredBlock.any fun block => block.number > height then c
  else match c.localPreparedBlock.get? height with
  | none => c
  | some prepared => { c with deferredBlock := some prepared, reenteredHeight := some height }

def isDuplicate : Bool :=
  c.pendingMessages.any fun other =>
    other.senderId = m.senderId && other.type = m.type && other.height = m.height

def buffer : Coordinator :=
  if c.isDuplicate m then c else { c with pendingMessages := c.pendingMessages ++ [m] }

def accepts : Bool :=
  m.signature ≠ "" &&
    match cfg.verifier with
    | some verifyNodeSig =>
      verifyNodeSig (bftCanonicalMessage m.type m.height m.blockHash) m.signature m.senderId
    | none => cfg.signer.isNone

end Coordinator

end Palimesh.Bft
