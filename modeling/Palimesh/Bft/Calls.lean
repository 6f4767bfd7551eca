import Palimesh.Bft.Coordinator

namespace Palimesh.Bft

open Collections

/-- Where an asynchronous call of the coordinator can be suspended, with its live local variables. -/
inductive Frame
  | startRoundFloor (block : ChainBlock) (lastFinalized : Int)
  | startRoundRoot (block : ChainBlock) (config : BftRoundConfig)
  | startRoundBroadcast (block : ChainBlock)
  | startRoundLoop (thisRound : Option Nat) (queue : List BftMessage)
  | commitBroadcast
  | divergenceProbe
  | onFinalized
  | deferredFloor (block : ChainBlock) (lastFinalized : Int)
  | deferredStartRound
  | replayFloor (lastFinalized : Int)
  | replay (queue : List BftMessage)
deriving DecidableEq

/-- How a synchronous stretch of code ends; `await` pushes frames, innermost first. -/
inductive Next
  | ret
  | throw
  | await (frames : List Frame)
deriving DecidableEq

/-- What an awaited call gives back: the chain tip or a failure of its query, the computed
    stateRoot, and whether a broadcast or callback succeeded. -/
structure Answer where
  chainHeight : Option Int := none
  stateRoot : Option Hex := none
  ok : Bool := true
deriving DecidableEq

def computeStalenessFloor (lastFinalized : Int) : Option Int → Int
  | some tip => if tip > lastFinalized then tip else lastFinalized
  | none => lastFinalized

def Next.inside (outer : List Frame) : Next → Next
  | .ret => .await outer
  | .throw => .throw
  | .await frames => .await (frames ++ outer)

namespace Coordinator

variable (c : Coordinator)

def roundId : Option Nat := c.activeRound.map ActiveRound.id

def startRound (block : ChainBlock) : Coordinator × Next :=
  if c.stopped then (c, .ret) else (c, .await [.startRoundFloor block c.lastFinalizedHeight])

def processDeferredBlock : Coordinator × Next :=
  match c.deferredBlock with
  | none => (c, .ret)
  | some block => ({ c with deferredBlock := none }, .await [.deferredFloor block c.lastFinalizedHeight])

def afterPrepare : Coordinator × Next :=
  match c.activeRound with
  | none => (c, .ret)
  | some active =>
    (if active.round.phase = .commit then { c with commitRetryTimer := true } else c,
      .await [.divergenceProbe])

variable (cfg : CoordinatorConfig)

def finalizeRound (round : BftRound) (block : ChainBlock) : Coordinator × Next :=
  (((c.decide cfg round block).pruneLedger round.height).emit (.onFinalized block), .await [.onFinalized])

variable (block : ChainBlock) (active : ActiveRound) (m : BftMessage)

def handlePrepareMessage : Coordinator × Next :=
  let (round, outgoing) := active.round.handlePrepare m.senderId m.blockHash m.stateRoot
  let c := { c with activeRound := some { active with round } }
  match round.phase, round.proposedBlock, outgoing with
  | .finalized, some block, _ => c.finalizeRound cfg round block
  | _, _, some out =>
    if c.refusesCommit out.height out.blockHash then c.afterPrepare
    else ((c.recordCommit out.height out.blockHash).broadcastMessage cfg out, .await [.commitBroadcast])
  | _, _, none => c.afterPrepare

def handleCommitMessage : Coordinator × Next :=
  let (round, finalized) := active.round.handleCommit m.senderId m.blockHash m.stateRoot
  let c := { c with activeRound := some { active with round } }
  match finalized, round.proposedBlock with
  | true, some block => c.finalizeRound cfg round block
  | _, _ => (c, .ret)

def withDetector (detector : EquivocationDetector) : Coordinator :=
  { c with equivocationDetector := detector }

def handleVote : Coordinator × Next :=
  if !accepts cfg m then (c, .ret)
  else
    let (detector, evidence) :=
      c.equivocationDetector.recordVote m.senderId m.height m.type m.blockHash m.signature
    if evidence.isSome then
      ({ c.withDetector detector with equivocationsTotal := c.equivocationsTotal + 1 }, .ret)
    else match m.type with
    | .prepare => (c.withDetector detector).handlePrepareMessage cfg active m
    | .commit => (c.withDetector detector).handleCommitMessage cfg active m
    | .propose => (c.withDetector detector, .ret)

def probeIfPrepare : Coordinator × Next :=
  (c, if m.type = .prepare then .await [.divergenceProbe] else .ret)

def handleMessage : Coordinator × Next :=
  match c.activeRound with
  | none => if c.pendingMessages.length < 50 then (c.buffer m).probeIfPrepare m else (c, .ret)
  | some active =>
    let height := active.round.height
    if m.height ≠ height then
      if m.height > height ∧ m.height ≤ height + 10 ∧ c.pendingMessages.length < 50 ∧
          !c.isDuplicate m then
        (c.buffer m).probeIfPrepare m
      else (c, .ret)
    else if m.type = .propose then (c, .ret)
    else c.handleVote cfg active m

def startRoundAfterFloor (floor : Int) : Coordinator × Next :=
  if block.number ≤ floor then (c, .ret)
  else
    let c := c.clearTerminal
    if c.hasProgress block then ({ c with deferredBlock := some block }, .ret)
    else if c.refusesPrepare block then (c, .ret)
    else ({ c.clearRound with deferredBlock := none },
      .await [.startRoundRoot block (c.roundConfig cfg)])

def adopt (round : BftRound) : Coordinator :=
  { c with activeRound := some ⟨c.roundsCreated, round⟩, roundsCreated := c.roundsCreated + 1 }

def startRoundEnd (thisRound : Option Nat) : Coordinator × Next :=
  match c.activeRound with
  | some active =>
    if some active.id = thisRound ∧ active.round.phase = .commit then
      ({ c with commitRetryTimer := true }, .ret)
    else (c, .ret)
  | none => (c, .ret)

def startRoundLoop (c : Coordinator) (cfg : CoordinatorConfig) (thisRound : Option Nat) :
    List BftMessage → Coordinator × Next
  | [] => c.startRoundEnd thisRound
  | m :: rest =>
    if c.roundId = thisRound then
      let (c, next) := c.handleMessage cfg m
      (c, next.inside [.startRoundLoop thisRound rest])
    else c.startRoundEnd thisRound

def startRoundDrain (voted : Bool) : Coordinator × Next :=
  let buffered := c.pendingMessages.filter fun m => m.height = block.number
  let drained := { c with
    prepareRetryTimer := c.prepareRetryTimer || voted
    pendingMessages := c.pendingMessages.filter fun m => m.height > block.number }
  drained.startRoundLoop cfg c.roundId
    ((buffered.filter fun m => m.type ≠ .commit) ++ buffered.filter fun m => m.type = .commit)

def startRoundAfterRoot (config : BftRoundConfig) (localStateRoot : Option Hex)
    : Coordinator × Next :=
  let (round, outgoing) := (BftRound.new block.number config).handlePropose block block.proposer localStateRoot
  match outgoing with
  | some m =>
    (((c.adopt round).recordPrepare block).broadcastMessage cfg m, .await [.startRoundBroadcast block])
  | none => (c.adopt round).startRoundDrain cfg block false

def handleReceivedBlock : Coordinator × Next :=
  if toLowerCase block.proposer = toLowerCase cfg.localId then (c, .ret)
  else match c.clearTerminal.activeRound with
  | none => c.clearTerminal.startRound block
  | some active =>
    let round := active.round
    let hasVotes := 1 < round.prepareVotes.size || 0 < round.commitVotes.size
    if block.number ≤ round.height then (c, .ret)
    else if (round.phase = .commit ∨ (round.phase = .prepare ∧ hasVotes)) ∧ !c.isSupersededReentry block then
      ({ c with deferredBlock := some block }, .ret)
    else c.clearRound.startRound block

def unfinalizedVotes (floor : Int) : List BftMessage :=
  ((c.localCommittedAt.entries.filter fun entry => floor < entry.1).map fun entry =>
      plainVote cfg .commit entry.1 entry.2) ++
    (c.localPreparedAt.entries.filter fun entry =>
      floor < entry.1 && !c.localCommittedAt.has entry.1).map fun entry =>
        plainVote cfg .prepare entry.1 entry.2

def replayVotes : List BftMessage → Coordinator × Next
  | [] => (c, .ret)
  | m :: rest => (c.broadcastMessage cfg m, .await [.replay rest])

def resume (frame : Frame) (answer : Answer) : Coordinator × Next :=
  match frame with
  | .startRoundFloor block lastFinalized =>
    c.startRoundAfterFloor cfg block (computeStalenessFloor lastFinalized answer.chainHeight)
  | .startRoundRoot block config => c.startRoundAfterRoot cfg block config answer.stateRoot
  | .startRoundBroadcast block => if answer.ok then c.startRoundDrain cfg block true else (c, .throw)
  | .startRoundLoop thisRound queue => c.startRoundLoop cfg thisRound queue
  | .commitBroadcast => if answer.ok then c.afterPrepare else (c, .throw)
  | .divergenceProbe => (c, .ret)
  | .onFinalized => c.processDeferredBlock
  | .deferredFloor block lastFinalized =>
    if block.number ≤ computeStalenessFloor lastFinalized answer.chainHeight then (c, .ret)
    else
      let (c, next) := c.startRound block
      (c, next.inside [.deferredStartRound])
  | .deferredStartRound => (c, .ret)
  | .replayFloor lastFinalized =>
    c.replayVotes cfg (c.unfinalizedVotes cfg (computeStalenessFloor lastFinalized answer.chainHeight))
  | .replay queue => c.replayVotes cfg queue

end Coordinator

end Palimesh.Bft
