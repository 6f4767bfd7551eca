import Palimesh.Bft.Calls

namespace Palimesh.Bft

open Collections

namespace Coordinator

variable (c : Coordinator)

/-- The round timer's callback. It may fire at any moment, also when an overlapping `startRound`
    has replaced the timer without clearing it. -/
def roundTimeout : Coordinator × Next :=
  match c.activeRound with
  | some active =>
    if active.round.terminal then (c, .ret)
    else (c.clearRound.reenterLocallyPreparedRound active.round.height).processDeferredBlock
  | none => (c, .ret)

def livenessWatchdog : Coordinator × Next :=
  match c.activeRound with
  | some active =>
    let reset := { c.clearRound with pendingMessages := [], deferredBlock := none }
    (reset.reenterLocallyPreparedRound active.round.height).processDeferredBlock
  | none => (c, .ret)

variable (cfg : CoordinatorConfig)

def commitRetryTick : Coordinator :=
  if !c.commitRetryTimer then c
  else match c.activeRound with
  | some active =>
    if active.round.phase ≠ .commit then { c with commitRetryTimer := false }
    else match (active.round.proposedBlock.map ChainBlock.hash).bind truthy with
    | some blockHash => c.broadcastMessage cfg (plainVote cfg .commit active.round.height blockHash)
    | none => c
  | none => { c with commitRetryTimer := false }

def prepareRetryTick : Coordinator :=
  if !c.prepareRetryTimer then c
  else match c.activeRound with
  | some active =>
    let round := active.round
    if round.phase ≠ .prepare ∧ round.phase ≠ .commit then { c with prepareRetryTimer := false }
    else match (round.proposedBlock.map ChainBlock.hash).bind truthy with
    | some blockHash =>
      if c.localPreparedAt.get? round.height ≠ some blockHash then c
      else
        let prepared := c.broadcastMessage cfg
          { plainVote cfg .prepare round.height blockHash with stateRoot := round.ownStateRoot }
        if round.phase = .prepare ∧ c.localCommittedAt.get? round.height = some blockHash then
          prepared.broadcastMessage cfg (plainVote cfg .commit round.height blockHash)
        else prepared
    | none => c
  | none => { c with prepareRetryTimer := false }

def lingerTick : Coordinator :=
  match c.linger with
  | none => c
  | some linger =>
    if linger.remaining = 0 then { c with linger := none }
    else
      let counted := { c with linger := some { linger with remaining := linger.remaining - 1 } }
      let prepared := match linger.lingerPrepare with
        | some m => counted.emit (.broadcast m)
        | none => counted
      prepared.broadcastMessage cfg (plainVote cfg .commit linger.height linger.blockHash)

def membershipChanged (old new : List Validator) : Bool :=
  (memberIds new).any (fun id => id ∉ memberIds old) || (memberIds old).any fun id => id ∉ memberIds new

def updateValidators (validators : List Validator) : Coordinator :=
  let updated := { c with validators }
  if !membershipChanged c.validators validators then updated
  else
    let write := c.voteLedger.clearAll
    { updated.clearRound with
      localPreparedAt := .empty
      localCommittedAt := .empty
      localPreparedBlock := .empty
      voteLedger := write.1
      reenteredHeight := none
      pendingMessages := []
      deferredBlock := none }.written write.2

def stop : Coordinator :=
  { c.clearRound with
    stopped := true, reenteredHeight := none, linger := none, pendingMessages := [], deferredBlock := none }

end Coordinator

inductive Event
  | startRound (block : ChainBlock)
  | handleReceivedBlock (block : ChainBlock)
  | handleMessage (message : BftMessage)
  | roundTimeout
  | livenessWatchdog
  | commitRetryTick
  | prepareRetryTick
  | lingerTick
  | updateValidators (validators : List Validator)
  | forceClearRound
  | stop
  | replayUnfinalizedVotes
  | resume (task : Nat) (answer : Answer)
deriving DecidableEq

structure Process where
  coordinator : Coordinator
  tasks : List (List Frame)
deriving DecidableEq

namespace Process

def unwind : List Frame → List Frame
  | [] => []
  | .deferredStartRound :: outer => outer
  | _ :: outer => unwind outer

def Continues (outer : List Frame) : Next → List Frame
  | .ret => outer
  | .throw => unwind outer
  | .await frames => frames ++ outer

def setTask (tasks : List (List Frame)) (task : Nat) (stack : List Frame) : List (List Frame) :=
  if stack = [] then tasks.eraseIdx task else tasks.set task stack

def call (p : Process) (result : Coordinator × Next) : Process :=
  match Continues [] result.2 with
  | [] => { p with coordinator := result.1 }
  | stack => ⟨result.1, p.tasks ++ [stack]⟩

def step (cfg : CoordinatorConfig) (p : Process) : Event → Process
  | .startRound block => p.call (p.coordinator.startRound block)
  | .handleReceivedBlock block => p.call (p.coordinator.handleReceivedBlock cfg block)
  | .handleMessage m => p.call (p.coordinator.handleMessage cfg m)
  | .roundTimeout => p.call p.coordinator.roundTimeout
  | .livenessWatchdog => p.call p.coordinator.livenessWatchdog
  | .commitRetryTick => { p with coordinator := p.coordinator.commitRetryTick cfg }
  | .prepareRetryTick => { p with coordinator := p.coordinator.prepareRetryTick cfg }
  | .lingerTick => { p with coordinator := p.coordinator.lingerTick cfg }
  | .updateValidators validators => { p with coordinator := p.coordinator.updateValidators validators }
  | .forceClearRound => { p with coordinator := p.coordinator.clearRound }
  | .stop => { p with coordinator := p.coordinator.stop }
  | .replayUnfinalizedVotes =>
    p.call (p.coordinator, .await [.replayFloor p.coordinator.lastFinalizedHeight])
  | .resume task answer =>
    match p.tasks[task]? with
    | some (frame :: outer) =>
      let (coordinator, next) := p.coordinator.resume cfg frame answer
      ⟨coordinator, setTask p.tasks task (Continues outer next)⟩
    | _ => p

def start (validators : List Validator) (ledger : BftVoteLedger) (past : List Effect) : Process :=
  ⟨.new validators ledger past, []⟩

end Process

end Palimesh.Bft
