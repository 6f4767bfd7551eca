import Palimesh.Bft.Process
import Palimesh.Bft.RoundInvariant

namespace Palimesh.Bft

open Collections Relation

variable (S : Setting) (c : Coordinator)

def Setting.floor : Int := max c.lastFinalizedHeight S.base

/-- Everything a vote depends on is unchanged; a linger may end or count down. -/
structure Coordinator.SameVotes (c c' : Coordinator) : Prop where
  activeRound : c'.activeRound = c.activeRound
  lastFinalizedHeight : c'.lastFinalizedHeight = c.lastFinalizedHeight
  localPreparedAt : c'.localPreparedAt = c.localPreparedAt
  localCommittedAt : c'.localCommittedAt = c.localCommittedAt
  voteLedger : c'.voteLedger = c.voteLedger
  effects : c'.effects = c.effects
  linger : ∀ l, c'.linger = some l →
    ∃ l₀, c.linger = some l₀ ∧ l.height = l₀.height ∧ l.blockHash = l₀.blockHash

inductive RoundStep (r : BftRound) : BftRound → Prop
  | prepare (m : BftMessage) : RoundStep r (r.handlePrepare m.senderId m.blockHash m.stateRoot).1
  | commit {m : BftMessage} (heard : S.heard m) (accepted : Coordinator.accepts S.cfg m = true)
      (type : m.type = .commit) (height : m.height = r.height) :
      RoundStep r (r.handleCommit m.senderId m.blockHash m.stateRoot).1

/-- The vote comes from the active round, from the local prepare record or from the linger timer. -/
inductive Licensed (height : Int) (blockHash : Hex) : Prop
  | committing {id : Nat} {r : BftRound} {b : ChainBlock} (current : c.activeRound = some ⟨id, r⟩)
      (proposed : r.proposedBlock = some b) (phase : r.phase = .commit)
      (sameHeight : height = r.height) (sameHash : blockHash = b.hash)
  | prepared (recorded : c.localPreparedAt.get? height = some blockHash)
  | lingering {l : Linger} (timer : c.linger = some l) (sameHeight : height = l.height)
      (sameHash : blockHash = l.blockHash)

inductive Move : Coordinator → Prop
  | quiet {c' : Coordinator} (same : c.SameVotes c')
      (pending : ∀ m ∈ c'.pendingMessages, m ∈ c.pendingMessages ∨ S.heard m)
      (validators : c'.validators = c.validators ∨ S.good c'.validators) : Move c'
  | clear : Move c.clearRound
  | openSilent {block : ChainBlock} {config : BftRoundConfig} {root : Option Hex} {round : BftRound}
      (ok : RoundConfigOk S config) (rooted : S.rooted block root) (above : S.floor c < block.number)
      (silent : (BftRound.new block.number config).handlePropose block block.proposer root = (round, none)) :
      Move (c.adopt round)
  | openVoted {block : ChainBlock} {config : BftRoundConfig} {root : Option Hex} {round : BftRound}
      {m : BftMessage} (ok : RoundConfigOk S config) (rooted : S.rooted block root)
      (above : S.floor c < block.number) (free : c.refusesPrepare block = false)
      (voted : (BftRound.new block.number config).handlePropose block block.proposer root = (round, some m)) :
      Move ((c.adopt round).recordPrepare block)
  | round {id : Nat} {r r' : BftRound} (current : c.activeRound = some ⟨id, r⟩)
      (stepped : RoundStep S r r') : Move { c with activeRound := some ⟨id, r'⟩ }
  | recordCommit {id : Nat} {r : BftRound} {b : ChainBlock} (current : c.activeRound = some ⟨id, r⟩)
      (proposed : r.proposedBlock = some b) (phase : r.phase = .commit) :
      Move (c.recordCommit r.height b.hash)
  | say {m : BftMessage} (licensed : Licensed c m.height m.blockHash) : Move (c.emit (.broadcast m))
  | decide {id : Nat} {r : BftRound} {b : ChainBlock} (current : c.activeRound = some ⟨id, r⟩)
      (proposed : r.proposedBlock = some b) (phase : r.phase = .finalized) :
      Move (c.decide S.cfg r b)
  | pruneLedger (pruned : ∀ height, height ≤ c.lastFinalizedHeight → c.localPreparedAt.get? height = none) :
      Move (c.pruneLedger c.lastFinalizedHeight)
  | notify {block : ChainBlock} {root : Option Hex} (decided : Effect.roundFinalized block root ∈ c.effects) :
      Move (c.emit (.onFinalized block))

abbrev Moves : Coordinator → Coordinator → Prop := ReflTransGen (Move S)

def FrameOk : Frame → Prop
  | .startRoundRoot _ config => RoundConfigOk S config
  | .startRoundLoop _ queue => ∀ m ∈ queue, S.heard m
  | .replayFloor _ | .replay _ => S.replays
  | _ => True

def Next.FramesOk : Next → Prop
  | .ret | .throw => True
  | .await frames => ∀ frame ∈ frames, FrameOk S frame

structure Stretch (result : Coordinator × Next) : Prop where
  moves : Moves S c result.1
  frames : result.2.FramesOk S

variable {S : Setting} {c c' : Coordinator}

theorem Stretch.ret (c : Coordinator) : Stretch S c (c, .ret) := ⟨.refl, trivial⟩

theorem Stretch.throw (c : Coordinator) : Stretch S c (c, .throw) := ⟨.refl, trivial⟩

theorem Stretch.after {result : Coordinator × Next} (first : Moves S c c') (rest : Stretch S c' result) :
    Stretch S c result := ⟨first.trans rest.moves, rest.frames⟩

theorem Stretch.inside {result : Coordinator × Next} {outer : List Frame} (inner : Stretch S c result)
    (ok : ∀ frame ∈ outer, FrameOk S frame) : Stretch S c (result.1, result.2.inside outer) := by
  obtain ⟨moved, next⟩ := result
  refine ⟨inner.moves, ?_⟩
  cases next with
  | ret => exact ok
  | throw => trivial
  | await frames =>
    intro frame member
    rcases List.mem_append.mp member with member | member
    · exact inner.frames frame member
    · exact ok frame member

theorem Move.same {c' : Coordinator} (same : c.SameVotes c') (pending : c'.pendingMessages = c.pendingMessages)
    (validators : c'.validators = c.validators) : Moves S c c' :=
  .single (.quiet same (fun _ member => .inl (pending ▸ member)) (.inl validators))

end Palimesh.Bft
