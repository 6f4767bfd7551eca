import Palimesh.Bft.ProcessInvariant
import Palimesh.Protocol.Transition

namespace Palimesh.Bft

open Collections Protocol Coordinator

/-- All prepares, and all commits, that were broadcast for one height carry one block hash. -/
def NoDoubleVote (effects : List Effect) : Prop :=
  ∀ m m', Effect.broadcast m ∈ effects → Effect.broadcast m' ∈ effects → m.type = m'.type →
    m.height = m'.height → m.blockHash = m'.blockHash

theorem VoteInv.no_double_vote {S : Setting} {c : Coordinator} (inv : VoteInv S c) : NoDoubleVote c.effects := by
  intro m m' first second _ height
  refine inv.agree m.height m.blockHash m'.blockHash (.inl ⟨_, first, rfl⟩) (.inl ⟨_, second, ?_⟩)
  rw [height]
  rfl

def Process.fresh (validators : List Validator) (durable : Bool) : Process :=
  .start validators (.load .empty durable) []

theorem VoteInv.fresh {S : Setting} {validators : List Validator} (good : S.good validators) (durable : Bool) :
    VoteInv S (Process.fresh validators durable).coordinator := by
  have silent {height : Int} {a : Hex} : ¬ Said (Process.fresh validators durable).coordinator height a := by
    rintro (⟨effect, member, _⟩ | ⟨l, timer, _⟩)
    · cases member
    · cases timer
  have uncommitted (height : Int) :
      (Process.fresh validators durable).coordinator.localCommittedAt.get? height = none := by
    cases durable <;> rfl
  refine ⟨le_refl 0, good, ?_, ?_, ?_, ?_, ?_, ?_, ?_, ?_⟩
  · intro m member
    cases member
  · exact fun height a b said _ => absurd said silent
  · exact fun height a said => absurd said silent
  · exact fun height a b _ said => absurd said silent
  · intro height a committed
    rw [uncommitted] at committed
    cases committed
  · intro id r current
    cases current
  · intro id r current
    cases current
  · intro id r b current
    cases current

theorem isKnownValidator_of_same_members {old new : List Validator} (id : String)
    (same : membershipChanged old new = false) :
    isKnownValidator new id = isKnownValidator old id := by
  simp only [membershipChanged, Bool.or_eq_false_iff, List.any_eq_false, decide_eq_true_eq,
    not_not] at same
  rw [Bool.eq_iff_iff, ← mem_memberIds, ← mem_memberIds]
  exact ⟨same.1 _, same.2 _⟩

def interleaved (p : Process) : Event → Bool
  | .updateValidators validators => !Coordinator.membershipChanged p.coordinator.validators validators
  | .replayUnfinalizedVotes => false
  | _ => true

/-- Where a `startRound` continues after its stateRoot was computed, the height is still above the last finalized
    one and no other block was prepared there. -/
def startStillAllowed (p : Process) : Event → Bool
  | .resume task _ =>
    match p.tasks[task]? with
    | some (.startRoundRoot block _ :: _) =>
      p.coordinator.lastFinalizedHeight < block.number && !p.coordinator.refusesPrepare block
    | _ => true
  | _ => true

def interleavingSetting (cfg : CoordinatorConfig) (validators : List Validator) : Setting where
  cfg := cfg
  heard := fun _ => True
  good := fun current => isKnownValidator current cfg.localId = isKnownValidator validators cfg.localId
  rooted := fun _ _ => True
  base := 0
  replays := False

theorem ProcessOk.interleaved_event {cfg : CoordinatorConfig} {validators : List Validator} {p : Process}
    {event : Event} (ok : ProcessOk (interleavingSetting cfg validators) p)
    (allowed : interleaved p event = true) (checked : startStillAllowed p event = true) :
    EventOk (interleavingSetting cfg validators) p event := by
  cases event with
  | handleMessage m => trivial
  | updateValidators new =>
    have same : membershipChanged p.coordinator.validators new = false := by
      simpa [interleaved] using allowed
    exact ⟨(isKnownValidator_of_same_members cfg.localId same).trans ok.votes.good, same⟩
  | replayUnfinalizedVotes => cases allowed
  | resume task answer =>
    intro frame outer suspended
    cases frame with
    | startRoundRoot block config =>
      simp only [startStillAllowed, suspended, Bool.and_eq_true, decide_eq_true_eq, Bool.not_eq_true'] at checked
      refine ⟨⟨?_, checked.2⟩, trivial⟩
      have start := ok.votes.nonneg
      change max p.coordinator.lastFinalizedHeight 0 < block.number
      omega
    | replay queue =>
      have never := ok.frames _ (List.mem_of_getElem? suspended) (.replay queue) (by simp)
      exact never.elim
    | _ => trivial
  | _ => trivial

/-- A process never votes twice as long as every `startRound` still passes its own checks when it
    goes on to vote. -/
theorem no_double_vote_when_start_still_allowed (cfg : CoordinatorConfig) (validators : List Validator)
    (durable : Bool) (quorum : cfg.relaxedQuorum = false ∨ isKnownValidator validators cfg.localId = true)
    (p : Process)
    (reached : Reaches (fun p event => interleaved p event = true ∧ startStillAllowed p event = true)
      (Process.step cfg) (Process.fresh validators durable) p) :
    NoDoubleVote p.coordinator.effects := by
  have sound : (interleavingSetting cfg validators).Sound := by
    intro current good
    rcases quorum with strict | member
    · exact .inl strict
    · exact .inr (good.trans member)
  have ok : ProcessOk (interleavingSetting cfg validators) p := by
    refine reached.invariant (ProcessOk (interleavingSetting cfg validators)) ⟨.fresh rfl durable, ?_⟩ ?_
    · intro stack member
      cases member
    · intro p event ok admitted
      exact ok.step sound (ok.interleaved_event admitted.1 admitted.2)
  exact ok.votes.no_double_vote

def pairConfig : CoordinatorConfig := ⟨"v1", false, none, none⟩

def pairValidators : List Validator := [⟨"v1", 1⟩, ⟨"v2", 1⟩]

def blockAt (number : Int) (hash : Hex) : ChainBlock :=
  { number, hash, parentHash := "0x0", proposer := "v2", timestampMs := 0, txs := [], finalized := false }

def overlappingStarts : List Event :=
  [.startRound (blockAt 1 "0xa"), .startRound (blockAt 1 "0xa"), .resume 0 {}, .resume 1 {}, .resume 0 {},
    .resume 1 {}, .roundTimeout, .startRound (blockAt 2 "0xb"), .resume 3 {}, .resume 3 {}]

theorem overlapping_starts_vote_once :
    (overlappingStarts.foldl (Process.step pairConfig) (Process.fresh pairValidators true)).coordinator.effects.length = 5 ∧
      NoDoubleVote
        (overlappingStarts.foldl (Process.step pairConfig) (Process.fresh pairValidators true)).coordinator.effects := by
  refine ⟨by decide, ?_⟩
  exact no_double_vote_when_start_still_allowed pairConfig pairValidators true (.inl rfl) _
    (Reaches.start.run (by decide))

theorem overlapping_starts_double_vote :
    ∃ p, Reaches (fun p event => interleaved p event = true) (Process.step pairConfig)
        (Process.fresh pairValidators true) p ∧
      Effect.broadcast ⟨.prepare, 1, "0xa", "v1", "", none⟩ ∈ p.coordinator.effects ∧
      Effect.broadcast ⟨.prepare, 1, "0xb", "v1", "", none⟩ ∈ p.coordinator.effects := by
  refine ⟨[.startRound (blockAt 1 "0xa"), .startRound (blockAt 1 "0xb"), .resume 0 {}, .resume 1 {},
    .resume 0 {}, .resume 1 {}].foldl (Process.step pairConfig) (Process.fresh pairValidators true), ?_, ?_, ?_⟩
  · exact Reaches.start.run (by decide)
  · decide
  · decide

end Palimesh.Bft
