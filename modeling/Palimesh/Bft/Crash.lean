import Palimesh.Bft.Durability
import Palimesh.Bft.Interleaving
import Palimesh.Bft.Sequential

namespace Palimesh.Bft

open Collections Protocol

/-- A validator over its whole life: the running process with all that was broadcast and written, the persisted
    chain tip, and the tip the process started from. -/
structure Life where
  process : Process
  tip : Int
  tipAtStart : Int

inductive LifeEvent
  | run (event : Event)
  | applyBlock (height : Int)
  -- the process dies in the middle of an event, after so many of its effects, and is started again
  | crash (during : Event) (effectsDone : Nat)

namespace Life

def fresh (validators : List Validator) (tip : Nat) : Life := ⟨.fresh validators true, tip, tip⟩

variable (cfg : CoordinatorConfig) (life : Life)

def logAtCrash (during : Event) (effectsDone : Nat) : List Effect :=
  (life.process.step cfg during).coordinator.effects.take
    (life.process.coordinator.effects.length + effectsDone)

def step (cfg : CoordinatorConfig) (life : Life) : LifeEvent → Life
  | .run event => { life with process := life.process.step cfg event }
  | .applyBlock height => { life with tip := height }
  | .crash during effectsDone =>
    let log := life.logAtCrash cfg during effectsDone
    ⟨.start life.process.coordinator.validators (.load (lastWritten log) true) log, life.tip, life.tip⟩

/-- Calls do not overlap, no member joins or leaves, and a chain height query that succeeds returns
    a tip this process has seen. -/
def Runs (event : Event) : Prop :=
  (life.process.step cfg event).tasks.length ≤ 1 ∧
    match event with
    | .updateValidators validators =>
      Coordinator.membershipChanged life.process.coordinator.validators validators = false
    | .resume _ answer => ∀ height ∈ answer.chainHeight, life.tipAtStart ≤ height ∧ height ≤ life.tip
    | _ => True

def Admits : LifeEvent → Prop
  | .run event => life.Runs cfg event
  | .applyBlock height => life.tip < height
  | .crash during _ => life.Runs cfg during

/-- A `startRound` goes on only with an answer to its chain height query, unless this process has
    itself finalized up to the tip it started from. -/
def TipAnswered : Event → Prop
  | .resume task answer =>
    match life.process.tasks[task]? with
    | some (.startRoundFloor _ _ :: _) =>
      answer.chainHeight.isSome = true ∨ life.tipAtStart ≤ life.process.coordinator.lastFinalizedHeight
    | _ => True
  | _ => True

def Settled : LifeEvent → Prop
  | .run event => life.TipAnswered event
  | .applyBlock _ => True
  | .crash during effectsDone => life.TipAnswered during ∧
    ∀ effect ∈ life.logAtCrash cfg during effectsDone, ∀ block ∈ effect.finalizes, block.number ≤ life.tip

instance (event : Event) : Decidable (life.Runs cfg event) := by
  unfold Runs
  cases event <;> infer_instance

instance (event : LifeEvent) : Decidable (life.Admits cfg event) := by
  unfold Admits
  split <;> infer_instance

instance (event : Event) : Decidable (life.TipAnswered event) := by
  unfold TipAnswered
  cases event
  case resume => dsimp only; split <;> infer_instance
  all_goals infer_instance

instance (event : LifeEvent) : Decidable (life.Settled cfg event) := by
  unfold Settled
  split <;> infer_instance

end Life

def lifeSetting (cfg : CoordinatorConfig) (validators : List Validator) (base : Int) : Setting where
  cfg := cfg
  heard := fun _ => True
  good := fun current => isKnownValidator current cfg.localId = isKnownValidator validators cfg.localId
  rooted := fun _ _ => True
  base := base
  replays := True

variable {cfg : CoordinatorConfig} {validators : List Validator} {base : Int} {c : Coordinator} {life : Life}

theorem lifeSetting_sound
    (quorum : cfg.relaxedQuorum = false ∨ isKnownValidator validators cfg.localId = true) :
    (lifeSetting cfg validators base).Sound := by
  intro current good
  rcases quorum with strict | member
  · exact .inl strict
  · exact .inr (good.trans member)

def Coordinator.restarted (c : Coordinator) (validators : List Validator) : Coordinator :=
  .new validators (.load (lastWritten c.effects) true) c.effects

variable {current : List Validator}

theorem restarted_said {height : Int} {a : Hex} (said : Said (c.restarted current) height a) : Said c height a := by
  rcases said with spoken | ⟨l, timer, _⟩
  · exact .inl spoken
  · cases timer

theorem LedgerInv.restarted_prepared {S : Setting} (ledger : LedgerInv S c) (current : List Validator) (height : Int) :
    (c.restarted current).localPreparedAt.get? height = c.voteLedger.prepared.get? height :=
  (get?_throughObject _ _).trans (ledger.file height).1

theorem LedgerInv.restarted_committed {S : Setting} (ledger : LedgerInv S c) (current : List Validator) (height : Int) :
    (c.restarted current).localCommittedAt.get? height = c.voteLedger.committed.get? height :=
  (get?_throughObject _ _).trans (ledger.file height).2

theorem VoteInv.restart {tip : Int} (inv : VoteInv (lifeSetting cfg validators base) c)
    (ledger : LedgerInv (lifeSetting cfg validators base) c) (good : (lifeSetting cfg validators tip).good current)
    (settled : (lifeSetting cfg validators base).floor c ≤ tip) :
    VoteInv (lifeSetting cfg validators tip) (c.restarted current) := by
  refine ⟨le_refl 0, good, ?_, ?_, ?_, ?_, ?_, ?_, ?_, ?_⟩
  · intro m member
    cases member
  · exact fun height a b first second => inv.agree height a b (restarted_said first) (restarted_said second)
  · intro height a said
    rcases inv.covered height a (restarted_said said) with low | recorded
    · exact .inl ((low.trans settled).trans (le_max_right _ _))
    · rw [ledger.restarted_prepared]
      exact .inr (ledger.stored height a recorded)
  · intro height a b recorded said
    rw [ledger.restarted_prepared] at recorded
    exact ledger.consistent height a b recorded (restarted_said said)
  · intro height a committed
    rw [ledger.restarted_committed] at committed
    rw [ledger.restarted_prepared]
    exact ledger.commits height a committed
  · intro id r current
    cases current
  · intro id r current
    cases current
  · intro id r b current
    cases current

theorem LedgerInv.restart {tip : Int} (ledger : LedgerInv (lifeSetting cfg validators base) c) :
    LedgerInv (lifeSetting cfg validators tip) (c.restarted current) := by
  have stored (height : Int) : (c.restarted current).voteLedger.prepared.get? height =
      (c.restarted current).localPreparedAt.get? height := rfl
  have loaded (height : Int) : (c.restarted current).voteLedger.committed.get? height =
      (c.restarted current).localCommittedAt.get? height := rfl
  refine ⟨rfl, ?_, fun _ _ => id, fun _ _ _ => id, ?_, ?_, .inl rfl⟩
  · intro height
    rw [stored, loaded, ledger.restarted_prepared, ledger.restarted_committed]
    exact ledger.file height
  · intro height a
    rw [stored, loaded, ledger.restarted_prepared, ledger.restarted_committed]
    exact ledger.commits height a
  · intro height a b
    rw [stored, ledger.restarted_prepared]
    exact fun recorded said => ledger.consistent height a b recorded (restarted_said said)

theorem LedgerInv.floor_le {tip : Int} (ledger : LedgerInv (lifeSetting cfg validators base) c)
    (nonneg : 0 ≤ tip) (start : base ≤ tip)
    (applied : ∀ effect ∈ c.effects, ∀ block ∈ effect.finalizes, block.number ≤ tip) :
    (lifeSetting cfg validators base).floor c ≤ tip := by
  refine max_le ?_ start
  rcases ledger.finalized with zero | ⟨b, root, decided, number⟩
  · omega
  · have bound := applied _ decided b rfl
    omega

structure LifeOk (cfg : CoordinatorConfig) (validators : List Validator) (life : Life) : Prop where
  process : ProcessOk (lifeSetting cfg validators life.tipAtStart) life.process
  calls : OneCall (lifeSetting cfg validators life.tipAtStart) life.process
  ledger : LedgerInv (lifeSetting cfg validators life.tipAtStart) life.process.coordinator
  nonneg : 0 ≤ life.tipAtStart
  forward : life.tipAtStart ≤ life.tip

theorem LifeOk.fed {event : Event} (ok : LifeOk cfg validators life) (runs : life.Runs cfg event)
    (answered : life.TipAnswered event) :
    SequentialOk (lifeSetting cfg validators life.tipAtStart) life.process event := by
  cases event with
  | handleMessage m => trivial
  | updateValidators new =>
    exact ⟨(isKnownValidator_of_same_members cfg.localId runs.2).trans ok.process.votes.good, runs.2⟩
  | resume task answer =>
    intro frame outer suspended
    refine ⟨?_, fun _ _ _ => trivial⟩
    have top := (ok.calls.stack _ (List.mem_of_getElem? suspended)).1
    cases frame with
    | startRoundFloor block lastFinalized =>
      have same : lastFinalized = life.process.coordinator.lastFinalizedHeight := top
      have own := le_computeStalenessFloor lastFinalized answer.chainHeight
      change life.tipAtStart ≤ computeStalenessFloor lastFinalized answer.chainHeight
      simp only [Life.TipAnswered, suspended] at answered
      rcases answered with success | finalized
      · obtain ⟨height, found⟩ := Option.isSome_iff_exists.mp success
        have seen := (runs.2 height found).1
        rw [found, computeStalenessFloor]
        split <;> omega
      · omega
    | _ => trivial
  | _ => trivial

theorem LifeOk.run {event : Event}
    (quorum : cfg.relaxedQuorum = false ∨ isKnownValidator validators cfg.localId = true)
    (ok : LifeOk cfg validators life) (runs : life.Runs cfg event) (answered : life.TipAnswered event) :
    LifeOk cfg validators (life.step cfg (.run event)) := by
  have fed := ok.fed runs answered
  have sound : (lifeSetting cfg validators life.tipAtStart).Sound := lifeSetting_sound quorum
  have after := ok.process.sequential_step ok.calls sound fed runs.1
  have moves := (ok.process.advances (ok.calls.event fed)).moves
  exact ⟨after.1, after.2, ok.ledger.moves ok.process.votes sound moves, ok.nonneg, ok.forward⟩

theorem LifeOk.at_crash {during : Event}
    (ok : LifeOk cfg validators life) (runs : life.Runs cfg during) (answered : life.TipAnswered during)
    (effectsDone : Nat) :
    ∃ middle, Moves (lifeSetting cfg validators life.tipAtStart) life.process.coordinator middle ∧
      middle.effects = life.logAtCrash cfg during effectsDone := by
  have moves := (ok.process.advances (ok.calls.event (ok.fed runs answered))).moves
  by_cases short : life.process.coordinator.effects.length + effectsDone ≤
      (life.process.step cfg during).coordinator.effects.length
  · exact moves.cut (Nat.le_add_right _ _) short
  · refine ⟨_, moves, ?_⟩
    rw [Life.logAtCrash, List.take_of_length_le (by omega)]
    rfl

theorem LifeOk.crash {during : Event} {effectsDone : Nat}
    (quorum : cfg.relaxedQuorum = false ∨ isKnownValidator validators cfg.localId = true)
    (ok : LifeOk cfg validators life) (runs : life.Runs cfg during)
    (settled : life.Settled cfg (.crash during effectsDone)) :
    LifeOk cfg validators (life.step cfg (.crash during effectsDone)) := by
  obtain ⟨middle, moves, log⟩ := ok.at_crash runs settled.1 effectsDone
  have sound : (lifeSetting cfg validators life.tipAtStart).Sound := lifeSetting_sound quorum
  have votes := ok.process.votes.moves sound moves
  have ledger := ok.ledger.moves ok.process.votes sound moves
  have nonneg : 0 ≤ life.tip := ok.nonneg.trans ok.forward
  have applied := settled.2
  rw [← log] at applied
  have floor := ledger.floor_le nonneg ok.forward applied
  have restart : (life.step cfg (.crash during effectsDone)).process.coordinator =
      middle.restarted life.process.coordinator.validators := by
    rw [Coordinator.restarted, log]
    rfl
  refine ⟨⟨?_, fun _ member => by cases member⟩, ⟨Nat.zero_le 1, fun _ member => by cases member⟩, ?_, nonneg,
    le_refl _⟩
  · rw [restart]
    exact votes.restart ledger ok.process.votes.good floor
  · rw [restart]
    exact ledger.restart

theorem LifeOk.fresh (tip : Nat) : LifeOk cfg validators (.fresh validators tip) where
  process := ⟨.fresh rfl true, fun _ member => by cases member⟩
  calls := ⟨Nat.zero_le 1, fun _ member => by cases member⟩
  ledger := by
    refine ⟨rfl, fun _ => ⟨rfl, rfl⟩, fun _ _ => id, fun _ _ _ => id, ?_, ?_, .inl rfl⟩
    · intro height a committed
      cases committed
    · intro height a b recorded
      cases recorded
  nonneg := Int.natCast_nonneg tip
  forward := le_refl _

/-- Over its whole life a validator never votes twice, as long as no crash overtakes the application
    of a block it finalized. -/
theorem no_double_vote_when_settled (cfg : CoordinatorConfig) (validators : List Validator) (tip : Nat)
    (quorum : cfg.relaxedQuorum = false ∨ isKnownValidator validators cfg.localId = true) (life : Life)
    (reached : Reaches (fun life event => life.Admits cfg event ∧ life.Settled cfg event) (Life.step cfg)
      (Life.fresh validators tip) life) :
    NoDoubleVote life.process.coordinator.effects := by
  have ok : LifeOk cfg validators life := by
    refine reached.invariant (LifeOk cfg validators) (.fresh tip) ?_
    rintro life event ok ⟨admitted, settled⟩
    cases event with
    | run event => exact ok.run quorum admitted settled
    | applyBlock height =>
      have later : life.tip < height := admitted
      exact { ok with forward := ok.forward.trans later.le }
    | crash during effectsDone => exact ok.crash quorum admitted settled
  exact ok.process.votes.no_double_vote

def pairVote (type : MessageType) (number : Int) (hash : Hex) : Event :=
  .handleMessage ⟨type, number, hash, "v2", "0x5", none⟩

def tipIs (height : Int) : LifeEvent := .run (.resume 0 { chainHeight := some height })

def finalizeFirst : List LifeEvent :=
  [.run (.startRound (blockAt 1 "0xa")), tipIs 0, tipIs 0, tipIs 0, .run (pairVote .prepare 1 "0xa"), tipIs 0,
    tipIs 0, .run (pairVote .commit 1 "0xa")]

def settledLife : List LifeEvent :=
  finalizeFirst ++ [.applyBlock 1, .crash .forceClearRound 0, .run (.startRound (blockAt 2 "0xb")), tipIs 1,
    .crash (.resume 0 { chainHeight := some 1 }) 1, .run .replayUnfinalizedVotes, tipIs 1, tipIs 1,
    .run (.startRound (blockAt 2 "0xc")), tipIs 1]

theorem settled_life_votes_once :
    (settledLife.foldl (Life.step pairConfig) (.fresh pairValidators 0)).process.coordinator.effects.length = 9 ∧
      NoDoubleVote
        (settledLife.foldl (Life.step pairConfig) (.fresh pairValidators 0)).process.coordinator.effects := by
  refine ⟨by decide, ?_⟩
  exact no_double_vote_when_settled pairConfig pairValidators 0 (.inl rfl) _ (Reaches.start.run (by decide))

/-- A crash between finalization and application of a block: the ledger was pruned, the tip is still below, and
    the restarted validator prepares another block there. -/
theorem crash_before_application_double_vote :
    ∃ life : Life, Reaches (fun life event => life.Admits pairConfig event) (Life.step pairConfig)
        (Life.fresh pairValidators 0) life ∧
      Effect.broadcast ⟨.prepare, 1, "0xa", "v1", "", none⟩ ∈ life.process.coordinator.effects ∧
      Effect.broadcast ⟨.prepare, 1, "0xb", "v1", "", none⟩ ∈ life.process.coordinator.effects := by
  refine ⟨(finalizeFirst ++ [.crash .forceClearRound 0, .run (.startRound (blockAt 1 "0xb")), tipIs 0,
    tipIs 0]).foldl (Life.step pairConfig) (.fresh pairValidators 0), ?_, ?_, ?_⟩
  · exact Reaches.start.run (by decide)
  · decide
  · decide

end Palimesh.Bft
