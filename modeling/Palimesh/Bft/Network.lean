import Palimesh.Bft.Canonical
import Palimesh.Bft.Hearing
import Palimesh.Bft.Interleaving

namespace Palimesh.Bft

open Collections Protocol Relation Function

/-- A validator set in strict quorum mode with at most a third of its stake outside `honest`.
    Validators are named by the lower-case form of their ids. -/
structure Deployment where
  validators : List Validator
  distinct : (memberIds validators).Nodup
  honest : Finset String
  config : String → CoordinatorConfig
  verifyNodeSig : String → Hex → String → Bool
  localKey : ∀ u ∈ honest, (config u).localKey = u
  strict : ∀ u ∈ honest, (config u).relaxedQuorum = false
  verifies : ∀ u ∈ honest, (config u).verifier = some verifyNodeSig
  fewFaulty : 3 * ((memberIds validators).toFinset \ honest).sum (stakeOf validators) ≤ totalStake validators

abbrev Network := String → Process

structure NetworkEvent where
  node : String
  event : Event

def Effect.signedText : Effect → Option String
  | .broadcast m => some (bftCanonicalMessage m.type m.height m.blockHash)
  | _ => none

namespace Deployment

variable (D : Deployment) (net : Network)

/-- A valid signature of an honest validator covers a text that validator has broadcast. -/
def Authentic (m : BftMessage) : Prop :=
  ∀ u ∈ D.honest, toLowerCase m.senderId = u →
    D.verifyNodeSig (bftCanonicalMessage m.type m.height m.blockHash) m.signature m.senderId = true →
      ∃ effect ∈ (net u).coordinator.effects,
        effect.signedText = some (bftCanonicalMessage m.type m.height m.blockHash)

def step (D : Deployment) (net : Network) (e : NetworkEvent) : Network :=
  Function.update net e.node ((net e.node).step (D.config e.node) e.event)

def Feeds : Event → Prop
  | .handleMessage m => D.Authentic net m
  | .updateValidators validators => validators = D.validators
  | _ => True

def Admits (e : NetworkEvent) : Prop :=
  e.node ∈ D.honest ∧ ((net e.node).step (D.config e.node) e.event).tasks.length ≤ 1 ∧ D.Feeds net e.event

instance (m : BftMessage) : Decidable (D.Authentic net m) :=
  inferInstanceAs (Decidable (∀ u ∈ D.honest, _ → _ → ∃ effect ∈ _, _))

instance (event : Event) : Decidable (D.Feeds net event) :=
  match event with
  | .handleMessage m => inferInstanceAs (Decidable (D.Authentic net m))
  | .updateValidators validators => inferInstanceAs (Decidable (validators = D.validators))
  | .startRound _ | .handleReceivedBlock _ | .roundTimeout | .livenessWatchdog | .commitRetryTick | .prepareRetryTick
  | .lingerTick | .forceClearRound | .stop | .replayUnfinalizedVotes | .resume _ _ => instDecidableTrue

instance (e : NetworkEvent) : Decidable (D.Admits net e) :=
  inferInstanceAs (Decidable (_ ∧ _ ∧ _))

def fresh (D : Deployment) (durable : String → Bool) : Network := fun u => .fresh D.validators (durable u)

end Deployment

def Process.awaitsRoot (p : Process) (task : Nat) : Option ChainBlock :=
  match p.tasks[task]? with
  | some (.startRoundRoot block _ :: _) => some block
  | _ => none

/-- Restrictions on deliveries and computed stateRoots beyond what the protocol assumes. -/
structure Regime where
  delivered : String → BftMessage → Prop
  rooted : String → ChainBlock → Option Hex → Prop

def Regime.Follows (R : Regime) (net : Network) (e : NetworkEvent) : Prop :=
  match e.event with
  | .handleMessage m => R.delivered e.node m
  | .resume task answer => ∀ block ∈ (net e.node).awaitsRoot task, R.rooted e.node block answer.stateRoot
  | _ => True

def Regime.free : Regime := ⟨fun _ _ => True, fun _ _ _ => True⟩

theorem Regime.free_follows (net : Network) (e : NetworkEvent) : Regime.free.Follows net e := by
  unfold Follows
  split
  · trivial
  · exact fun _ _ => trivial
  · trivial

namespace Deployment

variable {D : Deployment} {R : Regime} {net : Network}

def setting (D : Deployment) (R : Regime) (net : Network) (u : String) : Setting where
  cfg := D.config u
  heard := fun m => D.Authentic net m ∧ R.delivered u m
  good := fun validators => validators = D.validators
  rooted := R.rooted u
  base := 0
  replays := True

structure NodeOk (D : Deployment) (R : Regime) (net : Network) (u : String) : Prop where
  process : ProcessOk (D.setting R net u) (net u)
  calls : OneCall (D.setting R net u) (net u)
  certificates : CertInv (D.setting R net u) (net u).coordinator

theorem setting_sound {u : String} (honest : u ∈ D.honest) : (D.setting R net u).Sound :=
  fun _ _ => .inl (D.strict u honest)

theorem Authentic.later {net' : Network} {m : BftMessage} (authentic : D.Authentic net m)
    (grows : ∀ u ∈ D.honest, (net u).coordinator.effects <+: (net' u).coordinator.effects) :
    D.Authentic net' m := by
  intro u honest sender valid
  obtain ⟨effect, member, text⟩ := authentic u honest sender valid
  exact ⟨effect, (grows u honest).subset member, text⟩

theorem NodeOk.later {net' : Network} {u : String}
    (grows : ∀ u ∈ D.honest, (net u).coordinator.effects <+: (net' u).coordinator.effects)
    (process : ProcessOk (D.setting R net u) (net' u)) (calls : OneCall (D.setting R net u) (net' u))
    (certificates : CertInv (D.setting R net u) (net' u).coordinator) : D.NodeOk R net' u := by
  have more : ∀ m, (D.setting R net u).heard m → (D.setting R net' u).heard m :=
    fun m heard => ⟨heard.1.later grows, heard.2⟩
  exact ⟨process.hearing more, calls.hearing, certificates.hearing more⟩

theorem NodeOk.fed {e : NetworkEvent} (ok : D.NodeOk R net e.node) (admitted : D.Admits net e)
    (follows : R.Follows net e) : SequentialOk (D.setting R net e.node) (net e.node) e.event := by
  obtain ⟨node, event⟩ := e
  obtain ⟨_, _, allowed⟩ := admitted
  cases event with
  | handleMessage m => exact ⟨allowed, follows⟩
  | updateValidators validators =>
    have current : (net node).coordinator.validators = D.validators := ok.process.votes.good
    refine ⟨allowed, ?_⟩
    rw [current, (allowed : validators = D.validators)]
    simp [Coordinator.membershipChanged]
  | resume task answer =>
    intro frame outer suspended
    refine ⟨?_, fun block config same => follows block (by simp [Process.awaitsRoot, suspended, same])⟩
    have top := (ok.calls.stack _ (List.mem_of_getElem? suspended)).1
    cases frame with
    | startRoundFloor block lastFinalized =>
      have start := ok.process.votes.nonneg
      have low := le_computeStalenessFloor lastFinalized answer.chainHeight
      rw [(top : lastFinalized = _)] at low ⊢
      exact start.trans low
    | _ => trivial
  | _ => trivial

theorem step_ok (nodes : ∀ u ∈ D.honest, D.NodeOk R net u) {e : NetworkEvent} (admitted : D.Admits net e)
    (follows : R.Follows net e) : ∀ u ∈ D.honest, D.NodeOk R (D.step net e) u := by
  have actor := nodes e.node admitted.1
  have sound : (D.setting R net e.node).Sound := setting_sound admitted.1
  have fed := actor.fed admitted follows
  have moves := (actor.process.advances (actor.calls.event fed)).moves
  have grows : ∀ u ∈ D.honest, (net u).coordinator.effects <+: (D.step net e u).coordinator.effects := by
    intro u _
    by_cases same : u = e.node
    · subst same
      rw [step, update_self]
      exact moves.extends
    · rw [step, update_of_ne same]
  intro u honest
  by_cases same : u = e.node
  · subst same
    have after := actor.process.sequential_step actor.calls sound fed admitted.2.1
    have here : D.step net e e.node = (net e.node).step (D.config e.node) e.event := update_self ..
    refine NodeOk.later grows ?_ ?_ ?_
    · rw [here]
      exact after.1
    · rw [here]
      exact after.2
    · rw [here]
      exact actor.certificates.moves actor.process.votes sound moves
  · have here : D.step net e u = net u := update_of_ne same ..
    have ok := nodes u honest
    refine NodeOk.later grows ?_ ?_ ?_
    · rw [here]
      exact ok.process
    · rw [here]
      exact ok.calls
    · rw [here]
      exact ok.certificates

theorem fresh_ok (durable : String → Bool) (u : String) : D.NodeOk R (D.fresh durable) u where
  process := ⟨.fresh rfl (durable u), fun _ member => by cases member⟩
  calls := ⟨Nat.zero_le 1, fun _ member => by cases member⟩
  certificates := by
    constructor
    · intro b root member
      cases member
    · intro b member
      cases member

theorem reached_ok {durable : String → Bool}
    (reached : Reaches (fun net e => D.Admits net e ∧ R.Follows net e) D.step (D.fresh durable) net) :
    ∀ u ∈ D.honest, D.NodeOk R net u :=
  reached.invariant (fun net => ∀ u ∈ D.honest, D.NodeOk R net u) (fun u _ => fresh_ok durable u)
    fun _ _ nodes admitted => step_ok nodes admitted.1 admitted.2

end Deployment

end Palimesh.Bft
