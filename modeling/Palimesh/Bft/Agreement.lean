import Palimesh.Bft.Network

namespace Palimesh.Bft.Deployment

open Collections Protocol Effect

variable {D : Deployment} {R : Regime} {net : Network}

def Vouches (D : Deployment) (R : Regime) (net : Network) (u : String) (b : ChainBlock) (root : Option Hex)
    (w : String) : Prop :=
  w = u ∨ ∃ voteRoot, (D.setting R net u).Backs b.number b.hash w voteRoot ∧
    (root = none ∨ voteRoot = none ∨ voteRoot = root)

variable {u : String} {b : ChainBlock} {root : Option Hex}

theorem NodeOk.supermajority (ok : D.NodeOk R net u) (honest : u ∈ D.honest)
    (decided : roundFinalized b root ∈ (net u).coordinator.effects) :
    ∃ voters : Finset String, Supermajority (stakeOf D.validators) (memberIds D.validators).toFinset voters ∧
      ∀ w ∈ voters, D.Vouches R net u b root w := by
  obtain ⟨_, validators, ids, good, nodup, members, quorum, sources⟩ := ok.certificates.certified b root decided
  have same : validators = D.validators := good
  subst same
  have strict : (D.setting R net u).cfg.relaxedQuorum = false := D.strict u honest
  rw [strict] at quorum
  refine ⟨ids.toFinset, quorum_supermajority D.distinct nodup members quorum, ?_⟩
  intro w member
  rcases sources w (List.mem_toFinset.mp member) with mine | backed
  · exact .inl (mine.trans (D.localKey u honest))
  · exact .inr backed

theorem common_voter (nodes : ∀ u ∈ D.honest, D.NodeOk R net u) {v : String} (hu : u ∈ D.honest)
    (hv : v ∈ D.honest) {b' : ChainBlock} {root' : Option Hex}
    (first : roundFinalized b root ∈ (net u).coordinator.effects)
    (second : roundFinalized b' root' ∈ (net v).coordinator.effects) :
    ∃ w ∈ D.honest, D.Vouches R net u b root w ∧ D.Vouches R net v b' root' w := by
  obtain ⟨left, heavyLeft, vouchLeft⟩ := (nodes u hu).supermajority hu first
  obtain ⟨right, heavyRight, vouchRight⟩ := (nodes v hv).supermajority hv second
  have few := D.fewFaulty
  rw [totalStake_eq_members D.distinct] at few
  obtain ⟨w, inLeft, inRight, sane⟩ := heavyLeft.common_outside heavyRight few
  have honest : w ∈ D.honest := by
    by_contra faulty
    exact sane (Finset.mem_sdiff.mpr ⟨heavyLeft.inside inLeft, faulty⟩)
  exact ⟨w, honest, vouchLeft w inLeft, vouchRight w inRight⟩

theorem accepted_verifies (honest : u ∈ D.honest) {m : BftMessage}
    (accepted : Coordinator.accepts (D.config u) m = true) :
    D.verifyNodeSig (bftCanonicalMessage m.type m.height m.blockHash) m.signature m.senderId = true := by
  rw [Coordinator.accepts, D.verifies u honest, Bool.and_eq_true] at accepted
  exact accepted.2

theorem Vouches.said {w : String} (hu : u ∈ D.honest) (hw : w ∈ D.honest)
    (decided : roundFinalized b root ∈ (net u).coordinator.effects)
    (vouches : D.Vouches R net u b root w) : Said (net w).coordinator b.number b.hash := by
  rcases vouches with rfl | ⟨_, ⟨m, heard, accepted, _, height, hash, sender, _⟩, _⟩
  · exact .inl ⟨_, decided, rfl⟩
  · obtain ⟨effect, member, text⟩ := heard.1 w hw sender (accepted_verifies hu accepted)
    cases effect with
    | broadcast m' =>
      obtain ⟨_, sameHeight, sameHash⟩ := bftCanonicalMessage_inj (Option.some.inj text)
      refine .inl ⟨_, member, ?_⟩
      rw [spoken, sameHeight, sameHash, height, hash]
    | _ => cases text

theorem NodeOk.decision (ok : D.NodeOk R net u) {effect : Effect}
    (member : effect ∈ (net u).coordinator.effects) (finalizes : effect.finalizes = some b) :
    ∃ root, roundFinalized b root ∈ (net u).coordinator.effects := by
  cases effect with
  | roundFinalized block root =>
    cases finalizes
    exact ⟨root, member⟩
  | onFinalized block =>
    cases finalizes
    exact ok.certificates.announced b member
  | broadcast m => cases finalizes
  | ledgerWritten snapshot => cases finalizes

/-- In every run of the honest validators, two of them never finalize different blocks at one height. -/
theorem agreement (D : Deployment) (durable : String → Bool) (net : Network)
    (reached : Reaches D.Admits D.step (D.fresh durable) net) :
    ∀ u ∈ D.honest, ∀ v ∈ D.honest, ∀ effect ∈ (net u).coordinator.effects,
      ∀ effect' ∈ (net v).coordinator.effects, ∀ b b', effect.finalizes = some b →
        effect'.finalizes = some b' → b.number = b'.number → b.hash = b'.hash := by
  intro u hu v hv effect member effect' member' b b' finalizes finalizes' height
  have nodes : ∀ u ∈ D.honest, D.NodeOk .free net u :=
    reached_ok (reached.weaken fun net e admitted => ⟨admitted, Regime.free_follows net e⟩)
  obtain ⟨root, first⟩ := (nodes u hu).decision member finalizes
  obtain ⟨root', second⟩ := (nodes v hv).decision member' finalizes'
  obtain ⟨w, hw, left, right⟩ := common_voter nodes hu hv first second
  have cast := left.said hu hw first
  rw [height] at cast
  exact (nodes w hw).process.votes.agree b'.number b.hash b'.hash cast (right.said hv hw second)

def sealBy (id : String) (text : String) : Hex := text ++ "#" ++ id

def trio : Deployment where
  validators := [⟨"v1", 2⟩, ⟨"v2", 2⟩, ⟨"v3", 1⟩]
  distinct := by decide
  honest := {"v1", "v2"}
  config := fun u => ⟨u, false, some (sealBy u), some fun text s sender => s = sealBy (toLowerCase sender) text⟩
  verifyNodeSig := fun text s sender => s = sealBy (toLowerCase sender) text
  localKey := by decide
  strict := by decide
  verifies := fun _ _ => rfl
  fewFaulty := by decide

def sealedVote (type : MessageType) (id : String) (root : Option Hex) : BftMessage :=
  ⟨type, 1, "0xa", id, sealBy id (bftCanonicalMessage type 1 "0xa"), root⟩

def openTrioRound (u : String) (root : Hex) : List NetworkEvent :=
  [⟨u, .startRound (blockAt 1 "0xa")⟩, ⟨u, .resume 0 {}⟩, ⟨u, .resume 0 { stateRoot := some root }⟩, ⟨u, .resume 0 {}⟩]

def trioRun : List NetworkEvent :=
  openTrioRound "v1" "0xr" ++ openTrioRound "v2" "0xr" ++
    [⟨"v1", .handleMessage (sealedVote .prepare "v2" (some "0xr"))⟩, ⟨"v1", .resume 0 {}⟩, ⟨"v1", .resume 0 {}⟩,
      ⟨"v2", .handleMessage (sealedVote .prepare "v1" (some "0xr"))⟩, ⟨"v2", .resume 0 {}⟩, ⟨"v2", .resume 0 {}⟩,
      ⟨"v1", .handleMessage (sealedVote .commit "v2" (some "0xr"))⟩, ⟨"v1", .resume 0 {}⟩,
      ⟨"v2", .handleMessage (sealedVote .commit "v1" (some "0xr"))⟩, ⟨"v2", .resume 0 {}⟩]

theorem trio_run_agrees :
    onFinalized (blockAt 1 "0xa") ∈
        (trioRun.foldl trio.step (trio.fresh fun _ => true) "v1").coordinator.effects ∧
      onFinalized (blockAt 1 "0xa") ∈
        (trioRun.foldl trio.step (trio.fresh fun _ => true) "v2").coordinator.effects ∧
      ∀ b, onFinalized b ∈ (trioRun.foldl trio.step (trio.fresh fun _ => true) "v2").coordinator.effects →
        1 = b.number → "0xa" = b.hash := by
  have first : onFinalized (blockAt 1 "0xa") ∈
      (trioRun.foldl trio.step (trio.fresh fun _ => true) "v1").coordinator.effects := by decide
  refine ⟨first, by decide, ?_⟩
  intro b second height
  exact agreement trio (fun _ => true) _ (Reaches.start.run (by decide)) "v1" (by decide)
    "v2" (by decide) _ first _ second _ _ rfl rfl height

/-- More than two thirds of the stake is behind a finalized block, and its honest part has said so. -/
theorem finality_certified {durable : String → Bool} (reached : Reaches D.Admits D.step (D.fresh durable) net)
    (hu : u ∈ D.honest) (decided : roundFinalized b root ∈ (net u).coordinator.effects) :
    ∃ voters, Supermajority (stakeOf D.validators) (memberIds D.validators).toFinset voters ∧
      ∀ w ∈ voters, w ∈ D.honest → Said (net w).coordinator b.number b.hash := by
  have ok : D.NodeOk .free net u :=
    reached_ok (reached.weaken fun net e admitted => ⟨admitted, Regime.free_follows net e⟩) u hu
  obtain ⟨voters, heavy, vouch⟩ := ok.supermajority hu decided
  exact ⟨voters, heavy, fun w voter hw => (vouch w voter).said hu hw decided⟩

theorem trio_run_certified : ∃ voters,
    Supermajority (stakeOf trio.validators) (memberIds trio.validators).toFinset voters ∧ ∀ w ∈ voters,
      w ∈ trio.honest → Said (trioRun.foldl trio.step (trio.fresh fun _ => true) w).coordinator 1 "0xa" :=
  finality_certified (Reaches.start.run (by decide)) (by decide : "v1" ∈ _)
    (by decide : roundFinalized (blockAt 1 "0xa") (some "0xr") ∈ _)

end Palimesh.Bft.Deployment
