import Palimesh.Bft.Agreement

namespace Palimesh.Bft.Deployment

open Collections Protocol Effect

def rootsReturned (net : Network) (e : NetworkEvent) : Bool :=
  match e.event with
  | .resume task answer => ((net e.node).awaitsRoot task).isNone || answer.stateRoot.isSome
  | _ => true

variable (D : Deployment) (root : String → Int → Hex → Hex)

/-- `root u height hash` is what `u` computes each time; a commit reaches a validator with another root only
    with the signer's root on it. -/
def KeepsRoots (net : Network) (u : String) : Event → Prop
  | .handleMessage m => m.type = .commit → ∀ w ∈ D.honest, toLowerCase m.senderId = w →
      D.verifyNodeSig (bftCanonicalMessage m.type m.height m.blockHash) m.signature m.senderId = true →
        root u m.height m.blockHash = root w m.height m.blockHash ∨
          m.stateRoot = some (root w m.height m.blockHash)
  | .resume task answer => ∀ block ∈ (net u).awaitsRoot task,
      answer.stateRoot = some (root u block.number block.hash)
  | _ => True

instance (net : Network) (u : String) (event : Event) : Decidable (D.KeepsRoots root net u event) :=
  match event with
  | .handleMessage m => inferInstanceAs (Decidable (m.type = .commit → ∀ w ∈ D.honest, _ → _ → _ ∨ _))
  | .resume task _ => inferInstanceAs (Decidable (∀ block ∈ (net u).awaitsRoot task, _))
  | .startRound _ | .handleReceivedBlock _ | .roundTimeout | .livenessWatchdog | .commitRetryTick | .prepareRetryTick
  | .lingerTick | .updateValidators _ | .forceClearRound | .stop | .replayUnfinalizedVotes => instDecidableTrue

def rootRegime : Regime where
  delivered := fun u m => m.type = .commit → ∀ w ∈ D.honest, toLowerCase m.senderId = w →
    D.verifyNodeSig (bftCanonicalMessage m.type m.height m.blockHash) m.signature m.senderId = true →
      root u m.height m.blockHash = root w m.height m.blockHash ∨
        m.stateRoot = some (root w m.height m.blockHash)
  rooted := fun u block computed => computed = some (root u block.number block.hash)

variable {D root} {net : Network}

theorem KeepsRoots.follows {e : NetworkEvent} (keeps : D.KeepsRoots root net e.node e.event) :
    (D.rootRegime root).Follows net e := by
  obtain ⟨node, event⟩ := e
  cases event <;> exact keeps

theorem NodeOk.computed {u : String} (ok : D.NodeOk (D.rootRegime root) net u) {b : ChainBlock}
    {computed : Option Hex} (decided : roundFinalized b computed ∈ (net u).coordinator.effects) :
    computed = some (root u b.number b.hash) := (ok.certificates.certified b computed decided).rooted

theorem NodeOk.shares_root {u w : String} (ok : D.NodeOk (D.rootRegime root) net u) (hu : u ∈ D.honest)
    (hw : w ∈ D.honest) {b : ChainBlock} {computed : Option Hex}
    (decided : roundFinalized b computed ∈ (net u).coordinator.effects)
    (vouches : D.Vouches (D.rootRegime root) net u b computed w) :
    root u b.number b.hash = root w b.number b.hash := by
  rcases vouches with rfl | ⟨voteRoot, ⟨m, heard, accepted, type, height, hash, sender, carried⟩, joined⟩
  · rfl
  · have kept := heard.2 type w hw sender (accepted_verifies hu accepted)
    rw [height, hash] at kept
    rcases kept with same | own
    · exact same
    · rw [ok.computed decided, ← carried, own] at joined
      simpa [eq_comm] using joined

/-- Validators that finalize one height computed one stateRoot, as long as no root is dropped or rewritten on the
    commits that reach a validator with another one. -/
theorem state_roots_agree_when_kept (D : Deployment) (root : String → Int → Hex → Hex) (durable : String → Bool)
    (net : Network)
    (reached : Reaches (fun net e => D.Admits net e ∧ D.KeepsRoots root net e.node e.event) D.step
      (D.fresh durable) net) :
    ∀ u ∈ D.honest, ∀ v ∈ D.honest, ∀ b b' computed computed',
      roundFinalized b computed ∈ (net u).coordinator.effects →
      roundFinalized b' computed' ∈ (net v).coordinator.effects →
      b.number = b'.number → computed = computed' := by
  intro u hu v hv b b' computed computed' first second height
  have nodes : ∀ u ∈ D.honest, D.NodeOk (D.rootRegime root) net u :=
    reached_ok (reached.weaken fun net e admitted => ⟨admitted.1, admitted.2.follows⟩)
  obtain ⟨w, hw, left, right⟩ := common_voter nodes hu hv first second
  have cast := left.said hu hw first
  rw [height] at cast
  have hash := (nodes w hw).process.votes.agree b'.number b.hash b'.hash cast (right.said hv hw second)
  have sharedLeft := (nodes u hu).shares_root hu hw first left
  have sharedRight := (nodes v hv).shares_root hv hw second right
  rw [(nodes u hu).computed first, (nodes v hv).computed second, sharedLeft, sharedRight, height, hash]

def trioRetryRun : List NetworkEvent :=
  openTrioRound "v1" "0xr" ++ openTrioRound "v2" "0xr" ++
    [⟨"v1", .handleMessage (sealedVote .prepare "v2" (some "0xr"))⟩, ⟨"v1", .resume 0 {}⟩, ⟨"v1", .resume 0 {}⟩,
      ⟨"v2", .handleMessage (sealedVote .prepare "v1" (some "0xr"))⟩, ⟨"v2", .resume 0 {}⟩, ⟨"v2", .resume 0 {}⟩,
      ⟨"v1", .commitRetryTick⟩, ⟨"v2", .commitRetryTick⟩,
      ⟨"v1", .handleMessage (sealedVote .commit "v2" none)⟩, ⟨"v1", .resume 0 {}⟩,
      ⟨"v2", .handleMessage (sealedVote .commit "v1" none)⟩, ⟨"v2", .resume 0 {}⟩]

theorem trio_retry_run_roots_agree :
    roundFinalized (blockAt 1 "0xa") (some "0xr") ∈
        (trioRetryRun.foldl trio.step (trio.fresh fun _ => true) "v1").coordinator.effects ∧
      ∀ b computed, roundFinalized b computed ∈
          (trioRetryRun.foldl trio.step (trio.fresh fun _ => true) "v2").coordinator.effects →
        1 = b.number → some "0xr" = computed := by
  have first : roundFinalized (blockAt 1 "0xa") (some "0xr") ∈
      (trioRetryRun.foldl trio.step (trio.fresh fun _ => true) "v1").coordinator.effects := by decide
  refine ⟨first, ?_⟩
  intro b computed second height
  exact state_roots_agree_when_kept trio (fun _ _ _ => "0xr") (fun _ => true) _
    (Reaches.start.run (by decide)) "v1" (by decide) "v2" (by decide) _ b _ computed first second height

def strippedRun : List NetworkEvent :=
  openTrioRound "v1" "0xr1" ++ openTrioRound "v2" "0xr2" ++
    [⟨"v1", .handleMessage (sealedVote .prepare "v2" none)⟩, ⟨"v1", .resume 0 {}⟩, ⟨"v1", .resume 0 {}⟩,
      ⟨"v2", .handleMessage (sealedVote .prepare "v1" none)⟩, ⟨"v2", .resume 0 {}⟩, ⟨"v2", .resume 0 {}⟩,
      ⟨"v1", .handleMessage (sealedVote .commit "v2" none)⟩, ⟨"v1", .resume 0 {}⟩,
      ⟨"v2", .handleMessage (sealedVote .commit "v1" none)⟩, ⟨"v2", .resume 0 {}⟩]

theorem stripped_votes_finalize_two_roots :
    ∃ net, Reaches (fun net e => trio.Admits net e ∧ rootsReturned net e = true) trio.step
        (trio.fresh fun _ => true) net ∧
      roundFinalized (blockAt 1 "0xa") (some "0xr1") ∈ (net "v1").coordinator.effects ∧
      roundFinalized (blockAt 1 "0xa") (some "0xr2") ∈ (net "v2").coordinator.effects := by
  refine ⟨strippedRun.foldl trio.step (trio.fresh fun _ => true), ?_, ?_, ?_⟩
  · exact Reaches.start.run (by decide)
  · decide
  · decide

end Palimesh.Bft.Deployment
