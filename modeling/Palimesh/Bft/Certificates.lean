import Palimesh.Bft.ProcessInvariant

namespace Palimesh.Bft

open Collections Relation List

def Effect.finalizes : Effect → Option ChainBlock
  | .roundFinalized b _ | .onFinalized b => some b
  | .broadcast _ | .ledgerWritten _ => none

/-- A decided block has a quorum of commits: this node's own one and commits it heard, none of them
    for another stateRoot. -/
structure Certified (S : Setting) (b : ChainBlock) (root : Option Hex) : Prop where
  rooted : S.rooted b root
  quorum : ∃ validators ids, S.good validators ∧ ids.Nodup ∧ (∀ id ∈ ids, id ∈ memberIds validators) ∧
    hasQuorum ids validators S.cfg.relaxedQuorum = true ∧
    ∀ id ∈ ids, id = S.cfg.localKey ∨
      ∃ voteRoot, S.Backs b.number b.hash id voteRoot ∧ (root = none ∨ voteRoot = none ∨ voteRoot = root)

structure CertInv (S : Setting) (c : Coordinator) : Prop where
  certified : ∀ b root, Effect.roundFinalized b root ∈ c.effects → Certified S b root
  announced : ∀ b, Effect.onFinalized b ∈ c.effects → ∃ root, Effect.roundFinalized b root ∈ c.effects

variable {S : Setting} {c c' : Coordinator}

theorem RoundOk.certified {r : BftRound} {b : ChainBlock} (ok : RoundOk S r) (phase : r.phase = .finalized)
    (proposed : r.proposedBlock = some b) : Certified S b r.ownStateRoot := by
  have validator : r.isValidator = true := by
    cases outside : r.isValidator with
    | true => rfl
    | false => exact absurd phase (ok.observer outside).2
  obtain ⟨root, voted, rooted⟩ := ok.own b proposed validator
  have own : r.ownStateRoot = root := by rw [BftRound.ownStateRoot, voted]; rfl
  obtain ⟨block, same, ownCommit⟩ := ok.committed (.inr phase)
  rw [proposed] at same
  cases same
  refine ⟨own ▸ rooted, r.config.validators, (pickWinningVoteGroup r.commitVotes r.localKey).ids,
    ok.config.good, group_ids_nodup _ _, ?_, ?_, ?_⟩
  · intro id member
    obtain ⟨_, vote, _, present, _⟩ := mem_group_ids.mp member
    obtain ⟨_, _, _, known, _⟩ := ok.commits id vote present
    exact known
  · rw [← ok.config.relaxed]
    exact ok.decided phase
  · intro id member
    obtain ⟨anchor, vote, anchored, present, joined⟩ := mem_group_ids.mp member
    rw [ownCommit validator] at anchored
    cases anchored
    obtain ⟨block, same, hash, _, source⟩ := ok.commits id vote present
    rw [proposed] at same
    cases same
    rcases source with mine | backed
    · exact .inl (mine.trans ok.localKey)
    · rw [ok.height b proposed]
      simp only [BftVote.joins, Bool.and_eq_true, Bool.or_eq_true, decide_eq_true_eq, Option.isNone_iff_eq_none, or_assoc]
        at joined
      exact .inr ⟨vote.stateRoot, backed, joined.2⟩

structure Coordinator.Appends (c : Coordinator) (added : List Effect) : Prop where
  short : added.length ≤ 1
  decisions : ∀ b root, Effect.roundFinalized b root ∈ added → ∃ id r, c.activeRound = some ⟨id, r⟩ ∧
    r.proposedBlock = some b ∧ r.phase = .finalized ∧ root = r.ownStateRoot
  announcements : ∀ b, Effect.onFinalized b ∈ added → ∃ root, Effect.roundFinalized b root ∈ c.effects

theorem Coordinator.Appends.nothing (c : Coordinator) : c.Appends [] := ⟨by simp, by simp, by simp⟩

theorem Coordinator.Appends.write (c : Coordinator) (write : Option VoteLedgerSnapshot) :
    c.Appends (write.map Effect.ledgerWritten).toList := by
  cases write with
  | none => exact .nothing c
  | some snapshot => exact ⟨by simp, by simp, by simp⟩

theorem Move.appends (move : Move S c c') : ∃ added, c'.effects = c.effects ++ added ∧ c.Appends added := by
  cases move with
  | quiet same => exact ⟨[], by rw [same.effects, append_nil], .nothing c⟩
  | clear => exact ⟨[], (append_nil _).symm, .nothing c⟩
  | openSilent => exact ⟨[], (append_nil _).symm, .nothing c⟩
  | openVoted => exact ⟨_, rfl, .write c _⟩
  | round => exact ⟨[], (append_nil _).symm, .nothing c⟩
  | recordCommit => exact ⟨_, rfl, .write c _⟩
  | say => exact ⟨_, rfl, by simp, by simp, by simp⟩
  | @decide id r b current proposed phase =>
    refine ⟨[.roundFinalized b r.ownStateRoot], rfl, by simp, ?_, by simp⟩
    intro b' root member
    cases List.mem_singleton.mp member
    exact ⟨id, r, current, proposed, phase, rfl⟩
  | pruneLedger => exact ⟨_, rfl, .write c _⟩
  | @notify b root decided =>
    refine ⟨[.onFinalized b], rfl, by simp, by simp, ?_⟩
    intro b' member
    cases List.mem_singleton.mp member
    exact ⟨root, decided⟩

theorem CertInv.move (cert : CertInv S c) (inv : VoteInv S c) (move : Move S c c') : CertInv S c' := by
  obtain ⟨added, effects, appends⟩ := move.appends
  have kept {effect : Effect} (old : effect ∈ c.effects) : effect ∈ c'.effects :=
    effects ▸ mem_append_left added old
  constructor
  · intro b root member
    rw [effects] at member
    rcases List.mem_append.mp member with old | new
    · exact cert.certified b root old
    · obtain ⟨id, r, current, proposed, phase, rfl⟩ := appends.decisions b root new
      exact (inv.round id r current).certified phase proposed
  · intro b member
    rw [effects] at member
    rcases List.mem_append.mp member with old | new
    · obtain ⟨root, decided⟩ := cert.announced b old
      exact ⟨root, kept decided⟩
    · obtain ⟨root, decided⟩ := appends.announcements b new
      exact ⟨root, kept decided⟩

theorem CertInv.moves (cert : CertInv S c) (inv : VoteInv S c) (sound : S.Sound) (moves : Moves S c c') :
    CertInv S c' := by
  induction moves with
  | refl => exact cert
  | tail earlier last ih => exact ih.move (inv.moves sound earlier) last

theorem Moves.extends (moves : Moves S c c') : c.effects <+: c'.effects := by
  induction moves with
  | refl => exact prefix_refl _
  | tail _ last ih =>
    obtain ⟨added, effects, _⟩ := last.appends
    exact ih.trans ⟨added, effects.symm⟩

end Palimesh.Bft
