import Palimesh.Bft.Coordinator

namespace Palimesh.Bft

open Collections InsertionMap

/-- What a run of one validator is assumed to be fed. -/
structure Setting where
  cfg : CoordinatorConfig
  heard : BftMessage → Prop
  good : List Validator → Prop
  rooted : ChainBlock → Option Hex → Prop
  base : Int
  replays : Prop

/-- A node outside the validator set must not reach a quorum of no votes. -/
def Setting.Sound (S : Setting) : Prop :=
  ∀ validators, S.good validators →
    S.cfg.relaxedQuorum = false ∨ isKnownValidator validators S.cfg.localId = true

def Setting.Backs (S : Setting) (height : Int) (blockHash : Hex) (id : String) (root : Option Hex) : Prop :=
  ∃ m, S.heard m ∧ Coordinator.accepts S.cfg m = true ∧ m.type = .commit ∧ m.height = height ∧
    m.blockHash = blockHash ∧ toLowerCase m.senderId = id ∧ m.stateRoot = root

structure RoundConfigOk (S : Setting) (config : BftRoundConfig) : Prop where
  localId : config.localId = S.cfg.localId
  relaxed : config.relaxedQuorum = S.cfg.relaxedQuorum
  good : S.good config.validators

structure RoundOk (S : Setting) (r : BftRound) : Prop where
  config : RoundConfigOk S r.config
  height : ∀ b, r.proposedBlock = some b → b.number = r.height
  own : ∀ b, r.proposedBlock = some b → r.isValidator = true →
    ∃ root, r.prepareVotes.get? r.localKey = some ⟨b.hash, root⟩ ∧ S.rooted b root
  observer : r.isValidator = false → r.phase ≠ .commit ∧ r.phase ≠ .finalized
  prepares : ∀ id v, r.prepareVotes.get? id = some v → id ∈ memberIds r.config.validators
  commits : ∀ id v, r.commitVotes.get? id = some v → ∃ b, r.proposedBlock = some b ∧
    v.blockHash = b.hash ∧ id ∈ memberIds r.config.validators ∧
      (id = r.localKey ∨ S.Backs r.height b.hash id v.stateRoot)
  committed : r.phase = .commit ∨ r.phase = .finalized →
    ∃ b, r.proposedBlock = some b ∧ (r.isValidator = true →
      r.commitVotes.get? r.localKey = some ⟨b.hash, r.ownStateRoot⟩)
  decided : r.phase = .finalized → r.ownGroupQuorum r.commitVotes = true

variable {S : Setting} {r : BftRound}

theorem BftRound.localKey_member (validator : r.isValidator = true) :
    r.localKey ∈ memberIds r.config.validators :=
  (mem_memberIds r.config.validators r.config.localId).mpr validator

theorem RoundOk.localKey (ok : RoundOk S r) : r.localKey = S.cfg.localKey := by
  rw [BftRound.localKey, ok.config.localId, CoordinatorConfig.localKey]

variable {config : BftRoundConfig}

theorem RoundOk.new (ok : RoundConfigOk S config) (height : Int) :
    RoundOk S (.new height config) where
  config := ok
  height := by simp [BftRound.new]
  own := by simp [BftRound.new]
  observer := by simp [BftRound.new]
  prepares := by simp [BftRound.new]
  commits := by simp [BftRound.new]
  committed := by simp [BftRound.new]
  decided := by simp [BftRound.new]

theorem BftRound.handlePropose_new (height : Int) (config : BftRoundConfig) (block : ChainBlock)
    (senderId : String) (root : Option Hex) :
    ((new height config).handlePropose block senderId root = (new height config, none)) ∨
      (block.number = height ∧ (new height config).isValidator = false ∧
        (new height config).handlePropose block senderId root =
          ({ new height config with proposedBlock := some block, phase := .prepare }, none)) ∨
      (block.number = height ∧ (new height config).isValidator = true ∧
        (new height config).handlePropose block senderId root =
          (recordPrepare { new height config with proposedBlock := some block, phase := .prepare }
              (new height config).localKey ⟨block.hash, root⟩,
            some ((new height config).vote .prepare block.hash root))) := by
  unfold handlePropose
  split
  · exact .inl rfl
  · split
    · exact .inl rfl
    · rename_i _ same
      split
      · exact .inl rfl
      · split
        · exact .inl rfl
        · have number : block.number = height := Decidable.not_not.mp same
          by_cases validator : (new height config).isValidator
          · exact .inr (.inr ⟨number, validator, by simp [validator]⟩)
          · exact .inr (.inl ⟨number, by simpa using validator, by simp [validator]⟩)

variable {root : Option Hex}

theorem RoundOk.propose (ok : RoundConfigOk S config) {block : ChainBlock}
    (rooted : S.rooted block root) (senderId : String) :
    RoundOk S ((BftRound.new block.number config).handlePropose block senderId root).1 := by
  rcases BftRound.handlePropose_new block.number config block senderId root with
    refused | ⟨_, outside, silent⟩ | ⟨_, validator, voted⟩
  · rw [refused]
    exact .new ok block.number
  · rw [silent]
    refine ⟨ok, by simp [BftRound.new], ?_, by simp, by simp [BftRound.new], by simp [BftRound.new],
      by simp, by simp⟩
    intro b _ member
    exact absurd (outside.symm.trans member) Bool.false_ne_true
  · rw [voted]
    refine ⟨ok, by simp [BftRound.new, BftRound.recordPrepare], ?_, by simp [BftRound.recordPrepare], ?_,
      by simp [BftRound.new, BftRound.recordPrepare], by simp [BftRound.recordPrepare],
      by simp [BftRound.recordPrepare]⟩
    · intro b proposed _
      simp only [BftRound.recordPrepare, Option.some.injEq] at proposed
      subst proposed
      exact ⟨root, by simp [BftRound.recordPrepare, BftRound.localKey], rooted⟩
    · intro id v present
      change (InsertionMap.set .empty _ _).get? id = some v at present
      rw [get?_set] at present
      split at present
      · rename_i same
        exact same ▸ BftRound.localKey_member validator
      · simp at present

variable {id : String}

theorem BftRound.ownStateRoot_recordPrepare {vote : BftVote} (other : id ≠ r.localKey) :
    (r.recordPrepare id vote).ownStateRoot = r.ownStateRoot := by
  have away : r.localKey ≠ id := other.symm
  simp [BftRound.ownStateRoot, BftRound.recordPrepare, BftRound.localKey] at away ⊢
  rw [if_neg away]

variable {senderId : String}

section

variable (ok : RoundOk S r) {b : ChainBlock}
include ok

theorem RoundOk.sender_not_local (proposed : r.proposedBlock = some b)
    (known : isKnownValidator r.config.validators senderId = true)
    (first : r.prepareVotes.has (toLowerCase senderId) = false) : toLowerCase senderId ≠ r.localKey := by
  intro same
  cases validator : r.isValidator with
  | true =>
    obtain ⟨root, voted, _⟩ := ok.own b proposed validator
    rw [same, InsertionMap.has, voted] at first
    exact absurd first (by simp)
  | false =>
    have member := (mem_memberIds r.config.validators senderId).mpr known
    rw [same] at member
    have inside := (mem_memberIds r.config.validators r.config.localId).mp member
    exact absurd (validator.symm.trans inside) Bool.false_ne_true

theorem RoundOk.recordPrepare (other : id ≠ r.localKey) (member : id ∈ memberIds r.config.validators)
    (vote : BftVote) : RoundOk S (r.recordPrepare id vote) := { ok with
  own := by
    intro b proposed validator
    obtain ⟨root, voted, rooted⟩ := ok.own b proposed validator
    refine ⟨root, ?_, rooted⟩
    have away : r.localKey ≠ id := other.symm
    change (r.prepareVotes.set id vote).get? r.localKey = _
    rw [get?_set, if_neg away, voted]
  prepares := by
    intro voter v present
    change (r.prepareVotes.set id vote).get? voter = some v at present
    rw [get?_set] at present
    split at present
    · rename_i same
      exact same ▸ member
    · exact ok.prepares voter v present
  committed := by
    intro phase
    rw [BftRound.ownStateRoot_recordPrepare other]
    exact ok.committed phase }

theorem RoundOk.recordCommit (proposed : r.proposedBlock = some b)
    (member : id ∈ memberIds r.config.validators) (backed : S.Backs r.height b.hash id root)
    (fresh : r.commitVotes.has id = false) (open_ : r.phase ≠ .finalized)
    : RoundOk S (r.recordCommit id ⟨b.hash, root⟩) := { ok with
  commits := by
    intro other v present
    change (r.commitVotes.set id ⟨b.hash, root⟩).get? other = some v at present
    rw [get?_set] at present
    split at present
    · rename_i same
      cases present
      subst same
      exact ⟨b, proposed, rfl, member, .inr backed⟩
    · exact ok.commits other v present
  committed := by
    intro phase
    obtain ⟨block, found, ownCommit⟩ := ok.committed phase
    refine ⟨block, found, ?_⟩
    intro validator
    have present := ownCommit validator
    have away : r.localKey ≠ id := by
      intro same
      rw [← same, InsertionMap.has, present] at fresh
      exact absurd fresh (by simp)
    change (r.commitVotes.set id ⟨b.hash, root⟩).get? r.localKey = _
    rw [get?_set, if_neg away, present]
    rfl
  decided := by
    intro phase
    exact absurd phase open_ }

theorem RoundOk.enterCommit (proposed : r.proposedBlock = some b) (validator : r.isValidator = true)
    : RoundOk S ((r.recordCommit r.localKey ⟨b.hash, r.ownStateRoot⟩).enter .commit) := { ok with
  observer := by
    intro outside
    exact absurd (outside.symm.trans validator) Bool.false_ne_true
  commits := by
    intro other v present
    change (r.commitVotes.set r.localKey ⟨b.hash, r.ownStateRoot⟩).get? other = some v at present
    rw [get?_set] at present
    split at present
    · rename_i same
      cases present
      exact ⟨b, proposed, rfl, same ▸ BftRound.localKey_member validator, .inl same⟩
    · exact ok.commits other v present
  committed := by
    intro _
    refine ⟨b, proposed, fun _ => ?_⟩
    change (r.commitVotes.set r.localKey ⟨b.hash, r.ownStateRoot⟩).get? r.localKey = _
    rw [get?_set, if_pos rfl]
    rfl
  decided := by
    intro phase
    cases phase }

theorem RoundOk.finalize (phase : r.phase = .commit) (validator : r.isValidator = true)
    (quorum : r.ownGroupQuorum r.commitVotes = true) : RoundOk S (r.enter .finalized) := { ok with
  observer := by
    intro outside
    exact absurd (outside.symm.trans validator) Bool.false_ne_true
  committed := fun _ => ok.committed (.inl phase)
  decided := fun _ => quorum }

theorem RoundOk.no_observer_quorum (sound : S.Sound) (outside : r.isValidator = false) :
    r.ownGroupQuorum r.prepareVotes = false := by
  have silent : r.prepareVotes.get? r.localKey = none := by
    cases voted : r.prepareVotes.get? r.localKey with
    | none => rfl
    | some v =>
      have inside := (mem_memberIds r.config.validators r.config.localId).mp (ok.prepares _ v voted)
      exact absurd (outside.symm.trans inside) Bool.false_ne_true
  have strict : r.config.relaxedQuorum = false := by
    rcases sound _ ok.config.good with strict | member
    · exact ok.config.relaxed.trans strict
    · rw [← ok.config.localId] at member
      exact absurd (outside.symm.trans member) Bool.false_ne_true
  rw [BftRound.ownGroupQuorum, group_empty_without_anchor silent, strict, empty_group_below]

theorem RoundOk.evaluatePrepares (sound : S.Sound) (proposed : r.proposedBlock = some b)
    : RoundOk S (r.evaluatePrepares b.hash).1 := by
  unfold BftRound.evaluatePrepares
  split
  · rename_i quorum
    split
    · rename_i validator
      have committed := ok.enterCommit proposed validator
      by_cases enough : ((r.recordCommit r.localKey ⟨b.hash, r.ownStateRoot⟩).enter .commit).ownGroupQuorum
          ((r.recordCommit r.localKey ⟨b.hash, r.ownStateRoot⟩).enter .commit).commitVotes
      · simpa [enough] using committed.finalize rfl validator enough
      · simpa [enough] using committed
    · rename_i outside
      rw [ok.no_observer_quorum sound (by simpa using outside)] at quorum
      cases quorum
  · exact ok

end

theorem BftRound.handlePrepare_cases (senderId : String) (blockHash : Hex) (root : Option Hex) :
    r.handlePrepare senderId blockHash root = (r, none) ∨
      ∃ b, r.phase = .prepare ∧ r.proposedBlock = some b ∧ blockHash = b.hash ∧
        isKnownValidator r.config.validators senderId = true ∧
        r.prepareVotes.has (toLowerCase senderId) = false ∧
        r.handlePrepare senderId blockHash root =
          (r.recordPrepare (toLowerCase senderId) ⟨blockHash, root⟩).evaluatePrepares blockHash := by
  unfold BftRound.handlePrepare
  split
  · exact .inl rfl
  · rename_i phase
    split
    · exact .inl rfl
    · rename_i b proposed
      split
      · exact .inl rfl
      · rename_i known
        split
        · exact .inl rfl
        · rename_i same
          split
          · exact .inl rfl
          · rename_i first
            exact .inr ⟨b, Decidable.not_not.mp phase, proposed, Decidable.not_not.mp same,
              by simpa using known, by simpa using first, rfl⟩

theorem RoundOk.handlePrepare (ok : RoundOk S r) (sound : S.Sound) (senderId : String) (blockHash : Hex)
    (root : Option Hex) : RoundOk S (r.handlePrepare senderId blockHash root).1 := by
  rcases BftRound.handlePrepare_cases (r := r) senderId blockHash root with
    dropped | ⟨b, _, proposed, rfl, known, first, counted⟩
  · rw [dropped]
    exact ok
  · rw [counted]
    have member := (mem_memberIds r.config.validators senderId).mpr known
    exact (ok.recordPrepare (ok.sender_not_local proposed known first) member _).evaluatePrepares sound proposed

structure BftRound.SameProposal (r r' : BftRound) : Prop where
  config : r'.config = r.config
  height : r'.height = r.height
  proposedBlock : r'.proposedBlock = r.proposedBlock

theorem BftRound.evaluatePrepares_same (blockHash : Hex) : r.SameProposal (r.evaluatePrepares blockHash).1 := by
  unfold evaluatePrepares
  split
  · split
    · dsimp only
      split <;> exact ⟨rfl, rfl, rfl⟩
    · exact ⟨rfl, rfl, rfl⟩
  · exact ⟨rfl, rfl, rfl⟩

theorem BftRound.handlePrepare_same (senderId : String) (blockHash : Hex) (root : Option Hex) :
    r.SameProposal (r.handlePrepare senderId blockHash root).1 := by
  rcases handlePrepare_cases (r := r) senderId blockHash root with
    dropped | ⟨b, _, _, _, _, _, counted⟩
  · rw [dropped]
    exact ⟨rfl, rfl, rfl⟩
  · rw [counted]
    have same := evaluatePrepares_same (r := r.recordPrepare (toLowerCase senderId) ⟨blockHash, root⟩) blockHash
    exact { same with }

theorem BftRound.handleCommit_cases (senderId : String) (blockHash : Hex) (root : Option Hex) :
    r.handleCommit senderId blockHash root = (r, false) ∨
      ∃ b, (r.phase = .commit ∨ r.phase = .prepare) ∧ r.proposedBlock = some b ∧ blockHash = b.hash ∧
        isKnownValidator r.config.validators senderId = true ∧ r.commitVotes.has (toLowerCase senderId) = false ∧
        r.handleCommit senderId blockHash root =
          let voted := r.recordCommit (toLowerCase senderId) ⟨blockHash, root⟩
          if r.phase = .commit && voted.ownGroupQuorum voted.commitVotes then (voted.enter .finalized, true)
          else (voted, false) := by
  unfold BftRound.handleCommit
  split
  · exact .inl rfl
  · rename_i phase
    split
    · exact .inl rfl
    · rename_i known
      split
      · exact .inl rfl
      · rename_i b proposed
        split
        · exact .inl rfl
        · rename_i same
          split
          · exact .inl rfl
          · rename_i first
            have running : r.phase = .commit ∨ r.phase = .prepare := by
              simpa only [ne_eq, not_and_or, not_not] using phase
            exact .inr ⟨b, running, proposed, Decidable.not_not.mp same, by simpa using known, by simpa using first, rfl⟩

theorem BftRound.handleCommit_same (senderId : String) (blockHash : Hex) (root : Option Hex) :
    r.SameProposal (r.handleCommit senderId blockHash root).1 := by
  rcases handleCommit_cases (r := r) senderId blockHash root with dropped | ⟨_, _, _, _, _, _, counted⟩
  · rw [dropped]
    exact ⟨rfl, rfl, rfl⟩
  · rw [counted]
    dsimp only
    split <;> exact ⟨rfl, rfl, rfl⟩

theorem BftRound.handlePrepare_outgoing {blockHash : Hex}
    {r' : BftRound} {out : BftMessage} (result : r.handlePrepare senderId blockHash root = (r', some out)) :
    ∃ b, r'.phase = .commit ∧ r'.proposedBlock = some b ∧ out.height = r'.height ∧ out.blockHash = b.hash := by
  rcases handlePrepare_cases (r := r) senderId blockHash root with
    dropped | ⟨b, _, proposed, hash, _, _, counted⟩
  · rw [dropped] at result
    cases result
  · rw [counted] at result
    unfold evaluatePrepares at result
    split at result
    · split at result
      · dsimp only at result
        split at result
        · cases result
        · cases result
          exact ⟨b, rfl, proposed, rfl, hash⟩
      · cases result
    · cases result

theorem BftRound.handleCommit_finalized {blockHash : Hex}
    (finalized : (r.handleCommit senderId blockHash root).2 = true) :
    (r.handleCommit senderId blockHash root).1.phase = .finalized := by
  rcases handleCommit_cases (r := r) senderId blockHash root with dropped | ⟨_, _, _, _, _, _, counted⟩
  · rw [dropped] at finalized
    cases finalized
  · rw [counted] at finalized ⊢
    dsimp only at finalized ⊢
    split at finalized
    · rename_i enough
      rw [if_pos enough]
      rfl
    · cases finalized

theorem RoundOk.handleCommit (ok : RoundOk S r) {m : BftMessage} (heard : S.heard m)
    (accepted : Coordinator.accepts S.cfg m = true) (type : m.type = .commit) (height : m.height = r.height) :
    RoundOk S (r.handleCommit m.senderId m.blockHash m.stateRoot).1 := by
  rcases BftRound.handleCommit_cases (r := r) m.senderId m.blockHash m.stateRoot with
    dropped | ⟨b, phase, proposed, hash, known, first, counted⟩
  · rw [dropped]
    exact ok
  · have running : r.phase ≠ .finalized := by rcases phase with phase | phase <;> simp [phase]
    have backed : S.Backs r.height b.hash (toLowerCase m.senderId) m.stateRoot :=
      ⟨m, heard, accepted, type, height, hash, rfl, rfl⟩
    have voted := ok.recordCommit proposed ((mem_memberIds r.config.validators m.senderId).mpr known) backed first running
    rw [counted, hash]
    dsimp only
    split
    · rename_i enough
      rw [Bool.and_eq_true, decide_eq_true_eq] at enough
      have validator : r.isValidator = true := by
        cases outside : r.isValidator with
        | true => rfl
        | false => exact absurd enough.1 (ok.observer outside).1
      exact voted.finalize enough.1 validator enough.2
    · exact voted

end Palimesh.Bft
