import Palimesh.Bft.RoundInvariant

namespace Palimesh.Bft

open Collections List InsertionMap

namespace BftRound

section Progress

inductive RoundCall
  | propose (block : ChainBlock) (senderId : String) (localStateRoot : Option Hex)
  | prepare (senderId : String) (blockHash : Hex) (stateRoot : Option Hex)
  | commit (senderId : String) (blockHash : Hex) (stateRoot : Option Hex)

def take (r : BftRound) : RoundCall → BftRound
  | .propose block senderId localStateRoot => (r.handlePropose block senderId localStateRoot).1
  | .prepare senderId blockHash stateRoot => (r.handlePrepare senderId blockHash stateRoot).1
  | .commit senderId blockHash stateRoot => (r.handleCommit senderId blockHash stateRoot).1

/-- No phase goes on once the votes at hand are enough to leave it. -/
structure QuorumTaken (r : BftRound) : Prop where
  prepare : r.phase = .prepare → r.ownGroupQuorum r.prepareVotes = false
  commit : r.phase = .commit → r.ownGroupQuorum r.commitVotes = false

theorem ownGroup_single (config : BftRoundConfig) (height : Int) (vote : BftVote) :
    (new height config).ownGroupQuorum (InsertionMap.empty.set (new height config).localKey vote) =
      hasQuorum [toLowerCase config.localId] config.validators config.relaxedQuorum := by
  have joined : vote.joins vote = true := by simp [BftVote.joins]
  have group : (pickWinningVoteGroup (InsertionMap.empty.set (new height config).localKey vote)
      (new height config).localKey).ids = [(new height config).localKey] := by
    simp [pickWinningVoteGroup, InsertionMap.set, InsertionMap.empty, InsertionMap.get?, joined]
  rw [ownGroupQuorum, group]
  rfl

variable {r : BftRound} {config : BftRoundConfig} {height : Int}

theorem evaluatePrepares_taken (validator : r.isValidator = true) (phase : r.phase = .prepare) (blockHash : Hex) :
    QuorumTaken (r.evaluatePrepares blockHash).1 ∧ (r.evaluatePrepares blockHash).1.phase ≠ .propose := by
  unfold evaluatePrepares
  split
  · dsimp only
    split
    · exact ⟨⟨nofun, nofun⟩, nofun⟩
    · rename_i short
      exact ⟨⟨nofun, fun _ => by simpa using short⟩, nofun⟩
  · rename_i short
    refine ⟨⟨fun _ => by simpa using short, fun again => ?_⟩, fun again => ?_⟩
    · rw [phase] at again
      cases again
    · rw [phase] at again
      cases again

theorem take_taken (alone : hasQuorum [toLowerCase config.localId] config.validators config.relaxedQuorum = false)
    (validator : isKnownValidator config.validators config.localId = true) (same : r.config = config)
    (taken : QuorumTaken r) (fresh : r.phase = .propose → r = new height config) (call : RoundCall) :
    (r.take call).config = config ∧ QuorumTaken (r.take call) ∧
      ((r.take call).phase = .propose → r.take call = new height config) := by
  have member : r.isValidator = true := by rw [isValidator, same, validator]
  cases call with
  | propose block senderId root =>
    by_cases waiting : r.phase = .propose
    · cases fresh waiting
      rcases handlePropose_new height config block senderId root with refused | ⟨_, outside, _⟩ | ⟨_, _, voted⟩
      · rw [take, refused]
        exact ⟨same, taken, fresh⟩
      · rw [member] at outside
        cases outside
      · rw [take, voted]
        exact ⟨rfl, ⟨fun _ => (ownGroup_single config height _).trans alone, nofun⟩,
          nofun⟩
    · rw [take, handlePropose, if_pos waiting]
      exact ⟨same, taken, fresh⟩
  | prepare senderId blockHash root =>
    rcases handlePrepare_cases (r := r) senderId blockHash root with dropped | ⟨_, phase, _, _, _, _, counted⟩
    · rw [take, dropped]
      exact ⟨same, taken, fresh⟩
    · have done := evaluatePrepares_taken (r := r.recordPrepare (toLowerCase senderId) ⟨blockHash, root⟩) member phase
        blockHash
      rw [take, counted]
      exact ⟨(evaluatePrepares_same blockHash).config.trans same, done.1, fun again => absurd again done.2⟩
  | commit senderId blockHash root =>
    rcases handleCommit_cases (r := r) senderId blockHash root with dropped | ⟨_, phase, _, _, _, _, counted⟩
    · rw [take, dropped]
      exact ⟨same, taken, fresh⟩
    · have past : r.phase ≠ .propose := by rcases phase with phase | phase <;> simp [phase]
      rw [take, counted]
      dsimp only
      split
      · exact ⟨same, ⟨nofun, nofun⟩, nofun⟩
      · rename_i short
        refine ⟨same, ⟨taken.prepare, fun committing => ?_⟩, fun again => absurd again past⟩
        have waiting : r.phase = .commit := committing
        simpa [waiting] using short

/-- A validator's round never waits with a quorum at hand exactly when its own stake is not a quorum. -/
theorem quorum_never_lost_iff (config : BftRoundConfig) (height : Int)
    (validator : isKnownValidator config.validators config.localId = true) :
    (∀ calls : List RoundCall, QuorumTaken (calls.foldl take (new height config))) ↔
      hasQuorum [toLowerCase config.localId] config.validators config.relaxedQuorum = false := by
  constructor
  · intro taken
    let block : ChainBlock :=
      { number := height, hash := "", parentHash := "", proposer := config.localId, timestampMs := 0, txs := [],
        finalized := false }
    have proposed := (taken [.propose block config.localId none]).prepare
    simp only [foldl_cons, foldl_nil, take, handlePropose, new, block, validator, isValidator, ne_eq,
      not_true_eq_false, if_false, Bool.not_true, Bool.false_eq_true, if_true] at proposed
    exact (ownGroup_single config height ⟨"", none⟩).symm.trans (proposed rfl)
  · intro alone calls
    have start : (new height config).config = config ∧ QuorumTaken (new height config) ∧
        ((new height config).phase = .propose → new height config = new height config) :=
      ⟨rfl, ⟨by simp [new], by simp [new]⟩, fun _ => rfl⟩
    have run : ∀ (calls : List RoundCall) (r : BftRound),
        (r.config = config ∧ QuorumTaken r ∧ (r.phase = .propose → r = new height config)) → QuorumTaken (calls.foldl take r) := by
      intro calls
      induction calls with
      | nil => exact fun r kept => kept.2.1
      | cons call calls ih => exact fun r kept => ih _ (take_taken alone validator kept.1 kept.2.1 kept.2.2 call)
    exact run calls _ start

def threeValidators : BftRoundConfig := ⟨[⟨"0xa", 1⟩, ⟨"0xb", 1⟩, ⟨"0xc", 1⟩], "0xa", false⟩

def firstBlock : ChainBlock :=
  { number := 1, hash := "0x1", parentHash := "0x0", proposer := "0xb", timestampMs := 0, txs := [], finalized := false }

theorem quorum_never_lost_three : isKnownValidator threeValidators.validators threeValidators.localId = true ∧
    ∀ calls : List RoundCall, QuorumTaken (calls.foldl take (new 1 threeValidators)) :=
  ⟨by decide +kernel, (quorum_never_lost_iff threeValidators 1 (by decide +kernel)).mpr (by decide +kernel)⟩

theorem sole_validator_waits :
    ¬ QuorumTaken ((new 1 ⟨[⟨"0xb", 1⟩], "0xb", false⟩).take (.propose firstBlock "0xb" none)) := by
  intro taken
  have waiting := taken.prepare (by decide +kernel)
  revert waiting
  decide +kernel

end Progress

section Order

def deliver (r : BftRound) (messages : List BftMessage) : BftRound :=
  messages.foldl (fun r m => (r.handleMessage m).1) r

def BallotKey (m : BftMessage) : MessageType × String := (m.type, toLowerCase m.senderId)

def OneVoteEach (messages : List BftMessage) : Prop :=
  (∀ m ∈ messages, m.type ≠ .propose) ∧ (messages.map BallotKey).Nodup

variable (config : BftRoundConfig) (b : ChainBlock) (own : BftVote) (type : MessageType) (messages : List BftMessage)

def counts (m : BftMessage) : Bool :=
  m.type = type && m.blockHash = b.hash && isKnownValidator config.validators m.senderId &&
    toLowerCase m.senderId ≠ toLowerCase config.localId

def weight (id : String) (vote : BftVote) : Nat := if own.joins vote then stakeOf config.validators id else 0

def stakeFor : Nat :=
  (messages.map fun m => if counts config b type m then
    weight config own (toLowerCase m.senderId) ⟨m.blockHash, m.stateRoot⟩ else 0).sum

def Enough : Prop :=
  quorumThreshold config.validators config.relaxedQuorum ≤
    stakeOf config.validators (toLowerCase config.localId) + stakeFor config b own type messages

/-- The prepares are only looked at when one of another validator comes in. -/
def Agreed : Prop :=
  (∃ m ∈ messages, counts config b .prepare m = true) ∧ Enough config b own .prepare messages

def others (votes : Votes) : Nat :=
  (votes.entries.map fun entry =>
    if entry.1 = toLowerCase config.localId then 0 else weight config own entry.1 entry.2).sum

theorem others_set_local (votes : Votes) (vote : BftVote) :
    others config own (votes.set (toLowerCase config.localId) vote) = others config own votes := by
  unfold others InsertionMap.set
  split
  · rw [map_map]
    congr 1
    apply map_congr_left
    intro entry _
    by_cases here : entry.1 = toLowerCase config.localId
    · simp [here]
    · simp [here]
  · simp

variable {config b own}

theorem others_set_new {votes : Votes} {id : String} (vote : BftVote) (fresh : votes.has id = false)
    (other : id ≠ toLowerCase config.localId) :
    others config own (votes.set id vote) = others config own votes + weight config own id vote := by
  have absent : id ∉ votes.entries.map Prod.fst := by
    intro member
    have present := (mem_keys votes id).mp member
    rw [InsertionMap.has] at fresh
    rw [fresh] at present
    cases present
  unfold others InsertionMap.set
  rw [dif_neg absent]
  simp [other]

theorem group_weight (entries : List (String × BftVote)) (nodup : (entries.map Prod.fst).Nodup)
    (voted : (toLowerCase config.localId, own) ∈ entries) :
    (((entries.filter fun entry => own.joins entry.2).map Prod.fst).map (stakeOf config.validators)).sum =
      stakeOf config.validators (toLowerCase config.localId) + (entries.map fun entry =>
        if entry.1 = toLowerCase config.localId then 0 else weight config own entry.1 entry.2).sum := by
  have joined : own.joins own = true := by simp [BftVote.joins]
  have group : (((entries.filter fun entry => own.joins entry.2).map Prod.fst).map (stakeOf config.validators)).sum =
      (entries.map fun entry => weight config own entry.1 entry.2).sum := by
    clear nodup voted
    induction entries with
    | nil => rfl
    | cons entry entries ih =>
      rw [map_cons, sum_cons, ← ih]
      by_cases joins : own.joins entry.2
      · simp [joins, weight]
      · simp [joins, weight]
  have split := perm_cons_erase voted
  have rest : ((entries.erase (toLowerCase config.localId, own)).map fun entry => weight config own entry.1 entry.2) =
      (entries.erase (toLowerCase config.localId, own)).map fun entry =>
        if entry.1 = toLowerCase config.localId then 0 else weight config own entry.1 entry.2 := by
    apply map_congr_left
    intro other member
    have apart := (nodup_cons.mp ((split.map Prod.fst).nodup_iff.mp nodup)).1
    rw [if_neg fun same => apart (List.mem_map.mpr ⟨other, member, same⟩)]
  rw [group, (split.map _).sum_eq, (split.map _).sum_eq, map_cons, map_cons, sum_cons, sum_cons, rest]
  simp [weight, joined]

structure Tallied (config : BftRoundConfig) (b : ChainBlock) (own : BftVote) (type : MessageType)
    (done : List BftMessage) (votes : Votes) : Prop where
  delivered : ∀ id ≠ toLowerCase config.localId, votes.has id = true → (type, id) ∈ done.map BallotKey
  stake : others config own votes = stakeFor config b own type done

variable {type : MessageType} {done : List BftMessage} {votes : Votes} {m : BftMessage}

theorem Tallied.quorum {r : BftRound} (tally : Tallied r.config b own type done votes)
    (voted : votes.get? r.localKey = some own) :
    r.ownGroupQuorum votes = true ↔ Enough r.config b own type done := by
  have weighed := group_weight votes.entries votes.nodup ((mem_entries votes r.localKey own).mpr voted)
  rw [ownGroupQuorum, hasQuorum, decide_eq_true_eq, accumulatedStake_eq_sum, pickWinningVoteGroup, voted]
  rw [weighed, ← others, tally.stake, Enough]

theorem stakeFor_snoc : stakeFor config b own type (done ++ [m]) = stakeFor config b own type done +
    if counts config b type m then weight config own (toLowerCase m.senderId) ⟨m.blockHash, m.stateRoot⟩ else 0 := by
  simp [stakeFor]

theorem Enough.snoc (enough : Enough config b own type done) : Enough config b own type (done ++ [m]) := by
  unfold Enough at enough ⊢
  rw [stakeFor_snoc]
  omega

theorem Agreed.snoc (agreed : Agreed config b own done) : Agreed config b own (done ++ [m]) := by
  rcases agreed with ⟨⟨first, member, counted⟩, enough⟩
  exact ⟨⟨first, mem_append_left _ member, counted⟩, enough.snoc⟩

theorem enough_skip (skipped : counts config b type m = false) :
    Enough config b own type (done ++ [m]) ↔ Enough config b own type done := by
  simp [Enough, stakeFor_snoc, skipped]

theorem agreed_skip (skipped : counts config b .prepare m = false) :
    Agreed config b own (done ++ [m]) ↔ Agreed config b own done := by
  simp [Agreed, enough_skip skipped, or_and_right, exists_or, skipped]

section

variable (tally : Tallied config b own type done votes)
include tally

theorem Tallied.skip (skipped : counts config b type m = false) : Tallied config b own type (done ++ [m]) votes where
  delivered id other present := by
    rw [map_append]
    exact mem_append_left _ (tally.delivered id other present)
  stake := by simp [stakeFor_snoc, skipped, tally.stake]

theorem Tallied.recordOwn (vote : BftVote) :
    Tallied config b own type done (votes.set (toLowerCase config.localId) vote) where
  delivered id other present := by
    rw [InsertionMap.has, get?_set, if_neg other] at present
    exact tally.delivered id other present
  stake := (others_set_local config own votes vote).trans tally.stake

theorem Tallied.fresh (new : BallotKey m ∉ done.map BallotKey) (counted : counts config b type m = true)
    : votes.has (toLowerCase m.senderId) = false := by
  simp only [counts, Bool.and_eq_true, decide_eq_true_eq] at counted
  by_contra present
  have delivered := tally.delivered _ counted.2 (by simpa using present)
  rw [← counted.1.1.1] at delivered
  exact new delivered

theorem Tallied.vote (new : BallotKey m ∉ done.map BallotKey) (counted : counts config b type m = true) :
    Tallied config b own type (done ++ [m]) (votes.set (toLowerCase m.senderId) ⟨m.blockHash, m.stateRoot⟩) := by
  have fresh := tally.fresh new counted
  have facts := counted
  simp only [counts, Bool.and_eq_true, decide_eq_true_eq] at facts
  constructor
  · intro id other present
    rw [map_append, mem_append]
    rw [InsertionMap.has, get?_set] at present
    split at present
    · rename_i same
      exact .inr (by simp [BallotKey, facts.1.1.1, same])
    · exact .inl (tally.delivered id other present)
  · rw [others_set_new _ fresh facts.2, stakeFor_snoc, if_pos counted, tally.stake]

end

inductive Standing (config : BftRoundConfig) (b : ChainBlock) (own : BftVote) (done : List BftMessage) :
    BftRound → Prop
  | preparing {r : BftRound} (phase : r.phase = .prepare) (short : ¬ Agreed config b own done)
      (voted : r.prepareVotes.get? (toLowerCase config.localId) = some own)
      (prepares : Tallied config b own .prepare done r.prepareVotes)
      (commits : Tallied config b own .commit done r.commitVotes) : Standing config b own done r
  | committing {r : BftRound} (phase : r.phase = .commit) (agreed : Agreed config b own done)
      (short : ¬ Enough config b own .commit done)
      (voted : r.commitVotes.get? (toLowerCase config.localId) = some own)
      (commits : Tallied config b own .commit done r.commitVotes) : Standing config b own done r
  | decided {r : BftRound} (phase : r.phase = .finalized) (agreed : Agreed config b own done)
      (enough : Enough config b own .commit done) : Standing config b own done r

variable {r : BftRound}

theorem counts_type (other : m.type ≠ type) : counts config b type m = false := by simp [counts, other]

theorem handlePrepare_counted (phase : r.phase = .prepare) (proposed : r.proposedBlock = some b)
    (counted : counts r.config b .prepare m = true) (fresh : r.prepareVotes.has (toLowerCase m.senderId) = false) :
    r.handlePrepare m.senderId m.blockHash m.stateRoot =
      (r.recordPrepare (toLowerCase m.senderId) ⟨m.blockHash, m.stateRoot⟩).evaluatePrepares b.hash := by
  simp only [counts, Bool.and_eq_true, decide_eq_true_eq] at counted
  simp [handlePrepare, phase, proposed, counted.1.1.2, counted.1.2, fresh]

theorem own_sender (skipped : counts config b type m = false) (kind : m.type = type) (hash : m.blockHash = b.hash)
    (known : isKnownValidator config.validators m.senderId = true) :
    toLowerCase m.senderId = toLowerCase config.localId := by simpa [counts, kind, hash, known] using skipped

theorem get?_set_fresh {id key : String} (voted : votes.get? id = some own) (fresh : votes.has key = false)
    (vote : BftVote) : (votes.set key vote).get? id = some own := by
  have other : id ≠ key := by
    rintro rfl
    rw [InsertionMap.has, voted] at fresh
    cases fresh
  rw [get?_set, if_neg other, voted]

theorem handlePrepare_skipped (proposed : r.proposedBlock = some b) (kind : m.type = .prepare)
    (voted : r.prepareVotes.get? r.localKey = some own) (skipped : counts r.config b .prepare m = false) :
    r.handlePrepare m.senderId m.blockHash m.stateRoot = (r, none) := by
  rcases handlePrepare_cases (r := r) m.senderId m.blockHash m.stateRoot with dropped | ⟨b', _, found, hash, known, fresh, _⟩
  · exact dropped
  · cases proposed.symm.trans found
    rw [InsertionMap.has, own_sender skipped kind hash known, ← localKey, voted] at fresh
    cases fresh

/-- The own prepare is what the own commit repeats, so one vote anchors both tallies. -/
theorem Standing.evaluate (validator : r.isValidator = true) (phase : r.phase = .prepare)
    (hash : own.blockHash = b.hash) (voted : r.prepareVotes.get? r.localKey = some own)
    (looked : ∃ m ∈ done, counts r.config b .prepare m = true)
    (prepares : Tallied r.config b own .prepare done r.prepareVotes)
    (commits : Tallied r.config b own .commit done r.commitVotes) :
    Standing r.config b own done (r.evaluatePrepares b.hash).1 := by
  have again : (⟨b.hash, r.ownStateRoot⟩ : BftVote) = own := by
    rw [ownStateRoot, voted, ← hash]
    rfl
  have prepared := prepares.quorum voted
  have tally := commits.recordOwn own
  have recorded : (r.commitVotes.set r.localKey own).get? r.localKey = some own := by simp
  have committed := tally.quorum (r := (r.recordCommit r.localKey own).enter .commit) recorded
  unfold evaluatePrepares
  rw [again, if_pos validator]
  split
  · rename_i quorum
    dsimp only
    split
    · rename_i enough
      exact .decided rfl ⟨looked, prepared.mp quorum⟩ (committed.mp enough)
    · rename_i short
      exact .committing rfl ⟨looked, prepared.mp quorum⟩ (fun enough => short (committed.mpr enough))
        recorded tally
  · rename_i short
    exact .preparing phase (fun agreed => short (prepared.mpr agreed.2)) voted prepares commits

theorem Standing.prepare (validator : r.isValidator = true) (hash : own.blockHash = b.hash)
    (proposed : r.proposedBlock = some b) (standing : Standing r.config b own done r)
    (new : BallotKey m ∉ done.map BallotKey) (kind : m.type = .prepare) :
    Standing r.config b own (done ++ [m]) (r.handlePrepare m.senderId m.blockHash m.stateRoot).1 := by
  have silent : counts r.config b .commit m = false := counts_type (by simp [kind])
  cases standing with
  | preparing phase short voted prepares commits =>
    by_cases counted : counts r.config b .prepare m = true
    · have fresh := prepares.fresh new counted
      rw [handlePrepare_counted phase proposed counted fresh]
      exact Standing.evaluate (r := r.recordPrepare _ _) validator phase hash (get?_set_fresh voted fresh _)
        ⟨m, mem_append_right _ (mem_singleton_self m), counted⟩ (prepares.vote new counted)
        (commits.skip silent)
    · have skipped : counts r.config b .prepare m = false := by simpa using counted
      rw [handlePrepare_skipped proposed kind voted skipped]
      exact .preparing phase (fun agreed => short ((agreed_skip skipped).mp agreed)) voted (prepares.skip skipped)
        (commits.skip silent)
  | committing phase agreed short voted commits =>
    rw [handlePrepare, if_pos (by simp [phase])]
    exact .committing phase agreed.snoc (fun enough => short ((enough_skip silent).mp enough)) voted (commits.skip silent)
  | decided phase agreed enough =>
    rw [handlePrepare, if_pos (by simp [phase])]
    exact .decided phase agreed.snoc enough.snoc

theorem handleCommit_counted (phase : r.phase = .commit ∨ r.phase = .prepare) (proposed : r.proposedBlock = some b)
    (counted : counts r.config b .commit m = true) (fresh : r.commitVotes.has (toLowerCase m.senderId) = false) :
    r.handleCommit m.senderId m.blockHash m.stateRoot =
      let voted := r.recordCommit (toLowerCase m.senderId) ⟨m.blockHash, m.stateRoot⟩
      if r.phase = .commit && voted.ownGroupQuorum voted.commitVotes then (voted.enter .finalized, true)
      else (voted, false) := by
  have running : ¬ (r.phase ≠ .commit ∧ r.phase ≠ .prepare) := by rcases phase with phase | phase <;> simp [phase]
  simp only [counts, Bool.and_eq_true, decide_eq_true_eq] at counted
  rw [handleCommit, if_neg running]
  simp [proposed, counted.1.1.2, counted.1.2, fresh]

theorem Standing.commit (proposed : r.proposedBlock = some b) (standing : Standing r.config b own done r)
    (new : BallotKey m ∉ done.map BallotKey) (kind : m.type = .commit) :
    Standing r.config b own (done ++ [m]) (r.handleCommit m.senderId m.blockHash m.stateRoot).1 := by
  have silent : counts r.config b .prepare m = false := counts_type (by simp [kind])
  cases standing with
  | preparing phase short voted prepares commits =>
    have still : ¬ Agreed r.config b own (done ++ [m]) := fun agreed => short ((agreed_skip silent).mp agreed)
    by_cases counted : counts r.config b .commit m = true
    · rw [handleCommit_counted (.inr phase) proposed counted (commits.fresh new counted)]
      rw [if_neg (by simp [phase])]
      exact .preparing phase still voted (prepares.skip silent) (commits.vote new counted)
    · have skipped : counts r.config b .commit m = false := by simpa using counted
      rcases handleCommit_cases (r := r) m.senderId m.blockHash m.stateRoot with
        dropped | ⟨b', _, found, same, known, _, recorded⟩
      · rw [dropped]
        exact .preparing phase still voted (prepares.skip silent) (commits.skip skipped)
      · -- a commit under the own id is taken up here, and replaced when the round commits
        cases proposed.symm.trans found
        rw [recorded]
        rw [if_neg (by simp [phase]), own_sender skipped kind same known]
        exact .preparing phase still voted (prepares.skip silent) ((commits.recordOwn _).skip skipped)
  | committing phase agreed short voted commits =>
    by_cases counted : counts r.config b .commit m = true
    · have fresh := commits.fresh new counted
      have tally := commits.vote new counted
      have kept := get?_set_fresh voted fresh ⟨m.blockHash, m.stateRoot⟩
      have quorum := tally.quorum (r := r.recordCommit (toLowerCase m.senderId) ⟨m.blockHash, m.stateRoot⟩) kept
      rw [handleCommit_counted (.inl phase) proposed counted fresh]
      dsimp only
      split
      · rename_i enough
        rw [Bool.and_eq_true] at enough
        exact .decided rfl agreed.snoc (quorum.mp enough.2)
      · rename_i few
        refine .committing phase agreed.snoc (fun enough => few ?_) kept tally
        rw [Bool.and_eq_true]
        exact ⟨decide_eq_true phase, quorum.mpr enough⟩
    · have skipped : counts r.config b .commit m = false := by simpa using counted
      rcases handleCommit_cases (r := r) m.senderId m.blockHash m.stateRoot with
        dropped | ⟨b', _, found, same, known, fresh, _⟩
      · rw [dropped]
        exact .committing phase agreed.snoc (fun enough => short ((enough_skip skipped).mp enough)) voted
          (commits.skip skipped)
      · cases proposed.symm.trans found
        rw [InsertionMap.has, own_sender skipped kind same known, voted] at fresh
        cases fresh
  | decided phase agreed enough =>
    rw [handleCommit, if_pos (by simp [phase])]
    exact .decided phase agreed.snoc enough.snoc

theorem handleMessage_same (m : BftMessage) (voting : m.type ≠ .propose) : r.SameProposal (r.handleMessage m).1 := by
  unfold handleMessage
  cases kind : m.type with
  | propose => exact absurd kind voting
  | prepare => exact handlePrepare_same _ _ _
  | commit => exact handleCommit_same _ _ _

theorem Standing.deliver (done : List BftMessage) (standing : Standing r.config b own done r) (validator : r.isValidator = true)
    (proposed : r.proposedBlock = some b) (hash : own.blockHash = b.hash) (messages : List BftMessage)
    (once : OneVoteEach (done ++ messages)) : Standing r.config b own (done ++ messages) (r.deliver messages) := by
  induction messages generalizing done r with
  | nil => simpa [BftRound.deliver] using standing
  | cons m messages ih =>
    have voting : m.type ≠ .propose := once.1 m (by simp)
    have new : BallotKey m ∉ done.map BallotKey := by
      have apart := once.2
      rw [map_append, map_cons, nodup_append'] at apart
      exact fun again => apart.2.2 again (by simp)
    have next : Standing r.config b own (done ++ [m]) (r.handleMessage m).1 := by
      unfold handleMessage
      cases kind : m.type with
      | propose => exact absurd kind voting
      | prepare => exact standing.prepare validator hash proposed new kind
      | commit => exact standing.commit proposed new kind
    have same := handleMessage_same (r := r) m voting
    rw [← same.config] at next
    have rest := ih _ next (by rw [isValidator, same.config]; exact validator) (same.proposedBlock.trans proposed)
      (by simpa using once)
    rw [same.config] at rest
    simpa [BftRound.deliver] using rest

theorem Standing.phase_eq {messages : List BftMessage} {r' : BftRound} (perm : done.Perm messages)
    (left : Standing config b own done r) (right : Standing config b own messages r') : r.phase = r'.phase := by
  have stake (type : MessageType) : stakeFor config b own type done = stakeFor config b own type messages :=
    (perm.map _).sum_eq
  have enough (type : MessageType) : Enough config b own type done ↔ Enough config b own type messages := by
    rw [Enough, Enough, stake]
  have agreed : Agreed config b own done ↔ Agreed config b own messages := by
    simp only [Agreed, enough, perm.mem_iff]
  cases left <;> cases right <;> simp_all

theorem hasQuorum_nil_iff (validators : List Validator) (relaxedQuorum : Bool) :
    hasQuorum [] validators relaxedQuorum = true ↔ relaxedQuorum = true ∧ totalStake validators = 1 := by
  have bound : quorumThreshold validators relaxedQuorum ≤ 0 ↔ relaxedQuorum = true ∧ totalStake validators = 1 := by
    unfold quorumThreshold maxSafeInteger
    cases relaxedQuorum
    · simp only [Bool.false_eq_true, if_false, false_and, iff_false]
      split <;> omega
    · simp only [if_true, true_and]
      split <;> omega
  simpa [hasQuorum, accumulatedStake] using bound

theorem quorum_without_own (absent : votes.get? r.localKey = none) :
    r.ownGroupQuorum votes = hasQuorum [] r.config.validators r.config.relaxedQuorum := by
  rw [ownGroupQuorum, pickWinningVoteGroup, absent]

theorem observer_absent (outside : r.isValidator = false) {id : String}
    (known : isKnownValidator r.config.validators id = true) (absent : votes.get? r.localKey = none) (vote : BftVote) :
    (votes.set (toLowerCase id) vote).get? r.localKey = none := by
  have other : r.localKey ≠ toLowerCase id := by
    intro same
    rw [isKnownValidator, ← same] at known
    exact absurd (outside.symm.trans known) Bool.false_ne_true
  rw [get?_set, if_neg other, absent]

structure Watching (config : BftRoundConfig) (r : BftRound) : Prop where
  config : r.config = config
  outside : r.isValidator = false
  phase : r.phase = .prepare
  silent : r.prepareVotes.get? r.localKey = none

theorem Watching.handleMessage (short : hasQuorum [] config.validators config.relaxedQuorum = false)
    (watching : Watching config r) (voting : m.type ≠ .propose) : Watching config (r.handleMessage m).1 := by
  rcases watching with ⟨rfl, outside, phase, silent⟩
  unfold BftRound.handleMessage
  cases kind : m.type with
  | propose => exact absurd kind voting
  | prepare =>
    rcases handlePrepare_cases (r := r) m.senderId m.blockHash m.stateRoot with
      dropped | ⟨_, _, _, _, known, _, counted⟩
    · simp only [dropped]
      exact ⟨rfl, outside, phase, silent⟩
    · have absent := observer_absent outside known silent ⟨m.blockHash, m.stateRoot⟩
      have waits := quorum_without_own (r := r.recordPrepare (toLowerCase m.senderId) ⟨m.blockHash, m.stateRoot⟩) absent
      simp only [counted, evaluatePrepares]
      rw [if_neg (by rw [Bool.not_eq_true]; exact waits.trans short)]
      exact ⟨rfl, outside, phase, absent⟩
  | commit =>
    rcases handleCommit_cases (r := r) m.senderId m.blockHash m.stateRoot with
      dropped | ⟨_, _, _, _, _, _, recorded⟩
    · simp only [dropped]
      exact ⟨rfl, outside, phase, silent⟩
    · simp only [recorded, phase]
      exact ⟨rfl, outside, phase, silent⟩

theorem Watching.deliver (short : hasQuorum [] config.validators config.relaxedQuorum = false)
    (watching : Watching config r) (messages : List BftMessage) (voting : ∀ m ∈ messages, m.type ≠ .propose) :
    Watching config (r.deliver messages) := by
  induction messages generalizing r with
  | nil => exact watching
  | cons m messages ih =>
    rw [forall_mem_cons] at voting
    exact ih (watching.handleMessage short voting.1) voting.2

theorem observer_order (outside : r.isValidator = false) (phase : r.phase = .prepare)
    (proposed : r.proposedBlock = some b) (prepares : r.prepareVotes = .empty) (commits : r.commitVotes = .empty)
    (free : hasQuorum [] r.config.validators r.config.relaxedQuorum = true) {id : String}
    (known : isKnownValidator r.config.validators id = true) :
    (r.deliver [⟨.prepare, r.height, b.hash, id, "", none⟩, ⟨.commit, r.height, b.hash, id, "", none⟩]).phase = .finalized ∧
      (r.deliver [⟨.commit, r.height, b.hash, id, "", none⟩, ⟨.prepare, r.height, b.hash, id, "", none⟩]).phase =
        .commit := by
  have absent := observer_absent outside known (get?_empty _) ⟨b.hash, none⟩
  have enough (r' : BftRound) (same : r'.config = r.config) :
      r'.ownGroupQuorum (InsertionMap.empty.set (toLowerCase id) ⟨b.hash, none⟩) = true := by
    have key : r'.localKey = r.localKey := by rw [localKey, same, localKey]
    rw [quorum_without_own (by rw [key]; exact absent), same, free]
  have nobody : (InsertionMap.empty : Votes).has (toLowerCase id) = false := rfl
  have stranger (r' : BftRound) (same : r'.config = r.config) : r'.isValidator = false := by
    rw [isValidator, same]
    exact outside
  constructor <;> simp [deliver, handleMessage, handlePrepare, handleCommit, evaluatePrepares, recordPrepare, recordCommit, enter,
      phase, proposed, prepares, commits, known, nobody, enough, stranger]

/-- The order of the votes matters for an observer's relaxed quorum among stakes that add up to one only. -/
theorem delivery_order_irrelevant_iff (height : Int) (config : BftRoundConfig) (block : ChainBlock)
    (senderId : String) (root : Option Hex)
    (accepted : ((new height config).handlePropose block senderId root).1.phase = .prepare) :
    (∀ messages messages' : List BftMessage, OneVoteEach messages → messages.Perm messages' →
      (((new height config).handlePropose block senderId root).1.deliver messages).phase =
        (((new height config).handlePropose block senderId root).1.deliver messages').phase) ↔
      isKnownValidator config.validators config.localId = true ∨ config.relaxedQuorum = false ∨
        totalStake config.validators ≠ 1 := by
  rcases handlePropose_new height config block senderId root with
    refused | ⟨_, outside, silent⟩ | ⟨_, validator, voted⟩
  · rw [refused] at accepted
    cases accepted
  · rw [silent]
    constructor
    · intro independent
      by_contra loose
      simp only [not_or, not_not, Bool.not_eq_false] at loose
      rcases loose with ⟨_, relaxed, one⟩
      have member : ∃ v, v ∈ config.validators := by
        apply exists_mem_of_ne_nil
        intro none
        simp [none, totalStake] at one
      rcases member with ⟨v, member⟩
      have known : isKnownValidator config.validators v.id = true := List.any_eq_true.mpr ⟨v, member, by simp⟩
      have both := observer_order (r := { new height config with proposedBlock := some block, phase := .prepare })
        outside rfl rfl rfl rfl ((hasQuorum_nil_iff _ _).mpr ⟨relaxed, one⟩) known
      have once : OneVoteEach [⟨.prepare, height, block.hash, v.id, "", none⟩, ⟨.commit, height, block.hash, v.id, "", none⟩] := by
        simp [OneVoteEach, BallotKey]
      cases both.1.symm.trans ((independent _ _ once (List.Perm.swap _ _ [])).trans both.2)
    · intro safe messages messages' once perm
      have short : hasQuorum [] config.validators config.relaxedQuorum = false := by
        rw [← Bool.not_eq_true, hasQuorum_nil_iff]
        rintro ⟨relaxed, one⟩
        rcases safe with known | strict | more
        · exact absurd (outside.symm.trans known) Bool.false_ne_true
        · exact absurd (strict.symm.trans relaxed) Bool.false_ne_true
        · exact more one
      have start : Watching config { new height config with proposedBlock := some block, phase := .prepare } :=
        ⟨rfl, outside, rfl, rfl⟩
      rw [(start.deliver short messages once.1).phase,
        (start.deliver short messages' fun m member => once.1 m (perm.mem_iff.mpr member)).phase]
  · constructor
    · exact fun _ => .inl validator
    · intro _ messages messages' once perm
      have none (type : MessageType) : Tallied config block ⟨block.hash, root⟩ type [] .empty := ⟨by simp [InsertionMap.has], rfl⟩
      have unheard : ¬ Agreed config block ⟨block.hash, root⟩ [] := by
        rintro ⟨⟨m, member, _⟩, _⟩
        cases member
      have run (messages : List BftMessage) (once : OneVoteEach messages) := Standing.deliver [] (.preparing
        (r := recordPrepare { new height config with proposedBlock := some block, phase := .prepare }
          (new height config).localKey ⟨block.hash, root⟩)
        rfl unheard (by simp [recordPrepare, localKey, new]) ((none .prepare).recordOwn _) (none .commit))
        validator rfl rfl messages once
      rw [voted]
      exact (run messages once).phase_eq perm
        (run messages' ⟨fun m member => once.1 m (perm.mem_iff.mpr member), (perm.map _).nodup_iff.mp once.2⟩)

theorem delivery_order_irrelevant_three :
    ((new 1 threeValidators).handlePropose firstBlock "0xb" none).1.phase = .prepare ∧
      ∀ messages messages' : List BftMessage, OneVoteEach messages → messages.Perm messages' →
        (((new 1 threeValidators).handlePropose firstBlock "0xb" none).1.deliver messages).phase =
          (((new 1 threeValidators).handlePropose firstBlock "0xb" none).1.deliver messages').phase :=
  ⟨by decide +kernel, (delivery_order_irrelevant_iff 1 threeValidators firstBlock "0xb" none (by decide +kernel)).mpr
    (.inr (.inl rfl))⟩

theorem observer_order_matters :
    (((new 1 ⟨[⟨"0xb", 1⟩], "0xo", true⟩).handlePropose firstBlock "0xb" none).1.deliver
        [⟨.prepare, 1, "0x1", "0xb", "", none⟩, ⟨.commit, 1, "0x1", "0xb", "", none⟩]).phase ≠
      (((new 1 ⟨[⟨"0xb", 1⟩], "0xo", true⟩).handlePropose firstBlock "0xb" none).1.deliver
        [⟨.commit, 1, "0x1", "0xb", "", none⟩, ⟨.prepare, 1, "0x1", "0xb", "", none⟩]).phase := by
  decide +kernel

end Order

end BftRound

end Palimesh.Bft
