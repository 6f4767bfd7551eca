import Palimesh.Bft.Stretches

namespace Palimesh.Bft

open Collections Relation InsertionMap Coordinator BftRound BftVoteLedger

def Effect.spoken : Effect → Option (Int × Hex)
  | .broadcast m => some (m.height, m.blockHash)
  | .roundFinalized b _ => some (b.number, b.hash)
  | .ledgerWritten _ | .onFinalized _ => none

def Said (c : Coordinator) (height : Int) (blockHash : Hex) : Prop :=
  (∃ effect ∈ c.effects, effect.spoken = some (height, blockHash)) ∨
    ∃ l, c.linger = some l ∧ l.height = height ∧ l.blockHash = blockHash

structure VoteInv (S : Setting) (c : Coordinator) : Prop where
  nonneg : 0 ≤ c.lastFinalizedHeight
  good : S.good c.validators
  pending : ∀ m ∈ c.pendingMessages, S.heard m
  agree : ∀ height a b, Said c height a → Said c height b → a = b
  covered : ∀ height a, Said c height a →
    height ≤ S.floor c ∨ c.localPreparedAt.get? height = some a
  consistent : ∀ height a b, c.localPreparedAt.get? height = some a → Said c height b → b = a
  commits : ∀ height a, c.localCommittedAt.get? height = some a → c.localPreparedAt.get? height = some a
  round : ∀ id r, c.activeRound = some ⟨id, r⟩ → RoundOk S r
  above : ∀ id r, c.activeRound = some ⟨id, r⟩ → S.floor c < r.height
  prepared : ∀ id r b, c.activeRound = some ⟨id, r⟩ → r.proposedBlock = some b → r.isValidator = true →
    c.localPreparedAt.get? r.height = some b.hash

variable {S : Setting} {c c' : Coordinator} {height : Int} {a : Hex}

theorem Said.mono (said : Said c' height a)
    (effects : ∀ effect ∈ c'.effects, effect ∈ c.effects ∨ effect.spoken = none) (linger : ∀ l, c'.linger = some l →
      ∃ l₀, c.linger = some l₀ ∧ l.height = l₀.height ∧ l.blockHash = l₀.blockHash) : Said c height a := by
  rcases said with ⟨effect, member, speaks⟩ | ⟨l, timer, rfl, rfl⟩
  · rcases effects effect member with old | silent
    · exact .inl ⟨effect, old, speaks⟩
    · rw [silent] at speaks
      cases speaks
  · obtain ⟨l₀, running, sameHeight, sameHash⟩ := linger l timer
    exact .inr ⟨l₀, running, sameHeight.symm, sameHash.symm⟩

theorem Said.of_silent (said : Said c' height a) {added : List Effect}
    (effects : c'.effects = c.effects ++ added) (silent : ∀ effect ∈ added, effect.spoken = none)
    (linger : c'.linger = c.linger) : Said c height a := by
  refine said.mono ?_ (fun l timer => ⟨l, linger ▸ timer, rfl, rfl⟩)
  intro effect member
  rw [effects] at member
  rcases List.mem_append.mp member with old | new
  · exact .inl old
  · exact .inr (silent effect new)

theorem silent_write (write : Option VoteLedgerSnapshot) :
    ∀ effect ∈ (write.map Effect.ledgerWritten).toList, effect.spoken = none := by
  cases write <;> simp [Effect.spoken]

variable {r : BftRound} {id : Nat} {m : BftMessage}

section

variable (inv : VoteInv S c)
include inv

theorem VoteInv.validator (current : c.activeRound = some ⟨id, r⟩)
    (phase : r.phase = .commit ∨ r.phase = .finalized) : r.isValidator = true := by
  cases outside : r.isValidator with
  | true => rfl
  | false =>
    have observing := (inv.round id r current).observer outside
    rcases phase with commit | finalized
    · exact absurd commit observing.1
    · exact absurd finalized observing.2

theorem VoteInv.quiet (same : c.SameVotes c') (pending : ∀ m ∈ c'.pendingMessages, m ∈ c.pendingMessages ∨ S.heard m)
    (validators : c'.validators = c.validators ∨ S.good c'.validators) : VoteInv S c' := by
  have said {height : Int} {a : Hex} (s : Said c' height a) : Said c height a :=
    s.mono (fun effect member => .inl (same.effects ▸ member)) same.linger
  have floor : S.floor c' = S.floor c := by rw [Setting.floor, same.lastFinalizedHeight, Setting.floor]
  refine ⟨same.lastFinalizedHeight ▸ inv.nonneg, ?_, ?_, ?_, ?_, ?_, ?_, ?_, ?_, ?_⟩
  · rcases validators with same | good
    · exact same ▸ inv.good
    · exact good
  · intro m member
    rcases pending m member with old | heard
    · exact inv.pending m old
    · exact heard
  · exact fun height a b first second => inv.agree height a b (said first) (said second)
  · rw [floor, same.localPreparedAt]
    exact fun height a s => inv.covered height a (said s)
  · rw [same.localPreparedAt]
    exact fun height a b recorded s => inv.consistent height a b recorded (said s)
  · rw [same.localCommittedAt, same.localPreparedAt]
    exact inv.commits
  · rw [same.activeRound]
    exact inv.round
  · rw [same.activeRound, floor]
    exact inv.above
  · rw [same.activeRound, same.localPreparedAt]
    exact inv.prepared

theorem VoteInv.clear : VoteInv S c.clearRound :=
  ⟨inv.nonneg, inv.good, inv.pending, inv.agree, inv.covered, inv.consistent, inv.commits,
    by simp [clearRound], by simp [clearRound], by simp [clearRound]⟩

theorem VoteInv.silent {added : List Effect} (silent : ∀ effect ∈ added, effect.spoken = none)
    (ledger : BftVoteLedger) : VoteInv S { c with voteLedger := ledger, effects := c.effects ++ added } := by
  have said {height : Int} {a : Hex}
      (s : Said { c with voteLedger := ledger, effects := c.effects ++ added } height a) : Said c height a :=
    s.of_silent rfl silent rfl
  exact ⟨inv.nonneg, inv.good, inv.pending,
    fun height a b first second => inv.agree height a b (said first) (said second),
    fun height a s => inv.covered height a (said s),
    fun height a b recorded s => inv.consistent height a b recorded (said s),
    inv.commits, inv.round, inv.above, inv.prepared⟩

theorem VoteInv.adopt (ok : RoundOk S r) (above : S.floor c < r.height)
    (prepared : ∀ b, r.proposedBlock = some b → r.isValidator = true →
      c.localPreparedAt.get? r.height = some b.hash) : VoteInv S (c.adopt r) := by
  refine { inv with round := ?_, above := ?_, prepared := ?_ }
  · intro id r' current
    cases current
    exact ok
  · intro id r' current
    cases current
    exact above
  · intro id r' b current
    cases current
    exact prepared b

variable {block : ChainBlock}

theorem VoteInv.free_agrees (above : S.floor c < block.number) (free : c.refusesPrepare block = false)
    (said : Said c block.number a) : a = block.hash := by
  rcases inv.covered block.number a said with low | recorded
  · omega
  · simpa [refusesPrepare, recorded] using free

theorem VoteInv.recordPrepare (above : S.floor c < block.number) (free : c.refusesPrepare block = false)
    : VoteInv S (c.recordPrepare block) := by
  have unchanged {a : Hex} (before : c.localPreparedAt.get? block.number = some a) : a = block.hash := by
    simpa [refusesPrepare, before] using free
  have said {height : Int} {a : Hex} (s : Said (c.recordPrepare block) height a) : Said c height a :=
    s.of_silent rfl (silent_write _) rfl
  have recorded (height : Int) : (c.recordPrepare block).localPreparedAt.get? height =
      if height = block.number then some block.hash else c.localPreparedAt.get? height :=
    get?_set _ _ _ _
  have kept {height : Int} {a : Hex} (before : c.localPreparedAt.get? height = some a) :
      (c.recordPrepare block).localPreparedAt.get? height = some a := by
    rw [recorded]
    by_cases same : height = block.number
    · rw [same] at before
      rw [if_pos same, unchanged before]
    · rw [if_neg same]
      exact before
  refine { inv with agree := ?_, covered := ?_, consistent := ?_, commits := ?_, prepared := ?_ }
  · exact fun height a b first second => inv.agree height a b (said first) (said second)
  · intro height a s
    rw [recorded]
    by_cases same : height = block.number
    · subst same
      rw [if_pos rfl, inv.free_agrees above free (said s)]
      exact .inr rfl
    · rw [if_neg same]
      exact inv.covered height a (said s)
  · intro height a b present s
    rw [recorded] at present
    by_cases same : height = block.number
    · subst same
      rw [if_pos rfl] at present
      cases present
      exact inv.free_agrees above free (said s)
    · rw [if_neg same] at present
      exact inv.consistent height a b present (said s)
  · exact fun height a committed => kept (inv.commits height a committed)
  · exact fun id r b current proposed validator => kept (inv.prepared id r b current proposed validator)

variable {config : BftRoundConfig}

theorem VoteInv.openSilent {root : Option Hex} (ok : RoundConfigOk S config)
    (rooted : S.rooted block root) (above : S.floor c < block.number)
    (silent : (BftRound.new block.number config).handlePropose block block.proposer root = (r, none)) :
    VoteInv S (c.adopt r) := by
  have valid := RoundOk.propose ok rooted block.proposer
  rw [silent] at valid
  rcases handlePropose_new block.number config block block.proposer root with
    refused | ⟨_, outside, quiet⟩ | ⟨_, _, voted⟩
  · rw [refused] at silent
    cases silent
    exact inv.adopt valid above (by simp [BftRound.new])
  · rw [quiet] at silent
    cases silent
    exact inv.adopt valid above fun _ _ validator =>
      absurd (outside.symm.trans validator) Bool.false_ne_true
  · rw [voted] at silent
    cases silent

theorem VoteInv.openVoted {root : Option Hex} (ok : RoundConfigOk S config)
    (rooted : S.rooted block root) (above : S.floor c < block.number) (free : c.refusesPrepare block = false)
    (voted : (BftRound.new block.number config).handlePropose block block.proposer root = (r, some m)) :
    VoteInv S ((c.adopt r).recordPrepare block) := by
  have valid := RoundOk.propose ok rooted block.proposer
  rw [voted] at valid
  rcases handlePropose_new block.number config block block.proposer root with
    refused | ⟨_, _, quiet⟩ | ⟨_, _, opened⟩
  · rw [refused] at voted
    cases voted
  · rw [quiet] at voted
    cases voted
  · rw [opened] at voted
    cases voted
    -- the vote record does not read the round, so it may as well come first
    refine (inv.recordPrepare above free).adopt valid above ?_
    intro b proposed _
    cases proposed
    change (c.localPreparedAt.set block.number block.hash).get? block.number = _
    rw [get?_set, if_pos rfl]

theorem VoteInv.round_step (sound : S.Sound) {r' : BftRound} (current : c.activeRound = some ⟨id, r⟩)
    (stepped : RoundStep S r r') : VoteInv S { c with activeRound := some ⟨id, r'⟩ } := by
  have ok := inv.round id r current
  have valid : RoundOk S r' := by
    cases stepped with
    | prepare m => exact ok.handlePrepare sound m.senderId m.blockHash m.stateRoot
    | commit heard accepted type height => exact ok.handleCommit heard accepted type height
  have same : r.SameProposal r' := by
    cases stepped with
    | prepare m => exact handlePrepare_same _ _ _
    | commit => exact handleCommit_same _ _ _
  refine { inv with round := ?_, above := ?_, prepared := ?_ }
  · intro id' r'' now
    cases now
    exact valid
  · intro id' r'' now
    cases now
    rw [same.height]
    exact inv.above id r current
  · intro id' r'' b now proposed validator
    cases now
    rw [same.height]
    rw [isValidator, same.config] at validator
    exact inv.prepared id r b current (same.proposedBlock ▸ proposed) validator

theorem VoteInv.recordCommit {blockHash : Hex} (recorded : c.localPreparedAt.get? height = some blockHash)
    : VoteInv S (c.recordCommit height blockHash) := by
  have said {h : Int} {a : Hex} (s : Said (c.recordCommit height blockHash) h a) : Said c h a :=
    s.of_silent rfl (silent_write _) rfl
  refine { inv with agree := ?_, covered := ?_, consistent := ?_, commits := ?_ }
  · exact fun h a b first second => inv.agree h a b (said first) (said second)
  · exact fun h a s => inv.covered h a (said s)
  · exact fun h a b present s => inv.consistent h a b present (said s)
  · intro h a committed
    change (c.localCommittedAt.set height blockHash).get? h = some a at committed
    rw [get?_set] at committed
    split at committed
    · rename_i same
      cases committed
      rw [same]
      exact recorded
    · exact inv.commits h a committed

end

theorem Said.of_broadcast (said : Said (c.emit (.broadcast m)) height a) :
    Said c height a ∨ (height = m.height ∧ a = m.blockHash) := by
  rcases said with ⟨effect, member, speaks⟩ | timer
  · rcases List.mem_append.mp member with old | new
    · exact .inl (.inl ⟨effect, old, speaks⟩)
    · rw [List.mem_singleton.mp new] at speaks
      cases speaks
      exact .inr ⟨rfl, rfl⟩
  · exact .inl (.inr timer)

variable {b : ChainBlock}

theorem Said.of_decide (number : b.number = r.height)
    (said : Said (c.decide S.cfg r b) height a) : Said c height a ∨ (height = r.height ∧ a = b.hash) := by
  rcases said with ⟨effect, member, speaks⟩ | ⟨l, timer, rfl, rfl⟩
  · rcases List.mem_append.mp member with old | new
    · exact .inl (.inl ⟨effect, old, speaks⟩)
    · rw [List.mem_singleton.mp new] at speaks
      cases speaks
      exact .inr ⟨number, rfl⟩
  · cases timer
    exact .inr ⟨rfl, rfl⟩

variable (inv : VoteInv S c)
include inv

theorem VoteInv.broadcast
    (backed : c.localPreparedAt.get? m.height = some m.blockHash ∨ Said c m.height m.blockHash) :
    VoteInv S (c.emit (.broadcast m)) := by
  have covered : m.height ≤ S.floor c ∨ c.localPreparedAt.get? m.height = some m.blockHash := by
    rcases backed with recorded | said
    · exact .inr recorded
    · exact inv.covered _ _ said
  have agrees {a : Hex} (said : Said c m.height a) : a = m.blockHash := by
    rcases backed with recorded | before
    · exact inv.consistent _ _ _ recorded said
    · exact inv.agree _ _ _ said before
  have matches_record {a : Hex} (recorded : c.localPreparedAt.get? m.height = some a) : m.blockHash = a := by
    rcases backed with same | before
    · rw [same] at recorded
      exact Option.some.inj recorded
    · exact inv.consistent _ _ _ recorded before
  refine { inv with agree := ?_, covered := ?_, consistent := ?_ }
  · intro height a b first second
    rcases first.of_broadcast with old | ⟨rfl, rfl⟩
    · rcases second.of_broadcast with old' | ⟨rfl, rfl⟩
      · exact inv.agree height a b old old'
      · exact agrees old
    · rcases second.of_broadcast with old' | ⟨_, rfl⟩
      · exact (agrees old').symm
      · rfl
  · intro height a said
    rcases said.of_broadcast with old | ⟨rfl, rfl⟩
    · exact inv.covered height a old
    · exact covered
  · intro height a b recorded said
    rcases said.of_broadcast with old | ⟨rfl, rfl⟩
    · exact inv.consistent height a b recorded old
    · exact matches_record recorded

theorem VoteInv.committing (current : c.activeRound = some ⟨id, r⟩)
    (proposed : r.proposedBlock = some b) (phase : r.phase = .commit ∨ r.phase = .finalized) :
    c.localPreparedAt.get? r.height = some b.hash :=
  inv.prepared id r b current proposed (inv.validator current phase)

theorem VoteInv.licensed {blockHash : Hex} (licensed : Licensed c height blockHash) :
    c.localPreparedAt.get? height = some blockHash ∨ Said c height blockHash := by
  cases licensed with
  | committing current proposed phase sameHeight sameHash =>
    rw [sameHeight, sameHash]
    exact .inl (inv.committing current proposed (.inl phase))
  | prepared recorded => exact .inl recorded
  | lingering timer sameHeight sameHash => exact .inr (.inr ⟨_, timer, sameHeight.symm, sameHash.symm⟩)

theorem VoteInv.decide (current : c.activeRound = some ⟨id, r⟩)
    (proposed : r.proposedBlock = some b) (phase : r.phase = .finalized) : VoteInv S (c.decide S.cfg r b) := by
  have number := (inv.round id r current).height b proposed
  have above := inv.above id r current
  have recorded := inv.committing current proposed (.inr phase)
  have agrees {a : Hex} (said : Said c r.height a) : a = b.hash := inv.consistent _ _ _ recorded said
  have raised : S.floor c ≤ r.height ∧ S.floor (c.decide S.cfg r b) = r.height := by
    refine ⟨by omega, ?_⟩
    change max r.height S.base = r.height
    have base : S.base ≤ S.floor c := le_max_right _ _
    omega
  have kept (height : Int) : (c.decide S.cfg r b).localPreparedAt.get? height =
      if r.height < height then c.localPreparedAt.get? height else none := get?_above _ _ _
  refine ⟨?_, inv.good, inv.pending, ?_, ?_, ?_, ?_, ?_, ?_, ?_⟩
  · change 0 ≤ r.height
    have bound : c.lastFinalizedHeight ≤ S.floor c := le_max_left _ _
    have start := inv.nonneg
    omega
  · intro height x y first second
    rcases first.of_decide number with old | ⟨rfl, rfl⟩
    · rcases second.of_decide number with old' | ⟨rfl, rfl⟩
      · exact inv.agree height x y old old'
      · exact agrees old
    · rcases second.of_decide number with old' | ⟨_, rfl⟩
      · exact (agrees old').symm
      · rfl
  · intro height a said
    rw [raised.2, kept]
    rcases said.of_decide number with old | ⟨rfl, rfl⟩
    · by_cases beyond : r.height < height
      · rw [if_pos beyond]
        rcases inv.covered height a old with low | present
        · omega
        · exact .inr present
      · exact .inl (by omega)
    · exact .inl (le_refl _)
  · intro height a x present said
    rw [kept] at present
    split at present
    · rcases said.of_decide number with old | ⟨rfl, rfl⟩
      · exact inv.consistent height a x present old
      · omega
    · cases present
  · intro height a committed
    change (BftVoteLedger.above c.localCommittedAt r.height).get? height = some a at committed
    rw [get?_above] at committed
    rw [kept]
    split at committed
    · rename_i beyond
      rw [if_pos beyond]
      exact inv.commits height a committed
    · cases committed
  · intro id' r' now
    cases now
  · intro id' r' now
    cases now
  · intro id' r' b' now
    cases now

theorem VoteInv.move (sound : S.Sound) (move : Move S c c') : VoteInv S c' := by
  cases move with
  | quiet same pending validators => exact inv.quiet same pending validators
  | clear => exact inv.clear
  | openSilent ok rooted above silent => exact inv.openSilent ok rooted above silent
  | openVoted ok rooted above free voted => exact inv.openVoted ok rooted above free voted
  | round current stepped => exact inv.round_step sound current stepped
  | recordCommit current proposed phase => exact inv.recordCommit (inv.committing current proposed (.inl phase))
  | say licensed => exact inv.broadcast (inv.licensed licensed)
  | decide current proposed phase => exact inv.decide current proposed phase
  | pruneLedger => exact inv.silent (silent_write _) _
  | @notify block _ _ =>
    have quiet : ∀ effect ∈ [Effect.onFinalized block], effect.spoken = none := by simp [Effect.spoken]
    exact inv.silent quiet c.voteLedger

theorem VoteInv.moves (sound : S.Sound) (moves : Moves S c c') : VoteInv S c' := by
  induction moves with
  | refl => exact inv
  | tail _ last ih => exact ih.move sound last

end Palimesh.Bft
