import Palimesh.Bft.Moves

namespace Palimesh.Bft

open Collections Relation List BftRound Coordinator.SameVotes Move

variable {S : Setting} {c : Coordinator}

theorem Coordinator.SameVotes.refl (c : Coordinator) : c.SameVotes c :=
  ⟨rfl, rfl, rfl, rfl, rfl, rfl, fun l timer => ⟨l, timer, rfl, rfl⟩⟩

variable {m : BftMessage}

theorem Move.broadcast (licensed : Licensed c m.height m.blockHash) :
    Move S c (c.broadcastMessage S.cfg m) := by
  refine .say ?_
  rw [Coordinator.signMessage_height, Coordinator.signMessage_blockHash]
  exact licensed

structure StartOk (S : Setting) (c : Coordinator) (block : ChainBlock) : Prop where
  above : S.floor c < block.number
  free : c.refusesPrepare block = false

namespace Stretch

theorem afterPrepare (c : Coordinator) : Stretch S c c.afterPrepare := by
  unfold Coordinator.afterPrepare
  split
  · exact .ret c
  · refine ⟨?_, by simp [Next.FramesOk, FrameOk]⟩
    split
    · exact same { refl c with } rfl rfl
    · exact .refl

variable {id : Nat} {r : BftRound}

theorem finalizeRound {b : ChainBlock} (current : c.activeRound = some ⟨id, r⟩)
    (proposed : r.proposedBlock = some b) (phase : r.phase = .finalized) :
    Stretch S c (c.finalizeRound S.cfg r b) := by
  refine ⟨?_, by simp [Coordinator.finalizeRound, Next.FramesOk, FrameOk]⟩
  have decided : Move S c (c.decide S.cfg r b) := .decide current proposed phase
  have pruned : Move S (c.decide S.cfg r b) ((c.decide S.cfg r b).pruneLedger r.height) := by
    refine .pruneLedger ?_
    intro height below
    have low : ¬ r.height < height := not_lt.mpr below
    exact (BftVoteLedger.get?_above _ _ _).trans (if_neg low)
  have marked : Effect.roundFinalized b r.ownStateRoot ∈
      ((c.decide S.cfg r b).pruneLedger r.height).effects :=
    mem_append_left _ (mem_append_right c.effects (mem_singleton_self _))
  exact ((ReflTransGen.single decided).tail pruned).tail (.notify marked)

theorem handlePrepareMessage (current : c.activeRound = some ⟨id, r⟩) (m : BftMessage) :
    Stretch S c (c.handlePrepareMessage S.cfg ⟨id, r⟩ m) := by
  refine .after (.single (.round current (.prepare m))) ?_
  unfold Coordinator.handlePrepareMessage
  cases result : r.handlePrepare m.senderId m.blockHash m.stateRoot with
  | mk round outgoing =>
    dsimp only
    split
    · rename_i b phase proposed
      exact finalizeRound rfl proposed phase
    · split
      · exact afterPrepare _
      · obtain ⟨b, phase, proposed, height, hash⟩ := handlePrepare_outgoing result
        refine ⟨(ReflTransGen.single ?_).tail (.broadcast (.committing rfl proposed phase height hash)),
          by simp [Next.FramesOk, FrameOk]⟩
        rw [height, hash]
        exact .recordCommit rfl proposed phase
    · exact afterPrepare _

theorem handleCommitMessage (current : c.activeRound = some ⟨id, r⟩)
    (heard : S.heard m) (accepted : Coordinator.accepts S.cfg m = true) (type : m.type = .commit)
    (height : m.height = r.height) : Stretch S c (c.handleCommitMessage S.cfg ⟨id, r⟩ m) := by
  refine .after (.single (.round current (.commit heard accepted type height))) ?_
  unfold Coordinator.handleCommitMessage
  cases result : r.handleCommit m.senderId m.blockHash m.stateRoot with
  | mk round finalized =>
    dsimp only
    split
    · rename_i b proposed
      have final := handleCommit_finalized (congrArg Prod.snd result)
      rw [result] at final
      exact finalizeRound rfl proposed final
    · exact .ret _

theorem handleVote (current : c.activeRound = some ⟨id, r⟩)
    (heard : S.heard m) (height : m.height = r.height) : Stretch S c (c.handleVote S.cfg ⟨id, r⟩ m) := by
  unfold Coordinator.handleVote
  split
  · exact .ret c
  · rename_i accepted
    have signed : Coordinator.accepts S.cfg m = true := by simpa using accepted
    have noted (detector : EquivocationDetector) : Moves S c (c.withDetector detector) :=
      same { refl c with } rfl rfl
    dsimp only
    split
    · exact ⟨same { refl c with } rfl rfl, trivial⟩
    · split
      · refine .after (noted _) (handlePrepareMessage ?_ m)
        exact current
      · rename_i type
        refine .after (noted _) (handleCommitMessage ?_ heard signed type height)
        exact current
      · exact .after (noted _) (.ret _)

theorem buffered (heard : S.heard m) : Moves S c (c.buffer m) := by
  unfold Coordinator.buffer
  split
  · exact .refl
  · refine .single (.quiet { refl c with } ?_ (.inl rfl))
    intro other member
    rcases List.mem_append.mp member with member | member
    · exact .inl member
    · rw [List.mem_singleton.mp member]
      exact .inr heard

theorem probeIfPrepare (c : Coordinator) (m : BftMessage) : Stretch S c (c.probeIfPrepare m) := by
  unfold Coordinator.probeIfPrepare
  refine ⟨.refl, ?_⟩
  split <;> simp [Next.FramesOk, FrameOk]

theorem handleMessage (heard : S.heard m) : Stretch S c (c.handleMessage S.cfg m) := by
  unfold Coordinator.handleMessage
  split
  · split
    · exact .after (buffered heard) (probeIfPrepare _ m)
    · exact .ret c
  · rename_i active current
    dsimp only
    split
    · split
      · exact .after (buffered heard) (probeIfPrepare _ m)
      · exact .ret c
    · rename_i height
      split
      · exact .ret c
      · exact handleVote current heard (Decidable.not_not.mp height)

theorem startRound (c : Coordinator) (block : ChainBlock) : Stretch S c (c.startRound block) := by
  unfold Coordinator.startRound
  split
  · exact .ret c
  · exact ⟨.refl, by simp [Next.FramesOk, FrameOk]⟩

theorem processDeferredBlock (c : Coordinator) : Stretch S c c.processDeferredBlock := by
  unfold Coordinator.processDeferredBlock
  split
  · exact .ret c
  · exact ⟨same { refl c with } rfl rfl, by simp [Next.FramesOk, FrameOk]⟩

theorem clearTerminal (c : Coordinator) : Moves S c c.clearTerminal := by
  unfold Coordinator.clearTerminal
  split
  · split
    · exact .single .clear
    · exact .refl
  · exact .refl

theorem clearTerminal_validators (c : Coordinator) : c.clearTerminal.validators = c.validators := by
  unfold Coordinator.clearTerminal
  split
  · split <;> rfl
  · rfl

theorem startRoundAfterFloor (good : S.good c.validators) (block : ChainBlock) (floor : Int) :
    Stretch S c (c.startRoundAfterFloor S.cfg block floor) := by
  unfold Coordinator.startRoundAfterFloor
  split
  · exact .ret c
  · refine .after (clearTerminal c) ?_
    dsimp only
    split
    · exact ⟨same { refl _ with } rfl rfl, trivial⟩
    · split
      · exact .ret _
      · have cleared : Moves S c.clearTerminal c.clearTerminal.clearRound := .single .clear
        refine ⟨cleared.trans (same { refl _ with } rfl rfl), ?_⟩
        simp only [Next.FramesOk, mem_singleton, forall_eq, FrameOk]
        refine ⟨rfl, rfl, ?_⟩
        change S.good c.clearTerminal.validators
        rwa [clearTerminal_validators]

theorem startRoundEnd (c : Coordinator) (thisRound : Option Nat) : Stretch S c (c.startRoundEnd thisRound) := by
  unfold Coordinator.startRoundEnd
  split
  · split
    · exact ⟨same { refl c with } rfl rfl, trivial⟩
    · exact .ret c
  · exact .ret c

theorem startRoundLoop {queue : List BftMessage} (heard : ∀ m ∈ queue, S.heard m) (thisRound : Option Nat) :
    Stretch S c (c.startRoundLoop S.cfg thisRound queue) := by
  cases queue with
  | nil => exact startRoundEnd c thisRound
  | cons m rest =>
    rw [Coordinator.startRoundLoop]
    split
    · apply (handleMessage (heard m (by simp))).inside
      simp only [mem_singleton, forall_eq, FrameOk]
      exact fun other member => heard other (mem_cons_of_mem m member)
    · exact startRoundEnd c thisRound

theorem startRoundDrain (pending : ∀ m ∈ c.pendingMessages, S.heard m) (block : ChainBlock) (voted : Bool) :
    Stretch S c (c.startRoundDrain S.cfg block voted) := by
  unfold Coordinator.startRoundDrain
  refine .after ?_ (startRoundLoop ?_ _)
  · refine .single (.quiet { refl c with } ?_ (.inl rfl))
    intro m member
    exact .inl (mem_of_mem_filter member)
  · intro m member
    apply pending
    rcases List.mem_append.mp member with member | member <;> exact mem_of_mem_filter (mem_of_mem_filter member)

theorem startRoundAfterRoot {block : ChainBlock} {config : BftRoundConfig} {root : Option Hex}
    (pending : ∀ m ∈ c.pendingMessages, S.heard m) (ok : RoundConfigOk S config)
    (rooted : S.rooted block root) (start : StartOk S c block) :
    Stretch S c (c.startRoundAfterRoot S.cfg block config root) := by
  unfold Coordinator.startRoundAfterRoot
  cases result : (new block.number config).handlePropose block block.proposer root with
  | mk round outgoing =>
    cases outgoing with
    | none =>
      have opened : Move S c (c.adopt round) := .openSilent ok rooted start.above result
      exact .after (.single opened) (startRoundDrain (c := c.adopt round) pending block false)
    | some m =>
      have opened : Move S c ((c.adopt round).recordPrepare block) :=
        .openVoted ok rooted start.above start.free result
      refine ⟨(ReflTransGen.single opened).tail (.broadcast (.prepared ?_)), by simp [Next.FramesOk, FrameOk]⟩
      rcases handlePropose_new block.number config block block.proposer root with
        refused | ⟨_, _, silent⟩ | ⟨_, _, voted⟩
      · rw [refused] at result
        cases result
      · rw [silent] at result
        cases result
      · rw [voted] at result
        cases result
        change (c.localPreparedAt.set block.number block.hash).get? block.number = some block.hash
        rw [InsertionMap.get?_set, if_pos rfl]

section

variable (c : Coordinator)

theorem handleReceivedBlock (block : ChainBlock) : Stretch S c (c.handleReceivedBlock S.cfg block) := by
  unfold Coordinator.handleReceivedBlock
  split
  · exact .ret c
  · split
    · exact .after (clearTerminal c) (startRound _ block)
    · dsimp only
      split
      · exact .ret c
      · split
        · exact ⟨same { refl c with } rfl rfl, trivial⟩
        · exact .after (.single .clear) (startRound _ block)

theorem reentered (height : Int) : Moves S c (c.reenterLocallyPreparedRound height) := by
  unfold Coordinator.reenterLocallyPreparedRound
  split
  · exact .refl
  · split
    · exact .refl
    · split
      · exact .refl
      · exact same { refl c with } rfl rfl

theorem roundTimeout : Stretch S c c.roundTimeout := by
  unfold Coordinator.roundTimeout
  split
  · split
    · exact .ret c
    · exact .after (.single .clear) (.after (reentered _ _) (processDeferredBlock _))
  · exact .ret c

theorem livenessWatchdog : Stretch S c c.livenessWatchdog := by
  unfold Coordinator.livenessWatchdog
  split
  · have cleared : Moves S c c.clearRound := .single .clear
    refine .after cleared (.after ?_ (.after (reentered _ _) (processDeferredBlock _)))
    exact .single (.quiet { refl c.clearRound with } (by simp) (.inl rfl))
  · exact .ret c

theorem truthy_some {s t : String} (present : truthy s = some t) : t = s := by
  unfold truthy at present
  split at present
  · cases present
  · exact (Option.some.inj present).symm

theorem truthy_hash {proposal : Option ChainBlock} {blockHash : Hex}
    (present : (proposal.map ChainBlock.hash).bind truthy = some blockHash) :
    ∃ b, proposal = some b ∧ blockHash = b.hash := by
  cases proposal with
  | none => cases present
  | some b => exact ⟨b, rfl, truthy_some present⟩

theorem commitRetryTick : Moves S c (c.commitRetryTick S.cfg) := by
  unfold Coordinator.commitRetryTick
  split
  · exact .refl
  · split
    · rename_i active current
      split
      · exact same { refl c with } rfl rfl
      · rename_i phase
        split
        · rename_i blockHash present
          obtain ⟨b, proposed, hash⟩ := truthy_hash present
          exact .single (.broadcast (.committing current proposed (Decidable.not_not.mp phase) rfl hash))
        · exact .refl
    · exact same { refl c with } rfl rfl

theorem prepareRetryTick : Moves S c (c.prepareRetryTick S.cfg) := by
  unfold Coordinator.prepareRetryTick
  split
  · exact .refl
  · split
    · rename_i active current
      dsimp only
      split
      · exact same { refl c with } rfl rfl
      · split
        · rename_i blockHash present
          split
          · exact .refl
          · rename_i recorded
            have prepared := Decidable.not_not.mp recorded
            have first : Moves S c (c.broadcastMessage S.cfg { Coordinator.plainVote S.cfg .prepare
                active.round.height blockHash with stateRoot := active.round.ownStateRoot }) :=
              .single (.broadcast (.prepared prepared))
            split
            · exact first.tail (.broadcast (.prepared prepared))
            · exact first
        · exact .refl
    · exact same { refl c with } rfl rfl

theorem lingerTick : Moves S c (c.lingerTick S.cfg) := by
  unfold Coordinator.lingerTick
  split
  · exact .refl
  · rename_i l timer
    split
    · exact same { refl c with linger := by simp } rfl rfl
    · have counted : Moves S c { c with linger := some { l with remaining := l.remaining - 1 } } := by
        refine same { refl c with linger := ?_ } rfl rfl
        intro l' running
        cases running
        exact ⟨l, timer, rfl, rfl⟩
      split
      · rename_i m captured
        have same := l.sameVote m captured
        exact (counted.tail (.say (.lingering rfl same.1 same.2))).tail (.broadcast (.lingering rfl rfl rfl))
      · exact counted.tail (.broadcast (.lingering rfl rfl rfl))

end

theorem updateValidators {validators : List Validator} (good : S.good validators)
    (members : Coordinator.membershipChanged c.validators validators = false) :
    Moves S c (c.updateValidators validators) := by
  unfold Coordinator.updateValidators
  rw [members]
  exact .single (.quiet { refl c with } (fun _ member => .inl member) (.inr good))

theorem stop (c : Coordinator) : Moves S c c.stop := by
  have cleared : Moves S c c.clearRound := .single .clear
  refine cleared.tail (.quiet { refl c.clearRound with linger := ?_ } ?_ (.inl rfl))
  · simp [Coordinator.stop]
  · simp [Coordinator.stop]

end Stretch

end Palimesh.Bft
