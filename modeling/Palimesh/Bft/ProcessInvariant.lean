import Palimesh.Bft.VoteSafety

namespace Palimesh.Bft

open Collections Relation List Process

/-- Where a suspended call continues, `startRound` still passes the checks it made before it awaited the
    stateRoot, and a replay still repeats recorded votes. -/
def ResumeOk (S : Setting) (c : Coordinator) (answer : Answer) : Frame → Prop
  | .startRoundRoot block _ => StartOk S c block ∧ S.rooted block answer.stateRoot
  | .replay queue => ∀ m ∈ queue, c.localPreparedAt.get? m.height = some m.blockHash
  | _ => True

def EventOk (S : Setting) (p : Process) : Event → Prop
  | .handleMessage m => S.heard m
  | .updateValidators validators =>
    S.good validators ∧ Coordinator.membershipChanged p.coordinator.validators validators = false
  | .resume task answer =>
    ∀ frame outer, p.tasks[task]? = some (frame :: outer) → ResumeOk S p.coordinator answer frame
  | .replayUnfinalizedVotes => S.replays
  | _ => True

structure ProcessOk (S : Setting) (p : Process) : Prop where
  votes : VoteInv S p.coordinator
  frames : ∀ stack ∈ p.tasks, ∀ frame ∈ stack, FrameOk S frame

variable {S : Setting} {c : Coordinator} {p : Process}

theorem Stretch.replayVotes {queue : List BftMessage} (replays : S.replays)
    (recorded : ∀ m ∈ queue, c.localPreparedAt.get? m.height = some m.blockHash) :
    Stretch S c (c.replayVotes S.cfg queue) := by
  cases queue with
  | nil => exact .ret c
  | cons m rest =>
    exact ⟨.single (.broadcast (.prepared (recorded m (by simp)))),
      by simpa [Coordinator.replayVotes, Next.FramesOk, FrameOk] using replays⟩

theorem VoteInv.unfinalizedVotes (inv : VoteInv S c) (floor : Int) :
    ∀ m ∈ c.unfinalizedVotes S.cfg floor, c.localPreparedAt.get? m.height = some m.blockHash := by
  intro m member
  rcases List.mem_append.mp member with commit | prepare
  · obtain ⟨⟨height, hash⟩, entry, rfl⟩ := List.mem_map.mp commit
    exact inv.commits height hash ((InsertionMap.mem_entries _ _ _).mp (mem_of_mem_filter entry))
  · obtain ⟨⟨height, hash⟩, entry, rfl⟩ := List.mem_map.mp prepare
    exact (InsertionMap.mem_entries _ _ _).mp (mem_of_mem_filter entry)

theorem Stretch.resume (inv : VoteInv S c) {frame : Frame} {answer : Answer} (ok : FrameOk S frame)
    (resumable : ResumeOk S c answer frame) : Stretch S c (c.resume S.cfg frame answer) := by
  cases frame with
  | startRoundFloor block lastFinalized => exact startRoundAfterFloor inv.good block _
  | startRoundRoot block config => exact startRoundAfterRoot inv.pending ok resumable.2 resumable.1
  | startRoundBroadcast block =>
    unfold Coordinator.resume
    dsimp only
    split
    · exact startRoundDrain inv.pending block true
    · exact .throw c
  | startRoundLoop thisRound queue => exact startRoundLoop ok thisRound
  | commitBroadcast =>
    unfold Coordinator.resume
    dsimp only
    split
    · exact afterPrepare c
    · exact .throw c
  | divergenceProbe => exact .ret c
  | onFinalized => exact processDeferredBlock c
  | deferredFloor block lastFinalized =>
    unfold Coordinator.resume
    dsimp only
    split
    · exact .ret c
    · exact (startRound c block).inside (by simp [FrameOk])
  | deferredStartRound => exact .ret c
  | replayFloor lastFinalized => exact replayVotes ok (inv.unfinalizedVotes _)
  | replay queue => exact replayVotes ok resumable

theorem unwind_subset (stack : List Frame) : ∀ frame ∈ unwind stack, frame ∈ stack := by
  induction stack with
  | nil => simp [unwind]
  | cons top outer ih =>
    intro frame member
    cases top <;> simp only [unwind] at member
    case deferredStartRound => exact mem_cons_of_mem _ member
    all_goals exact mem_cons_of_mem _ (ih frame member)

theorem Process.continues_ok {outer : List Frame} {next : Next} (ok : next.FramesOk S)
    (rest : ∀ frame ∈ outer, FrameOk S frame) : ∀ frame ∈ Process.Continues outer next, FrameOk S frame := by
  intro frame member
  cases next with
  | ret => exact rest frame member
  | throw => exact rest frame (unwind_subset outer frame member)
  | await frames =>
    rcases List.mem_append.mp member with new | old
    · exact ok frame new
    · exact rest frame old

structure Advances (S : Setting) (p p' : Process) : Prop where
  moves : Moves S p.coordinator p'.coordinator
  frames : ∀ stack ∈ p'.tasks, ∀ frame ∈ stack, FrameOk S frame

variable (ok : ProcessOk S p)
include ok

theorem ProcessOk.call {result : Coordinator × Next} (stretch : Stretch S p.coordinator result)
    : Advances S p (p.call result) := by
  have frames : ∀ frame ∈ Process.Continues [] result.2, FrameOk S frame :=
    continues_ok stretch.frames (by simp)
  unfold Process.call
  split
  · exact ⟨stretch.moves, ok.frames⟩
  · refine ⟨stretch.moves, ?_⟩
    intro stack member
    rcases List.mem_append.mp member with old | new
    · exact ok.frames stack old
    · rw [List.mem_singleton.mp new]
      exact frames

theorem ProcessOk.resume {task : Nat} {answer : Answer} (resumable : EventOk S p (.resume task answer))
    : Advances S p (p.step S.cfg (.resume task answer)) := by
  unfold step
  dsimp only
  split
  · rename_i frame outer suspended
    have mine := ok.frames _ (mem_of_getElem? suspended)
    have stretch := Stretch.resume ok.votes (mine frame (by simp)) (resumable frame outer suspended)
    refine ⟨stretch.moves, ?_⟩
    have frames := continues_ok stretch.frames fun f member => mine f (mem_cons_of_mem _ member)
    intro stack member
    unfold setTask at member
    split at member
    · exact ok.frames stack (mem_of_mem_eraseIdx member)
    · rcases mem_or_eq_of_mem_set member with old | rfl
      · exact ok.frames stack old
      · exact frames
  · exact ⟨.refl, ok.frames⟩

theorem ProcessOk.advances {event : Event} (admitted : EventOk S p event) : Advances S p (p.step S.cfg event) := by
  cases event with
  | startRound block => exact ok.call (.startRound _ block)
  | handleReceivedBlock block => exact ok.call (.handleReceivedBlock _ block)
  | handleMessage m => exact ok.call (.handleMessage admitted)
  | roundTimeout => exact ok.call (.roundTimeout _)
  | livenessWatchdog => exact ok.call (.livenessWatchdog _)
  | commitRetryTick => exact ⟨Stretch.commitRetryTick _, ok.frames⟩
  | prepareRetryTick => exact ⟨Stretch.prepareRetryTick _, ok.frames⟩
  | lingerTick => exact ⟨Stretch.lingerTick _, ok.frames⟩
  | updateValidators validators => exact ⟨Stretch.updateValidators admitted.1 admitted.2, ok.frames⟩
  | forceClearRound => exact ⟨.single .clear, ok.frames⟩
  | stop => exact ⟨Stretch.stop _, ok.frames⟩
  | replayUnfinalizedVotes =>
    have queried : Stretch S p.coordinator
        (p.coordinator, .await [.replayFloor p.coordinator.lastFinalizedHeight]) := by
      refine ⟨.refl, ?_⟩
      simp only [Next.FramesOk, mem_singleton, forall_eq, FrameOk]
      exact admitted
    exact ok.call queried
  | resume task answer => exact ok.resume admitted

theorem ProcessOk.step (sound : S.Sound) {event : Event} (admitted : EventOk S p event) :
    ProcessOk S (p.step S.cfg event) :=
  ⟨ok.votes.moves sound (ok.advances admitted).moves, (ok.advances admitted).frames⟩

end Palimesh.Bft
