import Palimesh.Bft.ProcessInvariant

namespace Palimesh.Bft

open Collections Relation List Coordinator Process

structure Coordinator.Steady (c c' : Coordinator) : Prop where
  lastFinalizedHeight : c'.lastFinalizedHeight = c.lastFinalizedHeight
  localPreparedAt : c'.localPreparedAt = c.localPreparedAt

def Frame.passive : Frame → Bool
  | .startRoundLoop _ _ | .deferredStartRound => true
  | _ => false

def TopOk (S : Setting) (c : Coordinator) : Frame → Prop
  | .startRoundFloor _ lastFinalized => lastFinalized = c.lastFinalizedHeight
  | .startRoundRoot block _ => StartOk S c block
  | .replay queue => ∀ m ∈ queue, c.localPreparedAt.get? m.height = some m.blockHash
  | _ => True

def StackOk (S : Setting) (c : Coordinator) : List Frame → Prop
  | [] => True
  | top :: outer => TopOk S c top ∧ ∀ frame ∈ outer, frame.passive = true

def Next.StackOk (S : Setting) (c : Coordinator) : Next → Prop
  | .ret | .throw => True
  | .await frames => frames ≠ [] ∧ Bft.StackOk S c frames

variable {S : Setting} {c c' : Coordinator} {frame : Frame}

theorem TopOk.of_passive (passive : frame.passive = true) : TopOk S c frame := by
  cases frame <;> trivial

variable {stack : List Frame}

theorem StackOk.of_passive (passive : ∀ frame ∈ stack, frame.passive = true) :
    StackOk S c stack := by
  cases stack with
  | nil => trivial
  | cons top outer => exact ⟨.of_passive (passive top (by simp)), fun f member => passive f (by simp [member])⟩

theorem TopOk.steady (ok : TopOk S c frame) (steady : c.Steady c') : TopOk S c' frame := by
  cases frame with
  | startRoundFloor block lastFinalized => exact ok.trans steady.lastFinalizedHeight.symm
  | startRoundRoot block config =>
    refine ⟨?_, ?_⟩
    · rw [Setting.floor, steady.lastFinalizedHeight]
      exact ok.above
    · rw [refusesPrepare, steady.localPreparedAt]
      exact ok.free
  | replay queue =>
    intro m member
    rw [steady.localPreparedAt]
    exact ok m member
  | _ => trivial

theorem StackOk.steady (ok : StackOk S c stack) (steady : c.Steady c') :
    StackOk S c' stack := by
  cases stack with
  | nil => trivial
  | cons top outer => exact ⟨ok.1.steady steady, ok.2⟩

theorem StackOk.continues {outer : List Frame} {next : Next} (ok : next.StackOk S c)
    (passive : ∀ frame ∈ outer, frame.passive = true) : StackOk S c (Process.Continues outer next) := by
  cases next with
  | ret => exact .of_passive passive
  | throw => exact .of_passive fun frame member => passive frame (unwind_subset outer frame member)
  | await frames =>
    obtain ⟨nonempty, stack⟩ := ok
    cases frames with
    | nil => exact absurd rfl nonempty
    | cons top rest =>
      refine ⟨stack.1, ?_⟩
      intro frame member
      rcases List.mem_append.mp member with inner | below
      · exact stack.2 frame inner
      · exact passive frame below

theorem Next.StackOk.inside {next : Next} {outer : List Frame} (ok : next.StackOk S c) (nonempty : outer ≠ [])
    (passive : ∀ frame ∈ outer, frame.passive = true) : (next.inside outer).StackOk S c := by
  cases next with
  | ret => exact ⟨nonempty, .of_passive passive⟩
  | throw => trivial
  | await frames =>
    have joined : Bft.StackOk S c (Process.Continues outer (.await frames)) := .continues ok passive
    exact ⟨by simp [nonempty], joined⟩

def Next.ends : Next → Bool
  | .ret | .throw => true
  | .await _ => false

/-- A call of the coordinator up to where it ends or is suspended. If it ends it changed nothing
    that a suspended `startRound` relies on. -/
structure Turn (S : Setting) (c : Coordinator) (result : Coordinator × Next) : Prop where
  stack : result.2.StackOk S result.1
  steady : result.2.ends = true → c.Steady result.1

variable {result : Coordinator × Next}

namespace Turn

theorem ret (steady : c.Steady c') : Turn S c (c', .ret) := ⟨trivial, fun _ => steady⟩

theorem await (top : TopOk S c' frame) : Turn S c (c', .await [frame]) :=
  ⟨⟨by simp, top, by simp⟩, fun ends => by cases ends⟩

theorem after (turn : Turn S c' result) (steady : c.Steady c') :
    Turn S c result := by
  refine ⟨turn.stack, fun ends => ?_⟩
  have rest := turn.steady ends
  exact ⟨rest.lastFinalizedHeight.trans steady.lastFinalizedHeight,
    rest.localPreparedAt.trans steady.localPreparedAt⟩

variable (c : Coordinator)

theorem afterPrepare : Turn S c c.afterPrepare := by
  unfold Coordinator.afterPrepare
  split
  · exact .ret ⟨rfl, rfl⟩
  · exact .await trivial

variable (active : ActiveRound) (m : BftMessage)

theorem handlePrepareMessage : Turn S c (c.handlePrepareMessage S.cfg active m) := by
  unfold Coordinator.handlePrepareMessage
  dsimp only
  split
  · exact .await trivial
  · split
    · exact (afterPrepare _).after ⟨rfl, rfl⟩
    · exact .await trivial
  · exact (afterPrepare _).after ⟨rfl, rfl⟩

theorem handleCommitMessage : Turn S c (c.handleCommitMessage S.cfg active m) := by
  unfold Coordinator.handleCommitMessage
  dsimp only
  split
  · exact .await trivial
  · exact .ret ⟨rfl, rfl⟩

theorem handleVote : Turn S c (c.handleVote S.cfg active m) := by
  unfold Coordinator.handleVote
  split
  · exact .ret ⟨rfl, rfl⟩
  · dsimp only
    split
    · exact .ret ⟨rfl, rfl⟩
    · split
      · exact (handlePrepareMessage _ active m).after ⟨rfl, rfl⟩
      · exact (handleCommitMessage _ active m).after ⟨rfl, rfl⟩
      · exact .ret ⟨rfl, rfl⟩

theorem buffered : Turn S c ((c.buffer m).probeIfPrepare m) := by
  have steady : c.Steady (c.buffer m) := by
    unfold buffer
    split <;> exact ⟨rfl, rfl⟩
  unfold probeIfPrepare
  split
  · exact .await trivial
  · exact .ret steady

theorem handleMessage : Turn S c (c.handleMessage S.cfg m) := by
  unfold Coordinator.handleMessage
  split
  · split
    · exact buffered c m
    · exact .ret ⟨rfl, rfl⟩
  · dsimp only
    split
    · split
      · exact buffered c m
      · exact .ret ⟨rfl, rfl⟩
    · split
      · exact .ret ⟨rfl, rfl⟩
      · exact handleVote c _ m

theorem startRound (block : ChainBlock) : Turn S c (c.startRound block) := by
  unfold Coordinator.startRound
  split
  · exact .ret ⟨rfl, rfl⟩
  · exact .await rfl

theorem processDeferredBlock : Turn S c c.processDeferredBlock := by
  unfold Coordinator.processDeferredBlock
  split
  · exact .ret ⟨rfl, rfl⟩
  · exact .await trivial

theorem clearTerminal : c.Steady c.clearTerminal := by
  unfold Coordinator.clearTerminal
  split
  · split <;> exact ⟨rfl, rfl⟩
  · exact ⟨rfl, rfl⟩

theorem handleReceivedBlock (block : ChainBlock) : Turn S c (c.handleReceivedBlock S.cfg block) := by
  unfold Coordinator.handleReceivedBlock
  split
  · exact .ret ⟨rfl, rfl⟩
  · split
    · exact (startRound _ block).after (clearTerminal c)
    · dsimp only
      split
      · exact .ret ⟨rfl, rfl⟩
      · split
        · exact .ret ⟨rfl, rfl⟩
        · exact (startRound _ block).after ⟨rfl, rfl⟩

theorem reenter (height : Int) : c.Steady (c.reenterLocallyPreparedRound height) := by
  unfold reenterLocallyPreparedRound
  split
  · exact ⟨rfl, rfl⟩
  · split
    · exact ⟨rfl, rfl⟩
    · split <;> exact ⟨rfl, rfl⟩

theorem roundTimeout : Turn S c c.roundTimeout := by
  unfold Coordinator.roundTimeout
  split
  · split
    · exact .ret ⟨rfl, rfl⟩
    · exact ((processDeferredBlock _).after (reenter _ _)).after ⟨rfl, rfl⟩
  · exact .ret ⟨rfl, rfl⟩

theorem livenessWatchdog : Turn S c c.livenessWatchdog := by
  unfold Coordinator.livenessWatchdog
  split
  · exact ((processDeferredBlock _).after (reenter _ _)).after ⟨rfl, rfl⟩
  · exact .ret ⟨rfl, rfl⟩

end Turn

def FloorOk (S : Setting) (answer : Answer) : Frame → Prop
  | .startRoundFloor _ lastFinalized => S.base ≤ computeStalenessFloor lastFinalized answer.chainHeight
  | _ => True

theorem le_computeStalenessFloor (lastFinalized : Int) (tip : Option Int) :
    lastFinalized ≤ computeStalenessFloor lastFinalized tip := by
  unfold computeStalenessFloor
  split
  · split <;> omega
  · exact le_refl _

theorem startRoundAfterFloor_stack {block : ChainBlock} {floor : Int} (finalized : c.lastFinalizedHeight ≤ floor)
    (base : S.base ≤ floor) :
    (c.startRoundAfterFloor S.cfg block floor).2.StackOk S (c.startRoundAfterFloor S.cfg block floor).1 := by
  unfold startRoundAfterFloor
  split
  · trivial
  · dsimp only
    split
    · trivial
    · split
      · trivial
      · rename_i free
        refine ⟨by simp, ⟨?_, ?_⟩, by simp⟩
        · change max c.clearTerminal.lastFinalizedHeight S.base < block.number
          rw [(Turn.clearTerminal c).lastFinalizedHeight]
          omega
        · change c.clearTerminal.refusesPrepare block = false
          simpa using free

theorem startRoundEnd_stack (c : Coordinator) (thisRound : Option Nat) :
    (c.startRoundEnd thisRound).2.StackOk S (c.startRoundEnd thisRound).1 := by
  unfold startRoundEnd
  split
  · split <;> trivial
  · trivial

theorem startRoundLoop_stack (c : Coordinator) (thisRound : Option Nat) (queue : List BftMessage) :
    (c.startRoundLoop S.cfg thisRound queue).2.StackOk S (c.startRoundLoop S.cfg thisRound queue).1 := by
  cases queue with
  | nil => exact startRoundEnd_stack c thisRound
  | cons m rest =>
    rw [startRoundLoop]
    split
    · exact (Turn.handleMessage c m).stack.inside (by simp) (by simp [Frame.passive])
    · exact startRoundEnd_stack c thisRound

theorem replayVotes_stack {queue : List BftMessage}
    (recorded : ∀ m ∈ queue, c.localPreparedAt.get? m.height = some m.blockHash) :
    (c.replayVotes S.cfg queue).2.StackOk S (c.replayVotes S.cfg queue).1 := by
  cases queue with
  | nil => trivial
  | cons m rest =>
    exact ⟨by simp, fun other member => recorded other (mem_cons_of_mem m member), by simp⟩

theorem resume_stack (inv : VoteInv S c) {answer : Answer} (top : TopOk S c frame)
    (floor : FloorOk S answer frame) :
    (c.resume S.cfg frame answer).2.StackOk S (c.resume S.cfg frame answer).1 := by
  cases frame with
  | startRoundFloor block lastFinalized =>
    refine startRoundAfterFloor_stack ?_ floor
    rw [← (top : lastFinalized = c.lastFinalizedHeight)]
    exact le_computeStalenessFloor _ _
  | startRoundRoot block config =>
    unfold resume startRoundAfterRoot
    dsimp only
    split
    · exact ⟨by simp, trivial, by simp⟩
    · exact startRoundLoop_stack _ _ _
  | startRoundBroadcast block =>
    unfold resume
    dsimp only
    split
    · exact startRoundLoop_stack _ _ _
    · trivial
  | startRoundLoop thisRound queue => exact startRoundLoop_stack c thisRound queue
  | commitBroadcast =>
    unfold resume
    dsimp only
    split
    · exact (Turn.afterPrepare c).stack
    · trivial
  | divergenceProbe => trivial
  | onFinalized => exact (Turn.processDeferredBlock c).stack
  | deferredFloor block lastFinalized =>
    unfold resume
    dsimp only
    split
    · trivial
    · exact (Turn.startRound c block).stack.inside (by simp) (by simp [Frame.passive])
  | deferredStartRound => trivial
  | replayFloor lastFinalized => exact replayVotes_stack (inv.unfinalizedVotes _)
  | replay queue => exact replayVotes_stack top

structure OneCall (S : Setting) (p : Process) : Prop where
  single : p.tasks.length ≤ 1
  stack : ∀ stack ∈ p.tasks, StackOk S p.coordinator stack

variable {p : Process}

theorem OneCall.steady (one : OneCall S p) {c' : Coordinator} (steady : p.coordinator.Steady c') :
    OneCall S { p with coordinator := c' } :=
  ⟨one.single, fun stack member => (one.stack stack member).steady steady⟩

theorem OneCall.call (one : OneCall S p) (turn : Turn S p.coordinator result)
    (single : (p.call result).tasks.length ≤ 1) : OneCall S (p.call result) := by
  have stack : StackOk S result.1 (Process.Continues [] result.2) := .continues turn.stack (by simp)
  unfold Process.call at single ⊢
  split
  · rename_i empty
    have ended : result.2.ends = true := by
      cases next : result.2 with
      | ret => rfl
      | throw => rfl
      | await frames =>
        have pushed := turn.stack
        rw [next] at empty pushed
        simp only [Process.Continues, append_nil] at empty
        exact absurd empty pushed.1
    exact one.steady (turn.steady ended)
  · rename_i empty
    split at single
    · rename_i none
      exact absurd none (by simpa using empty)
    · have idle : p.tasks = [] := by simpa using single
      refine ⟨by simp [idle], ?_⟩
      intro other member
      rw [idle, nil_append, mem_singleton] at member
      rw [member]
      exact stack

theorem setTask_single {frames : List Frame} : ∀ other ∈ setTask [frames] 0 stack, other = stack := by
  intro other member
  unfold setTask at member
  split at member
  · simp at member
  · simpa using member

theorem OneCall.resume (one : OneCall S p) (inv : VoteInv S p.coordinator) {task : Nat} {answer : Answer}
    (floor : ∀ frame outer, p.tasks[task]? = some (frame :: outer) → FloorOk S answer frame) :
    OneCall S (p.step S.cfg (.resume task answer)) := by
  unfold step
  dsimp only
  split
  · rename_i frame outer suspended
    have mine := one.stack _ (mem_of_getElem? suspended)
    have stack := resume_stack inv mine.1 (floor frame outer suspended)
    have bound := List.getElem?_eq_some_iff.mp suspended
    have only : p.tasks = [frame :: outer] ∧ task = 0 := by
      obtain ⟨short, found⟩ := bound
      have length := one.single
      obtain ⟨first, alone⟩ := List.length_eq_one_iff.mp (show p.tasks.length = 1 by omega)
      have zero : task = 0 := by omega
      subst zero
      simp only [alone, getElem_cons_zero] at found
      exact ⟨by rw [alone, found], rfl⟩
    constructor
    · refine le_trans ?_ one.single
      unfold setTask
      split
      · exact length_eraseIdx_le _ _
      · simp
    · intro other member
      rw [only.1, only.2] at member
      rw [setTask_single other member]
      exact .continues stack mine.2
  · exact one

variable (cfg : CoordinatorConfig)

theorem commitRetryTick_steady (c : Coordinator) : c.Steady (c.commitRetryTick cfg) := by
  unfold commitRetryTick
  split
  · exact ⟨rfl, rfl⟩
  · split
    · split
      · exact ⟨rfl, rfl⟩
      · split <;> exact ⟨rfl, rfl⟩
    · exact ⟨rfl, rfl⟩

theorem prepareRetryTick_steady (c : Coordinator) : c.Steady (c.prepareRetryTick cfg) := by
  unfold prepareRetryTick
  split
  · exact ⟨rfl, rfl⟩
  · split
    · dsimp only
      split
      · exact ⟨rfl, rfl⟩
      · split
        · split
          · exact ⟨rfl, rfl⟩
          · split <;> exact ⟨rfl, rfl⟩
        · exact ⟨rfl, rfl⟩
    · exact ⟨rfl, rfl⟩

theorem lingerTick_steady (c : Coordinator) : c.Steady (c.lingerTick cfg) := by
  unfold lingerTick
  split
  · exact ⟨rfl, rfl⟩
  · split
    · exact ⟨rfl, rfl⟩
    · split <;> exact ⟨rfl, rfl⟩

def SequentialOk (S : Setting) (p : Process) : Event → Prop
  | .handleMessage m => S.heard m
  | .updateValidators validators =>
    S.good validators ∧ Coordinator.membershipChanged p.coordinator.validators validators = false
  | .resume task answer => ∀ frame outer, p.tasks[task]? = some (frame :: outer) → FloorOk S answer frame ∧
      ∀ block config, frame = .startRoundRoot block config → S.rooted block answer.stateRoot
  | .replayUnfinalizedVotes => S.replays
  | _ => True

theorem OneCall.event (one : OneCall S p) {event : Event} (fed : SequentialOk S p event) : EventOk S p event := by
  cases event with
  | resume task answer =>
    intro frame outer suspended
    have top := (one.stack _ (mem_of_getElem? suspended)).1
    cases frame with
    | startRoundRoot block config => exact ⟨top, (fed _ outer suspended).2 block config rfl⟩
    | replay queue => exact top
    | _ => trivial
  | _ => exact fed

theorem OneCall.step (one : OneCall S p) (inv : VoteInv S p.coordinator) {event : Event}
    (fed : SequentialOk S p event) (single : (p.step S.cfg event).tasks.length ≤ 1) :
    OneCall S (p.step S.cfg event) := by
  cases event with
  | startRound block => exact one.call (.startRound _ block) single
  | handleReceivedBlock block => exact one.call (.handleReceivedBlock _ block) single
  | handleMessage m => exact one.call (.handleMessage _ m) single
  | roundTimeout => exact one.call (.roundTimeout _) single
  | livenessWatchdog => exact one.call (.livenessWatchdog _) single
  | commitRetryTick => exact one.steady (commitRetryTick_steady _ _)
  | prepareRetryTick => exact one.steady (prepareRetryTick_steady _ _)
  | lingerTick => exact one.steady (lingerTick_steady _ _)
  | updateValidators validators =>
    apply one.steady
    unfold updateValidators
    rw [fed.2]
    exact ⟨rfl, rfl⟩
  | forceClearRound => exact one.steady ⟨rfl, rfl⟩
  | stop => exact one.steady ⟨rfl, rfl⟩
  | replayUnfinalizedVotes =>
    have queried : Turn S p.coordinator
        (p.coordinator, .await [.replayFloor p.coordinator.lastFinalizedHeight]) := .await trivial
    exact one.call queried single
  | resume task answer => exact one.resume inv fun frame outer suspended => (fed frame outer suspended).1

theorem ProcessOk.sequential_step (ok : ProcessOk S p) (one : OneCall S p) (sound : S.Sound) {event : Event}
    (fed : SequentialOk S p event) (single : (p.step S.cfg event).tasks.length ≤ 1) :
    ProcessOk S (p.step S.cfg event) ∧ OneCall S (p.step S.cfg event) :=
  ⟨ok.step sound (one.event fed), one.step ok.votes fed single⟩

end Palimesh.Bft
