import Palimesh.Relayer.ReplayGuard

namespace Palimesh.Relayer

open Collections Aggregator Protocol List ReplayGuard

namespace CrossLayerEnvelope

variable {envelope other : CrossLayerEnvelope}

theorem channelKey_inj (same : envelope.channelKey = other.channelKey) :
    envelope.srcChainId = other.srcChainId ∧ envelope.channelId = other.channelId := by
  have free : ∀ chainId : Int, ':' ∉ (toString chainId).toList :=
    notMem_int (by decide) (by decide)
  obtain ⟨chains, channels⟩ := split_at_first (free _) (free _) same
  exact ⟨Int.repr_inj.mp (String.toList_injective chains), channels⟩

theorem SameMessage.channelKey (same : envelope.SameMessage other) : envelope.channelKey = other.channelKey := by
  unfold CrossLayerEnvelope.channelKey
  rw [same.1, same.2.1]

end CrossLayerEnvelope

namespace RelayEngine

variable (options : ReplayGuardOptions) (engine : RelayEngine)

def RelaysOnce : Prop := engine.forwarded.Pairwise fun first second => ¬ first.SameMessage second

/-- No channel's last committed nonce is lost or lowered. -/
def KeepsNonces (next : RelayEngine) : Prop :=
  ∀ channelKey last, engine.guard.lastNonceByChannel.get? channelKey = some last →
    ∃ later, next.guard.lastNonceByChannel.get? channelKey = some later ∧ last ≤ later

/-- A call whose forward succeeds still has a nonce above its channel's last one. -/
def InOrder : RelayEvent → Prop
  | .settled index (.ok ()) =>
    ∀ call ∈ engine.inFlight[index]?, ∀ last ∈ engine.guard.last call.envelope, last < call.envelope.nonce
  | _ => True

/-- A call starts while no other of its channel waits for the sink. -/
def Alone : RelayEvent → Prop
  | .relay envelope =>
    ∀ call ∈ engine.inFlight,
      ¬ (call.envelope.srcChainId = envelope.srcChainId ∧ call.envelope.channelId = envelope.channelId)
  | .settled _ _ => True

variable (events : List RelayEvent)

/-- All through the events no message is forwarded twice and no channel's nonce goes down. -/
def RelaysSafely : Prop :=
  Admitted (fun engine event => engine.KeepsNonces (engine.step options event))
      (fun engine event => engine.step options event) engine events ∧
    (engine.run options events).RelaysOnce

def AllInOrder : List RelayEvent → Prop :=
  Admitted InOrder (fun engine event => engine.step options event) engine

def AllAlone : List RelayEvent → Prop :=
  Admitted Alone (fun engine event => engine.step options event) engine

def Covered : Prop :=
  ∀ envelope ∈ engine.forwarded, ∃ last, engine.guard.last envelope = some last ∧ envelope.nonce ≤ last

def Tracked : Prop :=
  ∀ call ∈ engine.inFlight, ∀ last, engine.guard.last call.envelope = some last →
    last < call.envelope.nonce ∨
      ∃ envelope ∈ engine.forwarded, envelope.channelKey = call.envelope.channelKey ∧ envelope.nonce = last

structure Solitary : Prop where
  channels : engine.inFlight.Pairwise fun first second => first.envelope.channelKey ≠ second.envelope.channelKey
  above : ∀ call ∈ engine.inFlight, ∀ last, engine.guard.last call.envelope = some last → last < call.envelope.nonce

theorem forwarded_step (event : RelayEvent) :
    ∃ more, (engine.step options event).forwarded = engine.forwarded ++ more := by
  cases step_effect options engine event with
  | none guard inFlight forwarded => exact ⟨[], by rw [forwarded, append_nil]⟩
  | started envelope replayKey passed guard inFlight forwarded => exact ⟨[], by rw [forwarded, append_nil]⟩
  | failed index guard inFlight forwarded => exact ⟨[], by rw [forwarded, append_nil]⟩
  | committed index call found guard inFlight forwarded => exact ⟨[call.envelope], forwarded⟩

theorem forwarded_run : ∃ more, (engine.run options events).forwarded = engine.forwarded ++ more := by
  induction events generalizing engine with
  | nil => exact ⟨[], by rw [append_nil]; rfl⟩
  | cons event events ih =>
    obtain ⟨first, now⟩ := forwarded_step options engine event
    obtain ⟨more, later⟩ := ih (engine.step options event)
    exact ⟨first ++ more, by rw [← append_assoc, ← now]; exact later⟩

theorem relaysOnce_of_run (once : (engine.run options events).RelaysOnce) : engine.RelaysOnce := by
  obtain ⟨more, grown⟩ := forwarded_run options engine events
  rw [RelaysOnce, grown] at once
  exact (List.pairwise_append.mp once).1

variable {options engine} {next : RelayEngine} {event : RelayEvent}

theorem KeepsNonces.of_guard (same : next.guard = engine.guard) : engine.KeepsNonces next := by
  intro channelKey last found
  exact ⟨last, by rw [same, found], le_rfl⟩

theorem last_commit {guard : ReplayGuard} {call : PendingRelay}
    (committed : guard = engine.guard.commit options call.envelope call.replayKey) (envelope : CrossLayerEnvelope) :
    guard.last envelope =
      if envelope.channelKey = call.envelope.channelKey then some call.envelope.nonce
      else engine.guard.last envelope := by
  rw [committed]
  exact get?_commit _ _ _ _ _

theorem Covered.below {call : PendingRelay} {envelope : CrossLayerEnvelope} (covered : engine.Covered)
    (order : ∀ last ∈ engine.guard.last call.envelope, last < call.envelope.nonce)
    (earlier : envelope ∈ engine.forwarded) (same : envelope.channelKey = call.envelope.channelKey) :
    envelope.nonce < call.envelope.nonce := by
  obtain ⟨last, known, low⟩ := covered envelope earlier
  rw [last_congr engine.guard same] at known
  have above := order last known
  omega

theorem Covered.step (covered : engine.Covered) (order : engine.InOrder event) :
    (engine.step options event).Covered := by
  cases step_effect options engine event with
  | none guard inFlight forwarded =>
    rw [Covered, forwarded, guard]
    exact covered
  | started envelope replayKey passed guard inFlight forwarded =>
    rw [Covered, forwarded, guard]
    exact covered
  | failed index guard inFlight forwarded =>
    rw [Covered, forwarded, guard]
    exact covered
  | committed index call found guard inFlight forwarded =>
    intro envelope member
    rw [last_commit guard]
    rw [forwarded, mem_append, mem_singleton] at member
    by_cases same : envelope.channelKey = call.envelope.channelKey
    · refine ⟨_, if_pos same, ?_⟩
      rcases member with earlier | rfl
      · exact (covered.below (order call found) earlier same).le
      · exact le_rfl
    · rw [if_neg same]
      rcases member with earlier | rfl
      · exact covered envelope earlier
      · exact absurd rfl same

theorem RelaysOnce.step (once : engine.RelaysOnce) (covered : engine.Covered) (order : engine.InOrder event) :
    (engine.step options event).RelaysOnce := by
  cases step_effect options engine event with
  | none guard inFlight forwarded =>
    rw [RelaysOnce, forwarded]
    exact once
  | started envelope replayKey passed guard inFlight forwarded =>
    rw [RelaysOnce, forwarded]
    exact once
  | failed index guard inFlight forwarded =>
    rw [RelaysOnce, forwarded]
    exact once
  | committed index call found guard inFlight forwarded =>
    rw [RelaysOnce, forwarded, pairwise_append]
    refine ⟨once, pairwise_singleton _ _, ?_⟩
    intro envelope earlier last isCall same
    rw [mem_singleton] at isCall
    subst isCall
    exact (covered.below (order call found) earlier same.channelKey).ne same.2.2

theorem KeepsNonces.step (order : engine.InOrder event) : engine.KeepsNonces (engine.step options event) := by
  cases step_effect options engine event with
  | none guard inFlight forwarded => exact .of_guard guard
  | started envelope replayKey passed guard inFlight forwarded => exact .of_guard guard
  | failed index guard inFlight forwarded => exact .of_guard guard
  | committed index call found guard inFlight forwarded =>
    intro channelKey last known
    rw [guard, get?_commit]
    by_cases same : channelKey = call.envelope.channelKey
    · subst same
      exact ⟨_, if_pos rfl, (order call found last known).le⟩
    · exact ⟨last, by rw [if_neg same, known], le_rfl⟩

variable {events : List RelayEvent}

theorem RelaysSafely.of_inOrder (once : engine.RelaysOnce) (covered : engine.Covered)
    (order : engine.AllInOrder options events) : engine.RelaysSafely options events := by
  induction events generalizing engine with
  | nil => exact ⟨trivial, once⟩
  | cons event events ih =>
    obtain ⟨now, later⟩ := order
    obtain ⟨kept, onceAfter⟩ := ih (once.step covered now) (covered.step now) later
    exact ⟨⟨.step now, kept⟩, onceAfter⟩

theorem Tracked.step (tracked : engine.Tracked) : (engine.step options event).Tracked := by
  cases step_effect options engine event with
  | none guard inFlight forwarded =>
    rw [Tracked, forwarded, guard, inFlight]
    exact tracked
  | started envelope replayKey passed guard inFlight forwarded =>
    rw [Tracked, forwarded, guard, inFlight]
    intro call member last found
    rcases List.mem_append.mp member with waiting | new
    · exact tracked call waiting last found
    · rw [mem_singleton] at new
      subst new
      exact .inl (last_lt_of_validate options engine.guard envelope passed found)
  | failed index guard inFlight forwarded =>
    rw [Tracked, forwarded, guard, inFlight]
    intro call member
    exact tracked call (mem_of_mem_eraseIdx member)
  | committed index call found guard inFlight forwarded =>
    rw [Tracked, inFlight]
    intro other member last known
    rw [last_commit guard] at known
    rw [forwarded]
    by_cases same : other.envelope.channelKey = call.envelope.channelKey
    · rw [if_pos same, Option.some.injEq] at known
      exact .inr ⟨call.envelope, by simp, same.symm, known⟩
    · rw [if_neg same] at known
      rcases tracked other (mem_of_mem_eraseIdx member) last known with above | ⟨envelope, earlier, rest⟩
      · exact .inl above
      · exact .inr ⟨envelope, mem_append_left _ earlier, rest⟩

theorem InOrder.of_safe (tracked : engine.Tracked) (kept : engine.KeepsNonces (engine.step options event))
    (once : (engine.step options event).RelaysOnce) : engine.InOrder event := by
  unfold InOrder
  split
  · rename_i index
    intro call found last known
    have finished : engine.step options (.settled index (.ok ())) =
        { guard := engine.guard.commit options call.envelope call.replayKey
          inFlight := engine.inFlight.eraseIdx index
          forwarded := engine.forwarded ++ [call.envelope]
          returned := engine.returned ++ [.accepted] } := by
      simp only [RelayEngine.step, settle, show engine.inFlight[index]? = some call from found]
    rw [finished] at kept once
    obtain ⟨later, after, high⟩ := kept call.envelope.channelKey last known
    simp only [get?_commit, if_true, Option.some.injEq] at after
    rcases tracked call (mem_of_getElem? found) last known with above | ⟨envelope, earlier, channel, nonce⟩
    · exact above
    · have differ := (List.pairwise_append.mp once).2.2 envelope earlier call.envelope (by simp)
      obtain ⟨chains, channels⟩ := CrossLayerEnvelope.channelKey_inj channel
      have apart : envelope.nonce ≠ call.envelope.nonce := fun same => differ ⟨chains, channels, same⟩
      omega
  · trivial

theorem AllInOrder.of_safe (tracked : engine.Tracked) (safe : engine.RelaysSafely options events)
    : engine.AllInOrder options events := by
  induction events generalizing engine with
  | nil => trivial
  | cons event events ih =>
    obtain ⟨⟨now, kept⟩, once⟩ := safe
    have onceNow := relaysOnce_of_run options (engine.step options event) events once
    exact ⟨.of_safe tracked now onceNow, ih tracked.step ⟨kept, once⟩⟩

theorem Solitary.above_last (solitary : engine.Solitary) : engine.InOrder event := by
  unfold InOrder
  split
  · intro call found last known
    exact solitary.above call (mem_of_getElem? found) last known
  · trivial

theorem Solitary.erase (solitary : engine.Solitary) {index : Nat}
    (inFlight : next.inFlight = engine.inFlight.eraseIdx index)
    (last : ∀ call ∈ next.inFlight, next.guard.last call.envelope = engine.guard.last call.envelope) :
    next.Solitary where
  channels := by
    rw [inFlight]
    exact solitary.channels.sublist (eraseIdx_sublist _ _)
  above := by
    intro call member
    rw [last call member]
    rw [inFlight] at member
    exact solitary.above call (mem_of_mem_eraseIdx member)

theorem pairwise_eraseIdx {α : Type} {r : α → α → Prop} (symmetric : ∀ a b, r a b → r b a) {items : List α}
    (pairwise : items.Pairwise r) {index : Nat} {item other : α} (found : items[index]? = some item)
    (member : other ∈ items.eraseIdx index) : r other item := by
  induction items generalizing index with
  | nil => cases found
  | cons head rest ih =>
    obtain ⟨first, later⟩ := List.pairwise_cons.mp pairwise
    cases index with
    | zero =>
      cases found
      exact symmetric _ _ (first other member)
    | succ index =>
      rw [eraseIdx_cons_succ, mem_cons] at member
      rcases member with rfl | kept
      · exact first item (mem_of_getElem? found)
      · exact ih later found kept

theorem Solitary.step (solitary : engine.Solitary) (alone : engine.Alone event) :
    (engine.step options event).Solitary := by
  cases step_effect options engine event with
  | none guard inFlight forwarded =>
    constructor
    · rw [inFlight]
      exact solitary.channels
    · rw [inFlight, guard]
      exact solitary.above
  | started envelope replayKey passed guard inFlight forwarded =>
    constructor
    · rw [inFlight, pairwise_append]
      refine ⟨solitary.channels, pairwise_singleton _ _, ?_⟩
      intro call waiting new isNew same
      rw [mem_singleton] at isNew
      subst isNew
      exact alone call waiting (CrossLayerEnvelope.channelKey_inj same)
    · rw [inFlight, guard]
      intro call member last known
      rcases List.mem_append.mp member with waiting | new
      · exact solitary.above call waiting last known
      · rw [mem_singleton] at new
        subst new
        exact last_lt_of_validate options engine.guard envelope passed known
  | failed index guard inFlight forwarded =>
    apply solitary.erase inFlight
    intro call _
    rw [guard]
  | committed index call found guard inFlight forwarded =>
    apply solitary.erase inFlight
    intro other member
    rw [inFlight] at member
    have differ := pairwise_eraseIdx (fun _ _ => Ne.symm) solitary.channels found member
    rw [last_commit guard, if_neg differ]

theorem AllInOrder.of_alone (solitary : engine.Solitary) (alone : engine.AllAlone options events)
    : engine.AllInOrder options events := by
  induction events generalizing engine with
  | nil => trivial
  | cons event events ih => exact ⟨solitary.above_last, ih (solitary.step alone.1) alone.2⟩

variable (options)

/-- Each message is forwarded once and no nonce is lowered exactly when every forward that succeeds is still in
    order when it does. One call at a time on a channel is safe. -/
theorem relaysSafely_iff_inOrder (guard : ReplayGuard) (events : List RelayEvent) :
    ((create guard).RelaysSafely options events ↔ (create guard).AllInOrder options events) ∧
      ((create guard).AllAlone options events → (create guard).RelaysSafely options events) := by
  have once : (create guard).RelaysOnce := List.Pairwise.nil
  have covered : (create guard).Covered := by
    intro envelope member
    cases member
  have tracked : (create guard).Tracked := by
    intro call member
    cases member
  have solitary : (create guard).Solitary := by
    constructor
    · exact List.Pairwise.nil
    · intro call member
      cases member
  exact ⟨⟨.of_safe tracked, .of_inOrder once covered⟩, fun alone => .of_inOrder once covered (.of_alone solitary alone)⟩

def sampleOptions : ReplayGuardOptions where
  keccak256Hex bytes := bytes.map fun byte => Char.ofNat byte.toNat

def sampleEnvelope (srcChainId nonce : Int) : CrossLayerEnvelope where
  srcChainId := srcChainId
  dstChainId := 2
  channelId := '0' :: 'x' :: List.replicate 64 '1'
  nonce := nonce
  payloadHash := '0' :: 'x' :: List.replicate 64 '2'

def emptyEngine : RelayEngine := create (ReplayGuard.loadPersisted none)

def apartCalls : List RelayEvent :=
  [.relay (sampleEnvelope 1 5), .relay (sampleEnvelope 3 5), .settled 1 (.ok ()), .relay (sampleEnvelope 3 6),
    .settled 0 (.ok ()), .settled 0 (.error "sink offline")]

theorem apartCalls_safe :
    (emptyEngine.run sampleOptions apartCalls).forwarded = [sampleEnvelope 3 5, sampleEnvelope 1 5] ∧
      emptyEngine.RelaysSafely sampleOptions apartCalls := by
  refine ⟨by decide +kernel, (relaysSafely_iff_inOrder sampleOptions _ apartCalls).2 ?_⟩
  refine ⟨?_, ?_, trivial, ?_, trivial, trivial, trivial⟩
  · intro call member
    cases member
  · have waiting : (emptyEngine.run sampleOptions (apartCalls.take 1)).inFlight.all
        (fun call => call.envelope.srcChainId ≠ 3) := by decide +kernel
    intro call member same
    simpa [same.1, sampleEnvelope] using List.all_eq_true.mp waiting call member
  · have waiting : (emptyEngine.run sampleOptions (apartCalls.take 3)).inFlight.all
        (fun call => call.envelope.srcChainId ≠ 3) := by decide +kernel
    intro call member same
    simpa [same.1, sampleEnvelope] using List.all_eq_true.mp waiting call member

/-- One message in flight twice is forwarded twice; of two in flight the later nonce can commit first. -/
theorem overlapping_calls_unsafe :
    (emptyEngine.run sampleOptions [.relay (sampleEnvelope 1 5), .relay (sampleEnvelope 1 5), .settled 0 (.ok ()),
        .settled 0 (.ok ())]).forwarded = [sampleEnvelope 1 5, sampleEnvelope 1 5] ∧
      (emptyEngine.run sampleOptions [.relay (sampleEnvelope 1 5), .relay (sampleEnvelope 1 6),
        .settled 1 (.ok ())]).guard.last (sampleEnvelope 1 5) = some 6 ∧
      (emptyEngine.run sampleOptions [.relay (sampleEnvelope 1 5), .relay (sampleEnvelope 1 6), .settled 1 (.ok ()),
        .settled 0 (.ok ())]).guard.last (sampleEnvelope 1 5) = some 5 := by
  decide +kernel

end RelayEngine

end Palimesh.Relayer
