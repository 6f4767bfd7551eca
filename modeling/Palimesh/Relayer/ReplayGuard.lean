import Palimesh.Aggregator.Hex
import Palimesh.Collections.DelimitedText
import Palimesh.Protocol.Transition

namespace Palimesh.Relayer

open Collections Aggregator
open Settlement (Bytes)

structure CrossLayerEnvelope where
  srcChainId : Int
  dstChainId : Int
  channelId : Text
  nonce : Int
  payloadHash : Text
deriving DecidableEq

def encodeU64 (value : Int) : Except String Bytes :=
  if value < 0 ∨ 0xffffffffffffffff < value then .error "u64 out of range" else .ok (bigEndian 8 value.toNat)

def encodeBytes32 (hex : Text) : Except String Bytes :=
  let normalized := if hex.take 2 = ['0', 'x'] then hex.drop 2 else hex
  if normalized.length = 64 ∧ normalized.all (fun c => (nibble c).isSome) then .ok (bufferFromHex normalized)
  else .error "bytes32 hex required"

namespace CrossLayerEnvelope

variable (envelope : CrossLayerEnvelope)

def channelKey : Text := (toString envelope.srcChainId).toList ++ ':' :: envelope.channelId

def encoded : Except String Bytes := do
  let srcChainId ← encodeU64 envelope.srcChainId
  let dstChainId ← encodeU64 envelope.dstChainId
  let channelId ← encodeBytes32 envelope.channelId
  let nonce ← encodeU64 envelope.nonce
  let payloadHash ← encodeBytes32 envelope.payloadHash
  return srcChainId ++ dstChainId ++ channelId ++ nonce ++ payloadHash

/-- What a message is identified by: two envelopes that agree here differ in their destination or payload only. -/
def SameMessage (other : CrossLayerEnvelope) : Prop :=
  envelope.srcChainId = other.srcChainId ∧ envelope.channelId = other.channelId ∧ envelope.nonce = other.nonce

instance (other : CrossLayerEnvelope) : Decidable (envelope.SameMessage other) :=
  inferInstanceAs (Decidable (_ ∧ _ ∧ _))

end CrossLayerEnvelope

inductive Check where
  | ok (replayKey : Text)
  | refused (reason : String) (replayKey : Text)
deriving DecidableEq

structure ReplayGuardOptions where
  keccak256Hex : Bytes → Text
  maxReplayKeys : Nat := 100000

structure ReplayGuard where
  lastNonceByChannel : InsertionMap Text Int
  replayKeys : List Text
deriving DecidableEq

structure Persisted where
  lastNonceByChannel : List (Text × Int)
  replayKeys : List Text

def evictOldest (maxReplayKeys : Nat) : List Text → List Text
  | [] => []
  | oldest :: keys =>
    if maxReplayKeys ≤ (oldest :: keys).length then evictOldest maxReplayKeys keys else oldest :: keys

def addKey (keys : List Text) (key : Text) : List Text := if key ∈ keys then keys else keys ++ [key]

namespace ReplayGuard

variable (options : ReplayGuardOptions) (guard : ReplayGuard) (envelope : CrossLayerEnvelope)

def buildReplayKey : Except String Text := envelope.encoded.map options.keccak256Hex

def last : Option Int := guard.lastNonceByChannel.get? envelope.channelKey

def validate : Except String Check :=
  if envelope.srcChainId = envelope.dstChainId then .ok (.refused "invalid chain route" [])
  else if ∃ last ∈ guard.last envelope, envelope.nonce ≤ last then .ok (.refused "nonce not monotonic" [])
  else do
    let replayKey ← buildReplayKey options envelope
    if replayKey ∈ guard.replayKeys then return .refused "replay key already seen" replayKey
    return .ok replayKey

def commit (replayKey : Text) : ReplayGuard where
  lastNonceByChannel := guard.lastNonceByChannel.set envelope.channelKey envelope.nonce
  replayKeys := addKey (evictOldest options.maxReplayKeys guard.replayKeys) replayKey

def persistState : Persisted := ⟨guard.lastNonceByChannel.entries, guard.replayKeys⟩

def loadPersisted : Option Persisted → ReplayGuard
  | none => ⟨.empty, []⟩
  | some file =>
    { lastNonceByChannel := file.lastNonceByChannel.foldl (fun map entry => map.set entry.1 entry.2) .empty
      replayKeys := file.replayKeys.foldl addKey [] }

theorem get?_commit (replayKey channelKey : Text) :
    (guard.commit options envelope replayKey).lastNonceByChannel.get? channelKey =
      if channelKey = envelope.channelKey then some envelope.nonce else guard.lastNonceByChannel.get? channelKey :=
  InsertionMap.get?_set _ _ _ _

variable {envelope} in
theorem last_congr {other : CrossLayerEnvelope} (same : envelope.channelKey = other.channelKey) :
    guard.last envelope = guard.last other := by
  unfold last
  rw [same]

theorem last_lt_of_validate {replayKey : Text} {last : Int}
    (passed : guard.validate options envelope = .ok (.ok replayKey)) (found : guard.last envelope = some last) :
    last < envelope.nonce := by
  unfold validate at passed
  split at passed
  · cases passed
  · split at passed
    · cases passed
    · rename_i above
      by_contra low
      exact above ⟨last, found, not_lt.mp low⟩

end ReplayGuard

inductive RelayResult where
  | accepted
  | rejected (reason : String)
  | thrown (error : String)
deriving DecidableEq

structure PendingRelay where
  envelope : CrossLayerEnvelope
  replayKey : Text
deriving DecidableEq

/-- The engine between two turns of the event loop, with what its sink took and what its calls returned. -/
structure RelayEngine where
  guard : ReplayGuard
  inFlight : List PendingRelay
  forwarded : List CrossLayerEnvelope
  returned : List RelayResult

inductive RelayEvent where
  | relay (envelope : CrossLayerEnvelope)
  | settled (index : Nat) (outcome : Except String Unit)

namespace RelayEngine

variable (options : ReplayGuardOptions) (engine : RelayEngine)

def create (guard : ReplayGuard) : RelayEngine := ⟨guard, [], [], []⟩

/-- Up to the `await`. -/
def relay (envelope : CrossLayerEnvelope) : RelayEngine :=
  match engine.guard.validate options envelope with
  | .error error => { engine with returned := engine.returned ++ [.thrown error] }
  | .ok (.refused reason _) => { engine with returned := engine.returned ++ [.rejected reason] }
  | .ok (.ok replayKey) => { engine with inFlight := engine.inFlight ++ [⟨envelope, replayKey⟩] }

/-- From the `await` on, once the sink's promise for one of the pending calls has settled. -/
def settle (index : Nat) (outcome : Except String Unit) : RelayEngine :=
  match engine.inFlight[index]?, outcome with
  | none, _ => engine
  | some _, .error reason =>
    { engine with inFlight := engine.inFlight.eraseIdx index, returned := engine.returned ++ [.rejected reason] }
  | some call, .ok () =>
    { guard := engine.guard.commit options call.envelope call.replayKey
      inFlight := engine.inFlight.eraseIdx index
      forwarded := engine.forwarded ++ [call.envelope]
      returned := engine.returned ++ [.accepted] }

def step : RelayEvent → RelayEngine
  | .relay envelope => engine.relay options envelope
  | .settled index outcome => engine.settle options index outcome

def run (events : List RelayEvent) : RelayEngine := events.foldl (fun engine event => engine.step options event) engine

/-- Everything an event can do: nothing to guard and sink, one validated call put in flight, or one call taken
    off it, with or without a commit. -/
inductive Effect : RelayEvent → RelayEngine → Prop
  | none {event : RelayEvent} {next : RelayEngine} (guard : next.guard = engine.guard)
      (inFlight : next.inFlight = engine.inFlight) (forwarded : next.forwarded = engine.forwarded) : Effect event next
  | started {next : RelayEngine} (envelope : CrossLayerEnvelope) (replayKey : Text)
      (passed : engine.guard.validate options envelope = .ok (.ok replayKey))
      (guard : next.guard = engine.guard) (inFlight : next.inFlight = engine.inFlight ++ [⟨envelope, replayKey⟩])
      (forwarded : next.forwarded = engine.forwarded) : Effect (.relay envelope) next
  | failed {event : RelayEvent} {next : RelayEngine} (index : Nat) (guard : next.guard = engine.guard)
      (inFlight : next.inFlight = engine.inFlight.eraseIdx index)
      (forwarded : next.forwarded = engine.forwarded) : Effect event next
  | committed {next : RelayEngine} (index : Nat) (call : PendingRelay) (found : engine.inFlight[index]? = some call)
      (guard : next.guard = engine.guard.commit options call.envelope call.replayKey)
      (inFlight : next.inFlight = engine.inFlight.eraseIdx index)
      (forwarded : next.forwarded = engine.forwarded ++ [call.envelope]) : Effect (.settled index (.ok ())) next

theorem relay_effect (envelope : CrossLayerEnvelope) :
    Effect options engine (.relay envelope) (engine.relay options envelope) := by
  unfold relay
  split
  · exact .none rfl rfl rfl
  · exact .none rfl rfl rfl
  · rename_i replayKey passed
    exact .started envelope replayKey passed rfl rfl rfl

theorem settle_effect (index : Nat) (outcome : Except String Unit) :
    Effect options engine (.settled index outcome) (engine.settle options index outcome) := by
  unfold settle
  split
  · exact .none rfl rfl rfl
  · exact .failed index rfl rfl rfl
  · rename_i call found
    exact .committed index call found rfl rfl rfl

theorem step_effect (event : RelayEvent) : Effect options engine event (engine.step options event) := by
  cases event with
  | relay envelope => exact relay_effect options engine envelope
  | settled index outcome => exact settle_effect options engine index outcome

end RelayEngine

end Palimesh.Relayer
