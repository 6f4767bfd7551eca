import Palimesh.Chain.Block
import Palimesh.Collections.InsertionMap

namespace Palimesh.Dht

open Collections

def bucketSize : Nat := 20

def idBits : Nat := 256

def maxPeersPerIpPerBucket : Nat := 2

def maxPeersPerIpGlobal : Nat := 10

structure DhtPeer where
  id : String
  address : String
  lastSeenMs : Int
deriving DecidableEq

def hexDigit (c : Char) : Option Nat :=
  if '0' ≤ c ∧ c ≤ '9' then some (c.toNat - '0'.toNat)
  else if 'a' ≤ c ∧ c ≤ 'f' then some (c.toNat - 'a'.toNat + 10)
  else if 'A' ≤ c ∧ c ≤ 'F' then some (c.toNat - 'A'.toNat + 10)
  else none

def cleanHex (hex : String) : List Char :=
  match hex.toList with
  | '0' :: 'x' :: clean => clean
  | chars => chars

def pairBytes : List Nat → List Nat
  | high :: low :: rest => (high * 16 + low) :: pairBytes rest
  | _ => []

/-- Throws, here `none`, on anything but hex digits; an odd length is padded on the left. -/
def hexToBytes (hex : String) : Option (List Nat) := do
  let digits ← (cleanHex hex).mapM hexDigit
  return pairBytes (if digits.length % 2 = 1 then 0 :: digits else digits)

def padLeft (length : Nat) (bytes : List Nat) : List Nat := List.replicate (length - bytes.length) 0 ++ bytes

def xorDistance (a b : String) : Option Nat := do
  let aBuf ← hexToBytes a
  let bBuf ← hexToBytes b
  let length := max aBuf.length bBuf.length
  return (List.zipWith (· ^^^ ·) (padLeft length aBuf) (padLeft length bBuf)).foldl
    (fun result byte => (result <<< 8) ||| byte) 0

def bucketIndex (localId remoteId : String) : Option Nat :=
  (xorDistance localId remoteId).map fun dist => if dist = 0 then 0 else dist.log2

def lastIndexOf (c : Char) (chars : List Char) : Option Nat :=
  (chars.reverse.idxOf? c).map fun fromEnd => chars.length - 1 - fromEnd

/-- The host in `host:port` and `[host]:port`; a bare IPv6 address has several colons. -/
def extractHost (address : String) : String :=
  let chars := address.toList
  let unbracketed :=
    match chars.idxOf? ':', lastIndexOf ':' chars with
    | some firstColon, some lastColon =>
      if lastColon = 0 ∨ firstColon ≠ lastColon then address else String.ofList (chars.take lastColon)
    | _, _ => address
  match chars.head?, chars.idxOf? ']' with
  | some '[', some closeBracket => String.ofList ((chars.take closeBracket).drop 1)
  | _, _ => unbracketed

def trim (chars : List Char) : List Char :=
  ((chars.dropWhile Char.isWhitespace).reverse.dropWhile Char.isWhitespace).reverse

def dropDot (chars : List Char) : List Char := if chars.getLast? = some '.' then chars.dropLast else chars

/-- One quota for all names that are not IP addresses; `isIP` is the runtime's. -/
def normalizeHostForBucket (isIP : String → Nat) (host : String) : String :=
  let normalized := dropDot (trim (host.toList.map Char.toLower))
  let mapped := String.ofList (normalized.drop 7)
  if normalized.take 7 = "::ffff:".toList ∧ isIP mapped = 4 then mapped
  else if isIP (String.ofList normalized) = 0 ∧ String.ofList normalized ≠ "localhost" then "__dns_hostname__"
  else String.ofList normalized

def isLoopbackHost (host : String) : Bool :=
  host = "localhost" || host = "::1" || host.toList.take 4 = "127.".toList ||
    host.toList.take 11 = "::ffff:127.".toList

def validId (id : String) : Bool :=
  decide (3 ≤ id.length) && !(cleanHex id).isEmpty && (cleanHex id).all fun c => (hexDigit c).isSome

/-- What stays fixed while a table is used: its own id, the observed addresses, whether peers can be pinged. -/
structure Node where
  localId : String
  observedIp : String → Option String
  isIP : String → Nat
  pings : Bool

namespace Node

variable (node : Node)

def effectiveHost (peer : DhtPeer) : String :=
  normalizeHostForBucket node.isIP ((node.observedIp peer.id).getD (extractHost peer.address))

/-- The bucket of an id. An id that is not hex, or too long for the table, throws. -/
def bucketOf (id : String) : Option (Fin idBits) :=
  (bucketIndex node.localId id).bind fun idx => if h : idx < idBits then some ⟨idx, h⟩ else none

def sameHost (peers : List DhtPeer) (host : String) : Nat := peers.countP fun p => node.effectiveHost p = host

end Node

structure RoutingTable where
  buckets : Fin idBits → List DhtPeer
  globalIpCount : InsertionMap String Nat

namespace RoutingTable

def empty : RoutingTable := ⟨fun _ => [], .empty⟩

variable (t : RoutingTable)

def allPeers : List DhtPeer := (List.finRange idBits).flatMap t.buckets

def ipCount (host : String) : Nat := (t.globalIpCount.get? host).getD 0

def setBucket (idx : Fin idBits) (peers : List DhtPeer) : RoutingTable :=
  { t with buckets := Function.update t.buckets idx peers }

def incrementGlobalIpCount (host : String) : RoutingTable :=
  { t with globalIpCount := t.globalIpCount.set host ((t.globalIpCount.get? host).getD 0 + 1) }

def decrementGlobalIpCount (host : String) : RoutingTable :=
  let count := (t.globalIpCount.get? host).getD 1 - 1
  { t with
    globalIpCount := if count = 0 then t.globalIpCount.delete host else t.globalIpCount.set host count }

def find (peers : List DhtPeer) (id : String) : Option DhtPeer := peers.find? fun p => p.id = id

def others (peers : List DhtPeer) (id : String) : List DhtPeer := peers.eraseP fun p => p.id = id

variable (node : Node) (idx : Fin idBits) (peer : DhtPeer) (now : Int)

def capped (peers : List DhtPeer) (host : String) : Bool :=
  !isLoopbackHost host && (decide (maxPeersPerIpPerBucket ≤ node.sameHost peers host) ||
    decide (maxPeersPerIpGlobal ≤ t.ipCount host))

def push : RoutingTable :=
  (t.setBucket idx (t.buckets idx ++ [{ peer with lastSeenMs := now }])).incrementGlobalIpCount (node.effectiveHost peer)

def refresh : RoutingTable :=
  t.setBucket idx (others (t.buckets idx) peer.id ++ [{ peer with lastSeenMs := now }])

/-- An `addPeer` that waits for the answer of the oldest peer of a full bucket. -/
structure Pending where
  idx : Fin idBits
  peer : DhtPeer
  oldest : DhtPeer
deriving DecidableEq

inductive AddResult
  | returned (added : Bool)
  | threw
  | pinging (call : Pending)
deriving DecidableEq

def updatePeer (oldPeer peer : DhtPeer) (now : Int) : AddResult × RoutingTable :=
  let oldHost := node.effectiveHost oldPeer
  let peerHost := node.effectiveHost peer
  if oldHost = peerHost then (.returned true, t.refresh idx peer now)
  else if t.capped node (others (t.buckets idx) peer.id) peerHost then
    -- Only the new address is denied.
    (.returned false, t.refresh idx oldPeer now)
  else
    (.returned true,
      ((t.refresh idx peer now).decrementGlobalIpCount oldHost).incrementGlobalIpCount peerHost)

def insertPeer : AddResult × RoutingTable :=
  if t.capped node (t.buckets idx) (node.effectiveHost peer) then (.returned false, t)
  else if (t.buckets idx).length < bucketSize then (.returned true, t.push node idx peer now)
  else match node.pings, t.buckets idx with
    | true, oldest :: _ => (.pinging ⟨idx, peer, oldest⟩, t)
    | _, _ => (.returned false, t)

def addPeer : AddResult × RoutingTable :=
  if peer.id = node.localId then (.returned false, t)
  else if validId peer.id = false then (.returned false, t)
  else match node.bucketOf peer.id with
    | none => (.threw, t)
    | some idx =>
      match find (t.buckets idx) peer.id with
      | some oldPeer => t.updatePeer node idx oldPeer peer now
      | none => t.insertPeer node idx peer now

def evict : RoutingTable :=
  (t.setBucket idx (others (t.buckets idx) peer.id)).decrementGlobalIpCount (node.effectiveHost peer)

def pushIfRoom : RoutingTable :=
  if (t.buckets idx).length < bucketSize then t.push node idx peer now else t

/-- `addPeer` after its await: the table may have changed, but the checks are not made again. No answer means that
the ping was rejected. -/
def resume (call : Pending) (answer : Option Bool) (now : Int) : RoutingTable :=
  match answer, find (t.buckets call.idx) call.oldest.id with
  | none, _ => t
  | some _, none => t.pushIfRoom node call.idx call.peer now
  | some false, some entry => (t.evict node call.idx entry).pushIfRoom node call.idx call.peer now
  | some true, some _ => t.refresh call.idx call.oldest now

def removePeer (peerId : String) : RoutingTable :=
  match node.bucketOf peerId with
  | none => t
  | some idx =>
    match find (t.buckets idx) peerId with
    | none => t
    | some peer => t.evict node idx peer

end RoutingTable

open RoutingTable

structure System where
  table : RoutingTable
  waiting : List Pending

inductive DhtEvent
  | addPeer (peer : DhtPeer) (now : Int)
  | removePeer (peerId : String)
  | answer (call : Nat) (alive : Option Bool) (now : Int)
deriving DecidableEq

def System.step (node : Node) (s : System) : DhtEvent → System
  | .addPeer peer now =>
    match s.table.addPeer node peer now with
    | (.pinging call, table) => ⟨table, s.waiting ++ [call]⟩
    | (_, table) => ⟨table, s.waiting⟩
  | .removePeer peerId => ⟨s.table.removePeer node peerId, s.waiting⟩
  | .answer index alive now =>
    match s.waiting[index]? with
    | none => s
    | some call => ⟨s.table.resume node call alive now, s.waiting.eraseIdx index⟩

def System.start : System := ⟨RoutingTable.empty, []⟩

end Palimesh.Dht
