import Palimesh.Collections.Mapping
import Palimesh.Dht.TableInvariant

namespace Palimesh.Dht

open Collections Protocol RoutingTable List

def Node.observing (node : Node) (observedIp : String → Option String) : Node := { node with observedIp := observedIp }

/-- `resume` when other addresses are observed by then: the newcomer has the host it had before the await. -/
def RoutingTable.resumeAfter (t : RoutingTable) (before after : Node) (call : Pending) (answer : Option Bool)
    (now : Int) : RoutingTable :=
  match answer, find (t.buckets call.idx) call.oldest.id with
  | none, _ => t
  | some _, none => t.pushIfRoom before call.idx call.peer now
  | some false, some entry => (t.evict after call.idx entry).pushIfRoom before call.idx call.peer now
  | some true, some _ => t.refresh call.idx call.oldest now

structure Observed where
  node : Node
  table : RoutingTable

namespace Observed

/-- One call at a time. Where it pings, `observedIp` is what is observed when the answer comes. -/
inductive Event
  | addPeer (peer : DhtPeer) (now : Int) (observedIp : String → Option String) (alive : Option Bool) (later : Int)
  | removePeer (peerId : String)
  | observe (observedIp : String → Option String)

def step (s : Observed) : Event → Observed
  | .addPeer peer now observedIp alive later =>
    match s.table.addPeer s.node peer now with
    | (.pinging call, table) =>
      ⟨s.node.observing observedIp, table.resumeAfter s.node (s.node.observing observedIp) call alive later⟩
    | (_, table) => ⟨s.node, table⟩
  | .removePeer peerId => ⟨s.node, s.table.removePeer s.node peerId⟩
  | .observe observedIp => ⟨s.node.observing observedIp, s.table⟩

def SameHosts (node : Node) (observedIp : String → Option String) (peers : List DhtPeer) : Prop :=
  ∀ p ∈ peers, (node.observing observedIp).effectiveHost p = node.effectiveHost p

/-- No peer gets another host while it is in the table or about to be put there. -/
def Admits (s : Observed) : Event → Prop
  | .addPeer peer _ observedIp _ _ => SameHosts s.node observedIp (peer :: s.table.allPeers)
  | .removePeer _ => True
  | .observe observedIp => SameHosts s.node observedIp s.table.allPeers

instance (s : Observed) (event : Event) : Decidable (s.Admits event) := by
  unfold Admits SameHosts
  split <;> infer_instance

variable {node : Node} {t : RoutingTable} {observedIp : String → Option String} {idx : Fin idBits}

theorem SameHosts.sameHost {peers : List DhtPeer} (same : SameHosts node observedIp peers) (host : String) :
    (node.observing observedIp).sameHost peers host = node.sameHost peers host := by
  apply countP_congr
  intro p member
  rw [same p member]

theorem SameHosts.bucket (same : SameHosts node observedIp t.allPeers) (idx : Fin idBits) :
    SameHosts node observedIp (t.buckets idx) :=
  fun p member => same p (mem_flatMap.mpr ⟨idx, mem_finRange idx, member⟩)

theorem Sound.observe (sound : Sound node t) (same : SameHosts node observedIp t.allPeers) :
    Sound (node.observing observedIp) t := by
  refine { sound with perBucket := fun idx host public_ => ?_, counted := fun host => ?_ }
  · rw [(same.bucket idx).sameHost]
    exact sound.perBucket idx host public_
  · rw [sound.counted, hostCount_allPeers, hostCount_allPeers]
    exact (same.sameHost host).symm

theorem calm_alone {call : Pending} {rest : List DhtPeer} (oldest : t.buckets call.idx = call.oldest :: rest)
    (fresh : find (t.buckets call.idx) call.peer.id = none)
    (allowed : t.capped node (t.buckets call.idx) (node.effectiveHost call.peer) = false) (answer : Option Bool) :
    undisturbed node t call answer = true := by
  have found : find (t.buckets call.idx) call.oldest.id = some call.oldest := by
    rw [oldest]
    exact find?_cons_of_pos (decide_eq_true rfl)
  unfold undisturbed
  rw [found]
  match answer with
  | none => rfl
  | some true => exact decide_eq_true rfl
  | some false =>
    have left : (t.evict node call.idx call.oldest).buckets call.idx = others (t.buckets call.idx) call.oldest.id :=
      (setBucket_buckets t call.idx call.idx _).trans (if_pos rfl)
    have fewer : others (t.buckets call.idx) call.oldest.id <+ t.buckets call.idx := eraseP_sublist
    have hosts : node.sameHost (others (t.buckets call.idx) call.oldest.id) (node.effectiveHost call.peer) ≤
        node.sameHost (t.buckets call.idx) (node.effectiveHost call.peer) := fewer.countP_le
    have counts := ipCount_evict node t call.idx call.oldest (node.effectiveHost call.peer)
    have away : find (others (t.buckets call.idx) call.oldest.id) call.peer.id = none :=
      List.find?_eq_none.mpr fun p member => List.find?_eq_none.mp fresh p (fewer.subset member)
    have admissible : (t.evict node call.idx call.oldest).capped node (others (t.buckets call.idx) call.oldest.id)
        (node.effectiveHost call.peer) = false := by
      unfold capped at allowed ⊢
      simp only [Bool.and_eq_false_iff, Bool.or_eq_false_iff, decide_eq_false_iff_not] at allowed ⊢
      exact allowed.imp_right fun room => by omega
    simp [stillAdmissible, left, away, admissible]

theorem Sound.observedStep {s : Observed} (sound : Sound s.node s.table) (event : Event) (admitted : s.Admits event) :
    Sound (s.step event).node (s.step event).table := by
  cases event with
  | removePeer peerId => exact sound.removePeer peerId
  | observe observedIp => exact Sound.observe sound admitted
  | addPeer peer now observedIp alive later =>
    have added := sound.addPeer peer now
    unfold step
    dsimp only
    split
    · rename_i call table waits
      obtain ⟨place, rfl, rfl, fresh, allowed, rest, oldest⟩ := addPeer_pinging waits
      have own := admitted call.peer mem_cons_self
      have same : SameHosts s.node observedIp s.table.allPeers := fun p member => admitted p (mem_cons_of_mem _ member)
      have resumed : s.table.resumeAfter s.node (s.node.observing observedIp) call alive later =
          s.table.resume (s.node.observing observedIp) call alive later := by
        simp only [resumeAfter, pushIfRoom, push, ← own]
        rfl
      rw [resumed]
      refine (Sound.observe sound same).resume place (calm_alone oldest fresh ?_ alive) later
      rw [capped, own, (same.bucket call.idx).sameHost]
      exact allowed
    · rename_i outcome
      rw [outcome] at added
      exact added

end Observed

theorem total_eq_length {m : InsertionMap String Nat} {hosts : List String}
    (counts : ∀ host, (m.get? host).getD 0 = hosts.count host) : m.total id = hosts.length := by
  have values : m.entries.map (fun entry => id entry.2) = (m.entries.map Prod.fst).map hosts.count := by
    rw [map_map]
    apply map_congr_left
    intro entry member
    rw [Function.comp_apply, ← counts, InsertionMap.get?_eq_of_mem member]
    rfl
  rw [InsertionMap.total, values, ← List.sum_toFinset _ m.nodup]
  simp only [← Multiset.coe_count, ← Multiset.coe_card]
  refine Multiset.sum_count_eq_card fun host member => mem_toFinset.mpr ?_
  apply (InsertionMap.mem_keys m host).mpr
  have listed := List.count_pos_iff.mpr (Multiset.mem_coe.mp member)
  rw [← counts] at listed
  cases found : m.get? host with
  | none => simp [found] at listed
  | some count => rfl

open Observed

/-- As long as no peer that is kept changes its host, the counts are those of the peers. -/
theorem counts_follow_peers (node : Node) (s : Observed) (reached : Reaches Admits step ⟨node, .empty⟩ s) :
    s.table.globalIpCount.total id = s.table.allPeers.length ∧
      ∀ host, s.table.ipCount host = s.table.allPeers.countP fun p => s.node.effectiveHost p = host := by
  have sane := (reached.invariant (fun s => Sound s.node s.table) (Sound.empty node)
    fun _ event sound admitted => Sound.observedStep sound event admitted).sane
  refine ⟨?_, sane.counted⟩
  rw [← length_map s.node.effectiveHost]
  apply total_eq_length
  intro host
  rw [sane.counted, List.count, countP_map]
  rfl

section Sample

def seenAt (address : String) (id : String) : Option String := if id = "0x101" then some address else none

def observedRun : List Event :=
  [.addPeer (peerAt "10.0.0.1:1" "0x100") 0 (fun _ => none) none 0, .observe (seenAt "10.0.0.2"),
    .addPeer (peerAt "10.0.0.1:1" "0x101") 1 (seenAt "10.0.0.2") none 1, .removePeer "0x100"]

def observedNow (events : List Event) : Observed := events.foldl step ⟨sampleNode, .empty⟩

theorem observedRun_counted : (observedNow observedRun).table.ipCount "10.0.0.2" = 1 ∧
    (observedNow observedRun).table.globalIpCount.total id = (observedNow observedRun).table.allPeers.length := by
  have reached : Reaches Admits step ⟨sampleNode, .empty⟩ (observedNow observedRun) :=
    Reaches.run .start (by decide +kernel)
  exact ⟨by decide +kernel, (counts_follow_peers sampleNode _ reached).1⟩

/-- The peer was counted under the address it gave and is removed under the one it was seen at. -/
theorem observed_peer_stays_counted :
    let s := observedNow [.addPeer (peerAt "10.0.0.1:1" "0x101") 0 (fun _ => none) none 0, .observe (seenAt "10.0.0.2"),
      .removePeer "0x101"]
    s.table.allPeers.length = 0 ∧ s.table.globalIpCount.total id = 1 ∧ s.table.ipCount "10.0.0.1" = 1 := by
  decide +kernel

end Sample

end Palimesh.Dht
