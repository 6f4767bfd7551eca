import Palimesh.Dht.Observations

namespace Palimesh.Dht

open Collections Protocol RoutingTable List

def number (id : String) : Option Nat := (hexToBytes id).map (foldl (fun value byte => value * 256 + byte) 0)

def Observed.Names (spelled : String → Prop) (_ : Observed) : Event → Prop
  | .addPeer peer _ _ _ _ => spelled peer.id
  | .removePeer peerId => spelled peerId
  | .observe _ => True

instance (spelled : String → Prop) [DecidablePred spelled] (s : Observed) (event : Observed.Event) :
    Decidable (s.Names spelled event) :=
  match event with
  | .addPeer peer _ _ _ _ => inferInstanceAs (Decidable (spelled peer.id))
  | .removePeer peerId => inferInstanceAs (Decidable (spelled peerId))
  | .observe _ => instDecidableTrue

/-- What an entry is called; its host plays no part. -/
structure Named (node : Node) (spelled : String → Prop) (idx : Fin idBits) (id : String) : Prop where
  spelled : spelled id
  foreign : id ≠ node.localId
  placed : node.bucketOf id = some idx

structure Identified (node : Node) (spelled : String → Prop) (t : RoutingTable) : Prop where
  named : ∀ idx, ∀ p ∈ t.buckets idx, Named node spelled idx p.id
  distinct : ∀ idx, ((t.buckets idx).map DhtPeer.id).Nodup

variable {node : Node} {spelled : String → Prop} {t t' : RoutingTable} {idx : Fin idBits} {peer entry : DhtPeer}

section Tables

variable (ident : Identified node spelled t)
include ident

theorem Identified.drop {kept : List DhtPeer} (buckets : t'.buckets = (t.setBucket idx kept).buckets)
    (fewer : kept <+ t.buckets idx) : Identified node spelled t' := by
  constructor <;> intro i <;> rw [buckets, setBucket_buckets] <;> split
  · rename_i here
    exact fun p member => here ▸ ident.named idx p (fewer.subset member)
  · exact ident.named i
  · exact (fewer.map _).nodup (ident.distinct idx)
  · exact ident.distinct i

theorem Identified.add (buckets : t'.buckets = (t.setBucket idx (t.buckets idx ++ [peer])).buckets)
    (named : Named node spelled idx peer.id) (fresh : peer.id ∉ (t.buckets idx).map DhtPeer.id) :
    Identified node spelled t' := by
  constructor <;> intro i <;> rw [buckets, setBucket_buckets] <;> split
  · rename_i here
    intro p member
    rcases List.mem_append.mp member with earlier | new
    · exact here ▸ ident.named idx p earlier
    · rw [here, List.mem_singleton.mp new]
      exact named
  · exact ident.named i
  · rw [map_append, nodup_append_comm]
    exact List.nodup_cons.mpr ⟨fresh, ident.distinct idx⟩
  · exact ident.distinct i

theorem Identified.refresh (found : find (t.buckets idx) peer.id = some entry) (now : Int) :
    Identified node spelled (t.refresh idx peer now) := by
  have own := id_of_find found
  have evicted : Identified node spelled (t.evict node idx entry) := ident.drop rfl eraseP_sublist
  have named := ident.named idx entry (mem_of_find?_eq_some found)
  refine evicted.add (refresh_buckets t own now) (own ▸ named : Named node spelled idx peer.id) ?_
  have distinct := ((perm_others found).map DhtPeer.id).nodup_iff.mp (ident.distinct idx)
  rw [map_cons, nodup_cons, own] at distinct
  rw [show (t.evict node idx entry).buckets idx = others (t.buckets idx) entry.id from
    (setBucket_buckets t idx idx _).trans (if_pos rfl), own]
  exact distinct.1

theorem Identified.pushIfRoom (named : Named node spelled idx peer.id) (fresh : find (t.buckets idx) peer.id = none)
    (host : Node) (now : Int) : Identified node spelled (t.pushIfRoom host idx peer now) := by
  unfold RoutingTable.pushIfRoom
  split
  · exact ident.add rfl (by exact named) (by exact find_eq_none fresh)
  · exact ident

theorem Identified.addPeer (here : spelled peer.id) (now : Int) :
    Identified node spelled (t.addPeer node peer now).2 ∧
      ∀ call t', t.addPeer node peer now = (.pinging call, t') → peer.id ≠ node.localId := by
  unfold RoutingTable.addPeer
  split
  · exact ⟨ident, nofun⟩
  · rename_i foreign
    refine ⟨?_, fun _ _ _ => foreign⟩
    split
    · exact ident
    · split
      · exact ident
      · rename_i idx placed
        split
        · rename_i old found
          unfold RoutingTable.updatePeer
          dsimp only
          split
          · exact ident.refresh found now
          · split
            · exact ident.refresh (id_of_find found ▸ found) now
            · exact { ident.refresh found now with }
        · rename_i missing
          unfold insertPeer
          split
          · exact ident
          · split
            · exact ident.add rfl (by exact ⟨here, foreign, placed⟩) (by exact find_eq_none missing)
            · split <;> exact ident

theorem Identified.resumeAfter {call : Pending} (named : Named node spelled call.idx call.peer.id)
    (missing : find (t.buckets call.idx) call.peer.id = none) (before after : Node) (answer : Option Bool) (now : Int) :
    Identified node spelled (t.resumeAfter before after call answer now) := by
  unfold RoutingTable.resumeAfter
  split
  · exact ident
  · exact ident.pushIfRoom named missing before now
  · rename_i entry found
    have evicted : Identified node spelled (t.evict after call.idx entry) := ident.drop rfl eraseP_sublist
    refine evicted.pushIfRoom named ?_ before now
    rw [show (t.evict after call.idx entry).buckets call.idx = _ from (setBucket_buckets t call.idx call.idx _).trans
      (if_pos rfl)]
    exact List.find?_eq_none.mpr fun p member => List.find?_eq_none.mp missing p (eraseP_subset member)
  · rename_i entry found
    exact ident.refresh found now

theorem Identified.removePeer (node' : Node) (peerId : String) : Identified node spelled (t.removePeer node' peerId) := by
  unfold RoutingTable.removePeer
  split
  · exact ident
  · split
    · exact ident
    · exact ident.drop rfl eraseP_sublist

theorem Identified.observing (observedIp : String → Option String) :
    Identified (node.observing observedIp) spelled t :=
  { ident with named := fun idx p member => { ident.named idx p member with } }

end Tables

theorem Identified.step {s : Observed} (ident : Identified s.node spelled s.table) (event : Observed.Event)
    (names : s.Names spelled event) :
    (s.step event).node.localId = s.node.localId ∧ Identified (s.step event).node spelled (s.step event).table := by
  cases event with
  | removePeer peerId => exact ⟨rfl, ident.removePeer s.node peerId⟩
  | observe observedIp => exact ⟨rfl, ident.observing observedIp⟩
  | addPeer peer now observedIp alive later =>
    obtain ⟨added, foreign⟩ := ident.addPeer names now
    unfold Observed.step
    dsimp only
    split
    · rename_i call table waits
      obtain ⟨placed, rfl, rfl, missing, -⟩ := addPeer_pinging waits
      exact ⟨rfl, (ident.resumeAfter ⟨names, foreign _ _ waits, placed⟩ missing _ _ alive later).observing _⟩
    · rename_i outcome
      rw [outcome] at added
      exact ⟨rfl, added⟩

theorem bucketOf_near {id : String} {distance : Nat} (apart : xorDistance node.localId id = some distance)
    (near : distance < 2 ^ idBits) : node.bucketOf id ≠ none := by
  rw [Node.bucketOf, bucketIndex, apart]
  have inside : (if distance = 0 then 0 else distance.log2) < idBits := by
    split
    · decide
    · rename_i positive
      exact (Nat.log2_lt positive).mpr near
  simp [inside]

/-- Where the ids in use have one spelling for each number, within the table's distance, no call throws, and the
    entries are different numbers, none of them the table's own. -/
theorem routing_ids_canonical (node : Node) (spelled : String → Prop)
    (canonical : ∀ a, spelled a → ∀ b, spelled b → number a = number b → a = b) (own : spelled node.localId)
    (near : ∀ id, spelled id → ∃ distance ∈ xorDistance node.localId id, distance < 2 ^ idBits) (s : Observed)
    (reached : Reaches (Observed.Names spelled) Observed.step ⟨node, .empty⟩ s) :
    (∀ id, spelled id → s.node.bucketOf id ≠ none) ∧
      (∀ peer now, spelled peer.id → (s.table.addPeer s.node peer now).1 ≠ .threw) ∧
      (s.table.allPeers.map fun p => number p.id).Nodup ∧
      ∀ p ∈ s.table.allPeers, number p.id ≠ number node.localId := by
  have start : Identified node spelled .empty := ⟨fun _ _ => nofun, fun _ => nodup_nil⟩
  obtain ⟨same, ident⟩ : s.node.localId = node.localId ∧ Identified s.node spelled s.table := by
    refine reached.invariant (fun s => s.node.localId = node.localId ∧ Identified s.node spelled s.table)
      ⟨rfl, start⟩ ?_
    intro s event ⟨same, ident⟩ names
    obtain ⟨kept, after⟩ := ident.step event names
    exact ⟨kept.trans same, after⟩
  have placed : ∀ id, spelled id → s.node.bucketOf id ≠ none := by
    intro id here
    obtain ⟨distance, apart, small⟩ := near id here
    rw [← same] at apart
    exact bucketOf_near apart small
  have named : ∀ p ∈ s.table.allPeers, spelled p.id ∧ p.id ≠ node.localId := by
    intro p member
    obtain ⟨idx, -, inside⟩ := mem_flatMap.mp member
    have named := ident.named idx p inside
    exact ⟨named.spelled, same ▸ named.foreign⟩
  refine ⟨placed, ?_, ?_, ?_⟩
  · intro peer now here
    unfold addPeer updatePeer insertPeer
    have found := placed peer.id here
    grind
  · change (map (number ∘ DhtPeer.id) _).Nodup
    rw [← map_map]
    refine Nodup.map_on ?_ (nodup_allPeers (fun idx p member => (ident.named idx p member).placed) ident.distinct)
    intro a inA b inB equal
    obtain ⟨p, inP, rfl⟩ := List.mem_map.mp inA
    obtain ⟨q, inQ, rfl⟩ := List.mem_map.mp inB
    exact canonical _ (named p inP).1 _ (named q inQ).1 equal
  · intro p member equal
    exact (named p member).2 (canonical _ (named p member).1 _ own equal)

section Sample

def plainNames : List String := ["0x000", "0x100", "0x101"]

theorem plain_names_identified :
    (observedNow observedRun).table.allPeers.map DhtPeer.id = ["0x101"] ∧
      ((observedNow observedRun).table.allPeers.map fun p => number p.id).Nodup :=
  ⟨by decide +kernel, (routing_ids_canonical sampleNode (· ∈ plainNames) (by decide) (by decide) (by decide) _
    (Reaches.run .start (by decide +kernel : Admitted _ _ _ observedRun))).2.2.1⟩

theorem two_spellings :
    let s := observedNow [.addPeer (peerAt "localhost" "0xAB") 0 (fun _ => none) none 0,
      .addPeer (peerAt "localhost" "0xab") 0 (fun _ => none) none 0,
      .addPeer (peerAt "localhost" "0x00") 0 (fun _ => none) none 0]
    s.table.allPeers.map (fun p => number p.id) = [some 0, some 171, some 171] ∧
      number sampleNode.localId = some 0 ∧
      (s.table.addPeer sampleNode (peerAt "localhost" ("0x1" ++ String.ofList (replicate 64 '0'))) 0).1 = .threw := by
  decide +kernel

end Sample

end Palimesh.Dht
