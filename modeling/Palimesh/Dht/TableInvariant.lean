import Palimesh.Dht.RoutingTable
import Palimesh.Protocol.Transition

namespace Palimesh.Dht

open Collections Protocol RoutingTable List

variable {node : Node} {t : RoutingTable} {idx : Fin idBits} {peer entry : DhtPeer}

def Node.hostCount (node : Node) (t : RoutingTable) (host : String) : Nat := ∑ idx, node.sameHost (t.buckets idx) host

variable {id : String}

namespace RoutingTable

theorem ipCount_evict (node : Node) (t : RoutingTable) (idx : Fin idBits) (entry : DhtPeer) (host : String) :
    (t.evict node idx entry).ipCount host = t.ipCount host - if host = node.effectiveHost entry then 1 else 0 := by
  unfold ipCount evict decrementGlobalIpCount setBucket
  dsimp only
  by_cases same : host = node.effectiveHost entry
  · rw [← same]
    cases counted : t.globalIpCount.get? host with
    | none => simp
    | some count =>
      by_cases last : count - 1 = 0
      · simp [last]
      · simp [last]
  · split <;> simp [same]

theorem ipCount_push (node : Node) (t : RoutingTable) (idx : Fin idBits) (peer : DhtPeer) (now : Int) (host : String) :
    (t.push node idx peer now).ipCount host = t.ipCount host + if host = node.effectiveHost peer then 1 else 0 := by
  unfold ipCount push incrementGlobalIpCount setBucket
  by_cases same : host = node.effectiveHost peer <;> simp [same]

theorem hostCount_setBucket (node : Node) (t : RoutingTable) (idx : Fin idBits) (peers : List DhtPeer) (host : String) :
    node.hostCount (t.setBucket idx peers) host + node.sameHost (t.buckets idx) host =
      node.hostCount t host + node.sameHost peers host := by
  have updated : (fun i => node.sameHost ((t.setBucket idx peers).buckets i) host) =
      Function.update (fun i => node.sameHost (t.buckets i) host) idx (node.sameHost peers host) :=
    funext (Function.apply_update (fun _ peers => node.sameHost peers host) t.buckets idx peers)
  have before := Finset.add_sum_erase Finset.univ (fun i => node.sameHost (t.buckets i) host) (Finset.mem_univ idx)
  have after := Finset.sum_update_of_mem (Finset.mem_univ idx) (fun i => node.sameHost (t.buckets i) host)
    (node.sameHost peers host)
  unfold Node.hostCount
  rw [updated, after, ← before, Finset.sdiff_singleton_eq_erase]
  omega

variable {peers : List DhtPeer}

theorem perm_others (found : find peers id = some entry) :
    peers.Perm (entry :: others peers id) := by
  unfold find others at *
  induction peers with
  | nil => cases found
  | cons head peers ih =>
    by_cases here : head.id = id
    · simp only [here, decide_true, find?_cons_of_pos] at found
      cases found
      simp [here]
    · simp only [here, decide_false, Bool.false_eq_true, not_false_eq_true, find?_cons_of_neg] at found
      simp only [here, decide_false, Bool.false_eq_true, not_false_eq_true, eraseP_cons_of_neg]
      exact ((ih found).cons head).trans (List.Perm.swap entry head _)

theorem id_of_find (found : find peers id = some entry) : entry.id = id := by
  simpa using find?_some found

theorem find_eq_none (none_ : find peers id = none) : id ∉ peers.map DhtPeer.id := by
  intro member
  obtain ⟨p, present, rfl⟩ := List.mem_map.mp member
  have differs := List.find?_eq_none.mp none_ p present
  simp at differs

end RoutingTable

structure Sound (node : Node) (t : RoutingTable) : Prop where
  size : ∀ idx, (t.buckets idx).length ≤ bucketSize
  placed : ∀ idx, ∀ p ∈ t.buckets idx, node.bucketOf p.id = some idx
  distinct : ∀ idx, ((t.buckets idx).map DhtPeer.id).Nodup
  perBucket : ∀ idx host, isLoopbackHost host = false → node.sameHost (t.buckets idx) host ≤ maxPeersPerIpPerBucket
  counted : ∀ host, t.ipCount host = node.hostCount t host
  global : ∀ host, isLoopbackHost host = false → t.ipCount host ≤ maxPeersPerIpGlobal

variable {t' : RoutingTable}

theorem Sound.congr (sound : Sound node t) (buckets : t'.buckets = t.buckets)
    (counts : ∀ host, t'.ipCount host = t.ipCount host) : Sound node t' := by
  obtain ⟨buckets', counts'⟩ := t'
  obtain rfl : buckets' = t.buckets := buckets
  refine { sound with counted := fun host => ?_, global := fun host public_ => ?_ }
  · rw [counts]
    exact sound.counted host
  · rw [counts]
    exact sound.global host public_

theorem Sound.empty (node : Node) : Sound node RoutingTable.empty := by
  constructor
  · intro idx
    exact Nat.zero_le _
  · intro idx p member
    cases member
  · intro idx
    exact nodup_nil
  · intro idx host _
    exact Nat.zero_le _
  · intro host
    simp [RoutingTable.empty, ipCount, Node.hostCount, Node.sameHost]
  · intro host _
    exact Nat.zero_le _

theorem sameHost_perm {peers' : List DhtPeer} (perm : peers.Perm peers') (host : String) :
    node.sameHost peers host = node.sameHost peers' host := perm.countP_eq _

theorem sameHost_cons (peers : List DhtPeer) (host : String) :
    node.sameHost (peer :: peers) host = node.sameHost peers host + if host = node.effectiveHost peer then 1 else 0 := by
  unfold Node.sameHost
  by_cases same : host = node.effectiveHost peer
  · simp [same]
  · have differs : node.effectiveHost peer ≠ host := fun equal => same equal.symm
    simp [same, differs]

theorem sameHost_find (node : Node) (found : find peers id = some entry) (host : String) :
    node.sameHost peers host =
      node.sameHost (others peers id) host + if host = node.effectiveHost entry then 1 else 0 :=
  (sameHost_perm (perm_others found) host).trans (sameHost_cons _ host)

theorem setBucket_buckets (t : RoutingTable) (idx i : Fin idBits) (peers : List DhtPeer) :
    (t.setBucket idx peers).buckets i = if i = idx then peers else t.buckets i := by
  exact Function.update_apply ..

structure BucketOk (node : Node) (idx : Fin idBits) (peers : List DhtPeer) : Prop where
  size : peers.length ≤ bucketSize
  placed : ∀ p ∈ peers, node.bucketOf p.id = some idx
  distinct : (peers.map DhtPeer.id).Nodup
  perBucket : ∀ host, isLoopbackHost host = false → node.sameHost peers host ≤ maxPeersPerIpPerBucket

theorem Sound.bucket (sound : Sound node t) (idx : Fin idBits) : BucketOk node idx (t.buckets idx) :=
  ⟨sound.size idx, sound.placed idx, sound.distinct idx, sound.perBucket idx⟩

theorem BucketOk.others (ok : BucketOk node idx peers) (found : find peers id = some entry) :
    BucketOk node idx (others peers id) ∧ (others peers id).length < bucketSize ∧
      id ∉ (others peers id).map DhtPeer.id := by
  have perm := perm_others found
  have shorter := perm.length_eq
  rw [length_cons] at shorter
  have bound := ok.size
  have distinct := (perm.map DhtPeer.id).nodup_iff.mp ok.distinct
  rw [map_cons, nodup_cons, id_of_find found] at distinct
  refine ⟨⟨by omega, ?_, distinct.2, ?_⟩, by omega, distinct.1⟩
  · intro p member
    exact ok.placed p (perm.symm.subset (mem_cons_of_mem _ member))
  · intro host public_
    have perBucket := ok.perBucket host public_
    rw [sameHost_find node found] at perBucket
    omega

theorem BucketOk.append (ok : BucketOk node idx peers) (room : peers.length < bucketSize)
    (place : node.bucketOf peer.id = some idx) (fresh : peer.id ∉ peers.map DhtPeer.id)
    (below : isLoopbackHost (node.effectiveHost peer) = false →
      node.sameHost peers (node.effectiveHost peer) < maxPeersPerIpPerBucket) :
    BucketOk node idx (peers ++ [peer]) where
  size := by
    rw [length_append, length_singleton]
    omega
  placed := by
    intro p member
    rcases List.mem_append.mp member with earlier | new
    · exact ok.placed p earlier
    · rw [List.mem_singleton.mp new]
      exact place
  distinct := by
    rw [map_append, nodup_append_comm]
    exact List.nodup_cons.mpr ⟨fresh, ok.distinct⟩
  perBucket := by
    intro host public_
    rw [sameHost_perm perm_append_comm, singleton_append, sameHost_cons]
    by_cases own : host = node.effectiveHost peer
    · have room := below (own ▸ public_)
      rw [if_pos own, own]
      omega
    · rw [if_neg own]
      exact ok.perBucket host public_

theorem Sound.setBucket (sound : Sound node t) (ok : BucketOk node idx peers)
    (changed : t'.buckets = (t.setBucket idx peers).buckets)
    (counts : ∀ host, t'.ipCount host + node.sameHost (t.buckets idx) host = t.ipCount host + node.sameHost peers host)
    (global : ∀ host, isLoopbackHost host = false → t'.ipCount host ≤ maxPeersPerIpGlobal) : Sound node t' := by
  have buckets : ∀ i, BucketOk node i (t'.buckets i) := by
    intro i
    rw [changed, setBucket_buckets]
    split
    · rename_i here
      rw [here]
      exact ok
    · exact sound.bucket i
  refine ⟨fun i => (buckets i).size, fun i => (buckets i).placed, fun i => (buckets i).distinct,
    fun i => (buckets i).perBucket, ?_, global⟩
  intro host
  have moved := hostCount_setBucket node t idx peers host
  have count := counts host
  have same : node.hostCount t' host = node.hostCount (t.setBucket idx peers) host := by
    unfold Node.hostCount
    rw [changed]
  rw [sound.counted] at count
  omega

theorem Sound.host_counted (sound : Sound node t) (idx : Fin idBits) (host : String) :
    node.sameHost (t.buckets idx) host ≤ t.ipCount host := by
  rw [sound.counted]
  exact Finset.single_le_sum (fun i _ => Nat.zero_le (node.sameHost (t.buckets i) host)) (Finset.mem_univ idx)

theorem Sound.evict (sound : Sound node t) (found : find (t.buckets idx) peer.id = some entry) :
    Sound node (t.evict node idx entry) := by
  have counts := ipCount_evict node t idx entry
  have hosts := sameHost_find node found
  apply sound.setBucket ((sound.bucket idx).others found).1
  · rw [← id_of_find found]
    rfl
  · intro host
    have listed := sound.host_counted idx host
    rw [counts, hosts]
    rw [hosts] at listed
    omega
  · intro host public_
    have bound := sound.global host public_
    rw [counts]
    omega

theorem Sound.push (sound : Sound node t) (room : (t.buckets idx).length < bucketSize)
    (place : node.bucketOf peer.id = some idx) (fresh : peer.id ∉ (t.buckets idx).map DhtPeer.id)
    (allowed : t.capped node (t.buckets idx) (node.effectiveHost peer) = false) (now : Int) :
    Sound node (t.push node idx peer now) := by
  -- The caps leave room for one more of a host that is not local.
  have below : isLoopbackHost (node.effectiveHost peer) = false →
      node.sameHost (t.buckets idx) (node.effectiveHost peer) < maxPeersPerIpPerBucket ∧
        t.ipCount (node.effectiveHost peer) < maxPeersPerIpGlobal := by
    intro public_
    unfold capped at allowed
    rw [public_] at allowed
    simpa using allowed
  have counts := ipCount_push node t idx peer now
  have ok : BucketOk node idx (t.buckets idx ++ [{ peer with lastSeenMs := now }]) :=
    (sound.bucket idx).append room place fresh fun public_ => (below public_).1
  apply sound.setBucket ok
  · rfl
  · intro host
    rw [counts, sameHost_perm perm_append_comm, singleton_append, sameHost_cons]
    show _ = t.ipCount host + (_ + if host = node.effectiveHost peer then 1 else 0)
    omega
  · intro host public_
    rw [counts]
    by_cases own : host = node.effectiveHost peer
    · have room := (below (own ▸ public_)).2
      rw [if_pos own, own]
      omega
    · rw [if_neg own]
      exact sound.global host public_

theorem refresh_buckets (t : RoutingTable) (own : entry.id = peer.id) (now : Int) :
    (t.refresh idx peer now).buckets = ((t.evict node idx entry).push node idx peer now).buckets := by
  -- To move an entry to the tail is to evict it and push it again.
  funext i
  show (t.setBucket idx _).buckets i = ((t.evict node idx entry).setBucket idx _).buckets i
  have evicted : ∀ j, (t.evict node idx entry).buckets j =
      if j = idx then others (t.buckets idx) peer.id else t.buckets j := by
    intro j
    rw [← own]
    exact setBucket_buckets t idx j _
  rw [setBucket_buckets, setBucket_buckets, evicted idx, if_pos rfl]
  split
  · rfl
  · rename_i other
    rw [evicted, if_neg other]

theorem Sound.moved (sound : Sound node t) (place : node.bucketOf peer.id = some idx)
    (found : find (t.buckets idx) peer.id = some entry)
    (allowed : (t.evict node idx entry).capped node (others (t.buckets idx) peer.id) (node.effectiveHost peer) = false)
    (now : Int) : Sound node ((t.evict node idx entry).push node idx peer now) := by
  have bucket : (t.evict node idx entry).buckets idx = others (t.buckets idx) peer.id := by
    rw [← id_of_find found]
    exact (setBucket_buckets t idx idx _).trans (if_pos rfl)
  obtain ⟨_, room, fresh⟩ := (sound.bucket idx).others found
  apply (sound.evict found).push
  · rw [bucket]
    exact room
  · exact place
  · rw [bucket]
    exact fresh
  · rw [bucket]
    exact allowed

theorem Sound.refresh (sound : Sound node t) (found : find (t.buckets idx) peer.id = some entry)
    (sameHost : node.effectiveHost peer = node.effectiveHost entry) (now : Int) :
    Sound node (t.refresh idx peer now) := by
  have own := id_of_find found
  have perm := perm_others found
  have present : entry ∈ t.buckets idx := perm.symm.subset mem_cons_self
  have place := sound.placed idx entry present
  rw [own] at place
  have hosts := sameHost_find node found (node.effectiveHost entry)
  rw [if_pos rfl] at hosts
  have listed := sound.host_counted idx (node.effectiveHost entry)
  have evicted := ipCount_evict node t idx entry (node.effectiveHost entry)
  rw [if_pos rfl] at evicted
  have allowed : (t.evict node idx entry).capped node (others (t.buckets idx) peer.id)
      (node.effectiveHost peer) = false := by
    unfold capped
    rw [sameHost]
    cases public_ : isLoopbackHost (node.effectiveHost entry) with
    | true => rfl
    | false =>
      have perBucket := sound.perBucket idx _ public_
      have global := sound.global _ public_
      simp only [Bool.not_false, Bool.true_and, Bool.or_eq_false_iff, decide_eq_false_iff_not]
      omega
  apply (sound.moved place found allowed now).congr (refresh_buckets t own now)
  intro host
  show t.ipCount host = ((t.evict node idx entry).push node idx peer now).ipCount host
  rw [ipCount_push, ipCount_evict, sameHost]
  split
  · rename_i here
    rw [here]
    omega
  · omega

theorem Sound.updatePeer (sound : Sound node t) (found : find (t.buckets idx) peer.id = some entry) (now : Int) :
    Sound node (t.updatePeer node idx entry peer now).2 := by
  have own := id_of_find found
  have present : entry ∈ t.buckets idx := (perm_others found).symm.subset mem_cons_self
  have place := sound.placed idx entry present
  unfold RoutingTable.updatePeer
  dsimp only
  split
  · rename_i same
    exact sound.refresh found same.symm now
  · rename_i differs
    split
    · rw [← own] at found
      exact sound.refresh found rfl now
    · rename_i allowed
      -- The old host gives up one count, which is not one of the new host's.
      have count : (t.evict node idx entry).ipCount (node.effectiveHost peer) = t.ipCount (node.effectiveHost peer) := by
        rw [ipCount_evict, if_neg (fun same => differs same.symm)]
        rfl
      have allowed' : (t.evict node idx entry).capped node (others (t.buckets idx) peer.id)
          (node.effectiveHost peer) = false := by
        unfold capped at *
        rw [count]
        simpa using allowed
      rw [own] at place
      exact (sound.moved place found allowed' now).congr (refresh_buckets t own now) fun _ => rfl

theorem Sound.addPeer (sound : Sound node t) (peer : DhtPeer) (now : Int) : Sound node (t.addPeer node peer now).2 := by
  unfold RoutingTable.addPeer
  split
  · exact sound
  · split
    · exact sound
    · split
      · exact sound
      · rename_i idx place
        split
        · rename_i oldPeer found
          exact sound.updatePeer found now
        · rename_i missing
          unfold insertPeer
          split
          · exact sound
          · rename_i allowed
            split
            · rename_i room
              exact sound.push room place (find_eq_none missing) (by simpa using allowed) now
            · split <;> exact sound

variable {call : Pending}

theorem addPeer_pinging {now : Int}
    (waits : t.addPeer node peer now = (.pinging call, t')) :
    node.bucketOf call.peer.id = some call.idx ∧ t' = t ∧ call.peer = peer ∧
      find (t.buckets call.idx) call.peer.id = none ∧
      t.capped node (t.buckets call.idx) (node.effectiveHost call.peer) = false ∧
      ∃ rest, t.buckets call.idx = call.oldest :: rest := by
  unfold RoutingTable.addPeer at waits
  split at waits
  · cases waits
  · split at waits
    · cases waits
    · split at waits
      · cases waits
      · rename_i idx place
        split at waits
        · unfold RoutingTable.updatePeer at waits
          dsimp only at waits
          split at waits
          · cases waits
          · split at waits <;> cases waits
        · rename_i missing
          unfold insertPeer at waits
          split at waits
          · cases waits
          · rename_i allowed
            split at waits
            · cases waits
            · split at waits
              · rename_i rest _ listed
                cases waits
                exact ⟨place, rfl, rfl, missing, by simpa using allowed, rest, listed⟩
              · cases waits

theorem Sound.removePeer (sound : Sound node t) (peerId : String) : Sound node (t.removePeer node peerId) := by
  unfold RoutingTable.removePeer
  split
  · exact sound
  · split
    · exact sound
    · rename_i entry found
      have own := id_of_find found
      rw [← own] at found
      exact sound.evict found

def stillAdmissible (node : Node) (t : RoutingTable) (call : Pending) : Bool :=
  decide (bucketSize ≤ (t.buckets call.idx).length) || (find (t.buckets call.idx) call.peer.id).isNone &&
    !t.capped node (t.buckets call.idx) (node.effectiveHost call.peer)

/-- What an answer must find: nobody has taken the place of the peer in the meantime, and an oldest peer that is
alive has kept its host. -/
def undisturbed (node : Node) (t : RoutingTable) (call : Pending) (answer : Option Bool) : Bool :=
  match answer, find (t.buckets call.idx) call.oldest.id with
  | none, _ => true
  | some _, none => stillAdmissible node t call
  | some false, some entry => stillAdmissible node (t.evict node call.idx entry) call
  | some true, some entry => decide (node.effectiveHost call.oldest = node.effectiveHost entry)

theorem Sound.pushIfRoom (sound : Sound node t) (place : node.bucketOf call.peer.id = some call.idx)
    (admissible : stillAdmissible node t call = true) (now : Int) :
    Sound node (t.pushIfRoom node call.idx call.peer now) := by
  unfold RoutingTable.pushIfRoom
  split
  · rename_i room
    have notFull : ¬ bucketSize ≤ (t.buckets call.idx).length := by omega
    simp only [stillAdmissible, notFull, decide_false, Bool.false_or, Bool.and_eq_true, Option.isNone_iff_eq_none,
      Bool.not_eq_true'] at admissible
    exact sound.push room place (find_eq_none admissible.1) admissible.2 now
  · exact sound

theorem Sound.resume (sound : Sound node t) (place : node.bucketOf call.peer.id = some call.idx)
    {answer : Option Bool} (calm : undisturbed node t call answer = true) (now : Int) :
    Sound node (t.resume node call answer now) := by
  unfold RoutingTable.resume
  unfold undisturbed at calm
  cases answer with
  | none => exact sound
  | some alive =>
    cases found : find (t.buckets call.idx) call.oldest.id with
    | none =>
      rw [found] at calm
      exact sound.pushIfRoom place calm now
    | some entry =>
      rw [found] at calm
      cases alive with
      | false => exact (sound.evict found).pushIfRoom place calm now
      | true => exact sound.refresh found (of_decide_eq_true calm) now

namespace System

def Admits (node : Node) (s : System) : DhtEvent → Prop
  | .answer index alive _ => s.waiting[index]?.all (fun call => undisturbed node s.table call alive) = true
  | _ => True

instance (node : Node) (s : System) (event : DhtEvent) : Decidable (Admits node s event) := by
  unfold Admits
  split <;> infer_instance

structure Inv (node : Node) (s : System) : Prop where
  sound : Sound node s.table
  placed : ∀ call ∈ s.waiting, node.bucketOf call.peer.id = some call.idx

theorem Inv.step {s : System} (inv : Inv node s) (event : DhtEvent) (admitted : Admits node s event) :
    Inv node (s.step node event) := by
  cases event with
  | addPeer peer now =>
    have sound := inv.sound.addPeer peer now
    unfold System.step
    dsimp only
    split
    · rename_i call table waits
      rw [waits] at sound
      constructor
      · exact sound
      · intro other member
        rcases List.mem_append.mp member with earlier | new
        · exact inv.placed other earlier
        · rw [List.mem_singleton.mp new]
          exact (addPeer_pinging waits).1
    · rename_i result table waits outcome
      rw [outcome] at sound
      exact ⟨sound, inv.placed⟩
  | removePeer peerId => exact ⟨inv.sound.removePeer peerId, inv.placed⟩
  | answer index alive now =>
    unfold System.step
    dsimp only
    split
    · exact inv
    · rename_i call waits
      have member := mem_of_getElem? waits
      have calm : undisturbed node s.table call alive = true := by
        have each : s.waiting[index]?.all (fun call => undisturbed node s.table call alive) = true := admitted
        rw [waits] at each
        exact each
      constructor
      · exact inv.sound.resume (inv.placed call member) calm now
      · intro other remains
        exact inv.placed other (mem_of_mem_eraseIdx remains)

end System

structure Sane (node : Node) (t : RoutingTable) : Prop where
  size : ∀ idx, (t.buckets idx).length ≤ bucketSize
  distinct : (t.allPeers.map DhtPeer.id).Nodup
  placed : ∀ idx, ∀ p ∈ t.buckets idx, bucketIndex node.localId p.id = some idx.val
  perBucket : ∀ idx host, isLoopbackHost host = false →
    (t.buckets idx).countP (fun p => node.effectiveHost p = host) ≤ maxPeersPerIpPerBucket
  global : ∀ host, isLoopbackHost host = false →
    t.allPeers.countP (fun p => node.effectiveHost p = host) ≤ maxPeersPerIpGlobal
  counted : ∀ host, (t.globalIpCount.get? host).getD 0 = t.allPeers.countP fun p => node.effectiveHost p = host

theorem hostCount_allPeers (node : Node) (t : RoutingTable) (host : String) :
    node.hostCount t host = t.allPeers.countP fun p => node.effectiveHost p = host := by
  unfold Node.hostCount allPeers
  rw [countP_flatMap, Fin.sum_univ_def]
  rfl

theorem nodup_allPeers (placed : ∀ idx, ∀ p ∈ t.buckets idx, node.bucketOf p.id = some idx)
    (distinct : ∀ idx, ((t.buckets idx).map DhtPeer.id).Nodup) : (t.allPeers.map DhtPeer.id).Nodup := by
  unfold allPeers
  rw [map_flatMap, nodup_flatMap]
  refine ⟨fun idx _ => distinct idx, (nodup_finRange idBits).imp ?_⟩
  -- An id in two buckets would have two indices.
  intro i j different id inFirst inSecond
  obtain ⟨p, first, rfl⟩ := List.mem_map.mp inFirst
  obtain ⟨q, second, same⟩ := List.mem_map.mp inSecond
  have placed' := placed j q second
  rw [same, placed i p first] at placed'
  exact different (Option.some.inj placed')

theorem Sound.sane (sound : Sound node t) : Sane node t := by
  constructor
  · exact sound.size
  · exact nodup_allPeers sound.placed sound.distinct
  · intro idx p member
    obtain ⟨i, found, here⟩ := Option.bind_eq_some_iff.mp (sound.placed idx p member)
    split at here
    · cases here
      exact found
    · cases here
  · exact sound.perBucket
  · intro host public_
    rw [← hostCount_allPeers, ← sound.counted]
    exact sound.global host public_
  · intro host
    rw [← hostCount_allPeers]
    exact sound.counted host

/-- As long as every answer finds the table undisturbed, the table keeps its promises. -/
theorem routing_table_sane (node : Node) (s : System)
    (reached : Reaches (System.Admits node) (System.step node) System.start s) : Sane node s.table := by
  have inv := reached.invariant (System.Inv node) ⟨Sound.empty node, by simp [System.start]⟩
    (fun _ event inv admitted => inv.step event admitted)
  exact inv.sound.sane

section Sample

def sampleNode : Node where
  localId := "0x000"
  observedIp := fun _ => none
  isIP := fun host => if host = "10.0.0.1" ∨ host = "10.0.0.2" then 4 else 0
  pings := true

def peerAt (address id : String) : DhtPeer := ⟨id, address, 0⟩

def fillBucket (firstAddress : String) : List DhtEvent :=
  .addPeer (peerAt firstAddress "0x100") 0 ::
    ["0x101", "0x102", "0x103", "0x104", "0x105", "0x106", "0x107", "0x108", "0x109", "0x10a", "0x10b", "0x10c",
      "0x10d", "0x10e", "0x10f", "0x110", "0x111", "0x112", "0x113"].map fun id => .addPeer (peerAt "localhost" id) 0

def filledBucket : Fin idBits := ⟨8, by decide⟩

def newcomer : DhtPeer := peerAt "localhost" "0x140"

def runEvents (events : List DhtEvent) : System := events.foldl (System.step sampleNode) System.start

theorem lone_newcomer_keeps_table_sane :
    Reaches (System.Admits sampleNode) (System.step sampleNode) System.start
      (runEvents (fillBucket "localhost" ++ [.addPeer newcomer 1, .answer 0 (some false) 2])) ∧
    Sane sampleNode
      (runEvents (fillBucket "localhost" ++ [.addPeer newcomer 1, .answer 0 (some false) 2])).table := by
  have reached : Reaches (System.Admits sampleNode) (System.step sampleNode) System.start
      (runEvents (fillBucket "localhost" ++ [.addPeer newcomer 1, .answer 0 (some false) 2])) :=
    Reaches.run .start (by decide +kernel)
  exact ⟨reached, routing_table_sane sampleNode _ reached⟩

/-- The oldest peer changes its address while it is pinged, then gets its old address back, though the counts have
moved on; two more calls wait for different peers, and both insert the newcomer. -/
theorem waiting_calls_break_table :
    let t := (runEvents (fillBucket "10.0.0.1:1" ++
      [.addPeer newcomer 1, .addPeer (peerAt "10.0.0.2:1" "0x100") 2, .addPeer newcomer 3,
        .addPeer (peerAt "localhost" "0x101") 4, .addPeer newcomer 5, .answer 0 (some true) 6,
        .answer 0 (some false) 7, .answer 0 (some false) 8])).table
    (t.buckets filledBucket).countP (fun p => p.id = newcomer.id) = 2 ∧
      t.ipCount "10.0.0.1" = 0 ∧ sampleNode.sameHost (t.buckets filledBucket) "10.0.0.1" = 1 := by
  decide +kernel

end Sample

end Palimesh.Dht
