import Palimesh.Settlement.Records
import Palimesh.Settlement.Symbolic

namespace Palimesh.Settlement

open Collections Protocol.Reentrancy List InsertionMap PoSeManager MerkleProofLite

variable {β : Type}

def Field.bits : Field β → Nat
  | .bytes32 _ => 256
  | .bytes16 _ => 128
  | .uint bits _ => bits
  | .account _ => 160
  | .text value => 8 * value.utf8ByteSize
  | .bytes value => 8 * value.length

/-- Fields of one type and width, which `abi.encodePacked` puts into the same place. -/
def Field.SameShape : Field β → Field β → Prop
  | .bytes32 _, .bytes32 _ => True
  | .bytes16 _, .bytes16 _ => True
  | .account _, .account _ => True
  | .uint bits _, .uint other _ => bits = other
  | .text value, .text other => value.utf8ByteSize = other.utf8ByteSize
  | .bytes value, .bytes other => value.length = other.length
  | _, _ => False

/-- Different packed strings have different hashes. Nothing is said of fields of different types and equal width,
    which can be packed to the same string. -/
structure CollisionFree (C : Crypto β) : Prop where
  width : ∀ {fields others}, C.keccak256 fields = C.keccak256 others →
    (fields.map Field.bits).sum = (others.map Field.bits).sum
  fields : ∀ {fields others}, C.keccak256 fields = C.keccak256 others →
    List.Forall₂ Field.SameShape fields others → fields = others

theorem CollisionFree.of_injective {C : Crypto β} (injective : Function.Injective C.keccak256) : CollisionFree C where
  width := fun same => by rw [injective same]
  fields := fun same _ => injective same

/-- A signature that recovers to an account was made by it. -/
def Unforgeable (C : Crypto β) (signed : Address → β → Prop) : Prop :=
  ∀ digest sig, recoverSigner C digest sig ≠ 0 → signed (recoverSigner C digest sig) digest

theorem recoverSigner_cases {C : Crypto β} (digest : β) (sig : Bytes) :
    recoverSigner C digest sig = 0 ∨ ∃ v r s, recoverSigner C digest sig = C.ecrecover digest v r s := by
  simp only [recoverSigner]
  generalize (if (sig.getD 64 0).toNat < 27 then (sig.getD 64 0).toNat + 27 else (sig.getD 64 0).toNat) = v
  split
  · exact .inl rfl
  · split
    · exact .inl rfl
    · split
      · exact .inl rfl
      · exact .inr ⟨_, _, _, rfl⟩

section Leaves

variable {C : Crypto β}

theorem pairHash_fields (l r : β) : ∃ first second, pairHash C l r = C.keccak256 [.bytes32 first, .bytes32 second] ∧
    ((first = l ∧ second = r) ∨ (first = r ∧ second = l)) := by
  unfold pairHash
  split
  · exact ⟨l, r, rfl, .inl ⟨rfl, rfl⟩⟩
  · exact ⟨r, l, rfl, .inr ⟨rfl, rfl⟩⟩

theorem hashWith_fields (l r : β) : ∃ first second,
    hashWith C l r = C.keccak256 [.bytes32 first, .bytes32 second] ∧
      ((first = l ∧ second = r) ∨ (first = r ∧ second = l)) := by
  unfold hashWith
  split
  · exact ⟨l, r, rfl, .inl ⟨rfl, rfl⟩⟩
  · exact ⟨r, l, rfl, .inr ⟨rfl, rfl⟩⟩

variable (free : CollisionFree C)
include free

theorem same_pair {a b c d first second : β}
    (same : C.keccak256 [.bytes32 first, .bytes32 second] = pairHash C c d)
    (order : (first = a ∧ second = b) ∨ (first = b ∧ second = a)) : (a = c ∧ b = d) ∨ (a = d ∧ b = c) := by
  obtain ⟨third, fourth, paired, order'⟩ := pairHash_fields (C := C) c d
  rw [paired] at same
  have fields := free.fields same (.cons trivial (.cons trivial .nil))
  simp only [List.cons.injEq, Field.bytes32.injEq, and_true] at fields
  obtain ⟨rfl, rfl⟩ := fields
  rcases order with ⟨rfl, rfl⟩ | ⟨rfl, rfl⟩ <;> rcases order' with ⟨rfl, rfl⟩ | ⟨rfl, rfl⟩ <;> simp

theorem hashWith_eq_pairHash {a b c d : β} (same : hashWith C a b = pairHash C c d)
    : (a = c ∧ b = d) ∨ (a = d ∧ b = c) := by
  obtain ⟨_, _, hashed, order⟩ := hashWith_fields (C := C) a b
  exact same_pair free (hashed.symm.trans same) order

/-- An evidence leaf packs to 105 bytes, a pair of nodes to 64. -/
theorem leafHash_ne_pair (leaf : EvidenceLeafV2 β) (first second : β) :
    leafHash C leaf ≠ C.keccak256 [.bytes32 first, .bytes32 second] := by
  intro same
  have width := free.width same
  simp [Field.bits] at width

theorem leafHash_injective : Function.Injective (leafHash C) := by
  intro leaf other same
  have shaped := free.fields same (by simp [Field.SameShape])
  cases leaf
  cases other
  simp_all

variable [DecidableEq β] [Inhabited β]

theorem leafHash_mem {leaves proof : List β} {leaf : EvidenceLeafV2 β} (nonempty : leaves ≠ [])
    (evidence : ∀ l ∈ leaves, ∃ other, l = leafHash C other)
    (verified : verify C proof (rebuildMerkleRoot C leaves) (leafHash C leaf) = true) :
    leafHash C leaf ∈ leaves := by
  obtain ⟨rounds, top⟩ := MerkleTree.mem_of_root (pairHash C) (rebuildMerkleRoot_root C nonempty)
  have climbed : MerkleTree.climb (hashWith C) (leafHash C leaf) proof =
      rebuildMerkleRoot C leaves := of_decide_eq_true verified
  refine MerkleTree.mem_of_climb (pairHash C) (hashWith_eq_pairHash free) ?_ ?_ (climbed ▸ top)
  · intro l member a b same
    obtain ⟨other, rfl⟩ := evidence l member
    obtain ⟨first, second, hashed, -⟩ := hashWith_fields (C := C) a b
    exact leafHash_ne_pair free other first second (same.trans hashed)
  · intro a b same
    obtain ⟨first, second, paired, -⟩ := pairHash_fields (C := C) a b
    exact leafHash_ne_pair free leaf first second (same.trans paired)

end Leaves

variable [DecidableEq β] [Inhabited β]

section Quorum

variable {C : Crypto β} {signed : Address → β → Prop} {s : PoSeManager β} {env : Env β} {epochId : Nat}

def attestation (C : Crypto β) (env : Env β) (metadata : ReceiptBatchMetadata β) (receiptIdx : Nat) (witness : β)
    (resultCode witnessIndex epochId : Nat) : β :=
  WitnessDigestLib.buildV3 C (computeDomainSeparator C env) (metadata.challengeIds.getD receiptIdx default) witness
    (metadata.responseBodyHashes.getD receiptIdx default) resultCode witnessIndex epochId

variable {metadata : ReceiptBatchMetadata β} (unforgeable : Unforgeable C signed)
include unforgeable

variable (sunset : s.v2SunsetEpoch ≠ 0 ∧ s.v2SunsetEpoch < epochId)
include sunset

theorem checkWitnesses_signed {bitmap : Nat} :
    ∀ {witnesses : List (β × Nat)} {sigs : List Bytes} {seen : List Address} {used result : InsertionMap β Bool},
      checkWitnesses C s env epochId bitmap metadata witnesses sigs seen used = .ok result →
      ∀ nodeId i, (nodeId, i) ∈ witnesses → bitmap.testBit i = true →
        signed (s.nodeOperator.read nodeId) (attestation C env metadata (metadata.witnessReceiptIndex.getD i 0) nodeId
          (metadata.resultCodes.getD (metadata.witnessReceiptIndex.getD i 0) 0) i epochId)
  | (_, _) :: rest, sigs, seen, used, result, h, nodeId, i, member, bit => by
    simp only [checkWitnesses] at h
    split at h
    · match sigs with
      | [] => cases h
      | sig :: sigs =>
        simp only [bind_ok, revertIf_ok] at h
        obtain ⟨-, -, -, -, -, matched, -, -, -, -, h⟩ := h
        rcases List.mem_cons.mp member with here | there
        · obtain ⟨rfl, rfl⟩ := Prod.mk.inj here
          have nonzero := (not_or.mp matched).1
          simp only [recoverWitnessSigner, if_pos sunset] at nonzero
          split at nonzero
          · rename_i recovered
            rw [← recovered]
            exact unforgeable _ sig nonzero
          · exact absurd rfl nonzero
        · exact checkWitnesses_signed h nodeId i there bit
    · rename_i clear
      rcases List.mem_cons.mp member with here | there
      · obtain ⟨rfl, rfl⟩ := Prod.mk.inj here
        exact absurd bit clear
      · exact checkWitnesses_signed h nodeId i there bit

def countedBits (bitmap m : Nat) : List Nat := (List.range (min m 32)).filter fun i => bitmap.testBit i

variable {s' : PoSeManager β}

theorem validateWitnessQuorumV2_signed (strict : s.allowEmptyWitnessSubmission = false)
    (nonempty : getWitnessSet C s epochId ≠ []) {msg : Msg} {bitmap : Nat} {sigs : List Bytes}
    (h : validateWitnessQuorumV2 C s env msg epochId bitmap sigs metadata = .ok s')
    :
    requiredWitnesses (getWitnessSet C s epochId).length ≤
        (countedBits bitmap (getWitnessSet C s epochId).length).length ∧
      ∀ i ∈ countedBits bitmap (getWitnessSet C s epochId).length, ∃ witness,
        (getWitnessSet C s epochId)[i]? = some witness ∧
        signed (s.nodeOperator.read witness) (attestation C env metadata (metadata.witnessReceiptIndex.getD i 0) witness
          (metadata.resultCodes.getD (metadata.witnessReceiptIndex.getD i 0) 0) i epochId) := by
  simp only [validateWitnessQuorumV2] at h
  rw [if_neg (fun empty => nonempty (List.length_eq_zero_iff.mp empty))] at h
  split at h
  · simp only [bind_ok, revertIf_ok] at h
    obtain ⟨-, allowed, -⟩ := h
    exact absurd (.inl strict) allowed
  · simp only [bind_ok, revertIf_ok] at h
    obtain ⟨-, enough, used, walked, -⟩ := h
    refine ⟨Nat.le_of_not_lt enough, fun i member => ?_⟩
    obtain ⟨inside, bit⟩ := List.mem_filter.mp member
    rw [mem_range] at inside
    have bound : i < (getWitnessSet C s epochId).length := by omega
    refine ⟨(getWitnessSet C s epochId)[i], getElem?_eq_getElem bound, ?_⟩
    refine checkWitnesses_signed unforgeable sunset walked _ i ?_ bit
    rw [mem_take_iff_getElem]
    refine ⟨i, by rw [length_zipIdx]; omega, ?_⟩
    rw [getElem_zipIdx, Nat.zero_add]

end Quorum

section Provenance

/-- What the records rest on: a batch on the call that submitted it, a revealed challenge on the call
    that revealed it. -/
structure Grounded (C : Crypto β) (history : List (Entry β)) (s : PoSeManager β) : Prop where
  batches : ∀ batchId, (s.batches.read batchId).merkleRoot ≠ default → ∃ e ∈ history, ∃ b,
    e.call = .submitBatchV2WithMetadata b ∧
      batchId = PoSeManager.batchIdOf C b.epochId b.merkleRoot b.summaryHash e.msg.sender ∧
      (s.batches.read batchId).merkleRoot = b.merkleRoot ∧ (s.batches.read batchId).epochId = b.epochId
  challenges : ∀ challengeId, (s.challenges.read challengeId).revealed = true → ∃ e before r,
    (e :: before) <:+ history ∧ e.call = .revealChallenge r ∧ r.challengeId = challengeId ∧
      (s.challenges.read challengeId).targetNodeId = r.targetNodeId

/-- Every call of the history was accepted, in a state that rested on the calls before it. -/
structure World.Grounded (C : Crypto β) (w : World β) : Prop where
  now : Settlement.Grounded C w.history w.state
  calls : ∀ {e before}, (e :: before) <:+ w.history →
    Settlement.Grounded C before e.state ∧ ∃ step, e.state.dispatch C e.env e.msg e.call = .ok step

variable {C : Crypto β} {history : List (Entry β)}

theorem Grounded.untouched {s : PoSeManager β} (grounded : Grounded C history s) (same : Untouched s s')
    : Grounded C history s' where
  batches := by
    intro batchId recorded
    rw [(same.batches batchId).1] at recorded ⊢
    rw [(same.batches batchId).2]
    exact grounded.batches batchId recorded
  challenges := by
    rw [same.challenges]
    exact grounded.challenges

theorem Grounded.weaken {s : PoSeManager β} (grounded : Grounded C history s) (e : Entry β) :
    Grounded C (e :: history) s where
  batches := by
    intro batchId recorded
    obtain ⟨submitted, member, rest⟩ := grounded.batches batchId recorded
    exact ⟨submitted, mem_cons_of_mem _ member, rest⟩
  challenges := by
    intro challengeId revealed
    obtain ⟨reveal, before, r, suffix, rest⟩ := grounded.challenges challengeId revealed
    exact ⟨reveal, before, r, suffix.trans (suffix_cons e history), rest⟩

theorem Grounded.recorded {e : Entry β} (grounded : Grounded C history e.state)
    (change : Recorded C e.state e.msg e.call s') : Grounded C (e :: history) s' := by
  obtain ⟨s, env, msg, call⟩ := e
  have earlier := grounded.weaken ⟨s, env, msg, call⟩
  cases change with
  | untouched same => exact earlier.untouched same
  | submitted root epoch nonzero batches sampled challenges =>
    refine ⟨?_, challenges ▸ earlier.challenges⟩
    intro batchId recorded
    rw [batches, read_set] at recorded ⊢
    split
    · rename_i here
      exact ⟨_, mem_cons_self, _, rfl, here, root, epoch⟩
    · rename_i other
      rw [if_neg other] at recorded
      exact earlier.batches batchId recorded
  | opened unrevealed batches sampled challenges =>
    refine ⟨batches ▸ earlier.batches, ?_⟩
    intro challengeId revealed
    rw [challenges, read_set] at revealed ⊢
    split
    · rename_i here
      rw [if_pos here, unrevealed] at revealed
      cases revealed
    · rename_i other
      rw [if_neg other] at revealed
      exact earlier.challenges challengeId revealed
  | revealed target batches sampled challenges =>
    refine ⟨batches ▸ earlier.batches, ?_⟩
    intro challengeId revealed
    rw [challenges, read_set] at revealed ⊢
    split
    · rename_i here
      exact ⟨_, history, _, suffix_refl _, rfl, here.symm, target⟩
    · rename_i other
      rw [if_neg other] at revealed
      exact earlier.challenges challengeId revealed
  | @settled settledId _ batches sampled challenges =>
    refine ⟨batches ▸ earlier.batches, ?_⟩
    have kept : ∀ challengeId, (s'.challenges.read challengeId).revealed = (s.challenges.read challengeId).revealed ∧
        (s'.challenges.read challengeId).targetNodeId = (s.challenges.read challengeId).targetNodeId := by
      intro challengeId
      rw [challenges, markSettled, read_set]
      split
      · rename_i here
        rw [here]
        exact ⟨rfl, rfl⟩
      · exact ⟨rfl, rfl⟩
    intro challengeId revealed
    rw [(kept challengeId).1] at revealed
    rw [(kept challengeId).2]
    exact earlier.challenges challengeId revealed

theorem manager_grounded (C : Crypto β) : Keeps (manager C) Callable Possible (World.Grounded C)
    fun before _ => before.Grounded C := by
  apply manager_keeps
  · intro w msg call step good dispatched
    have received : Grounded C w.history (w.received msg.value) := good.now.untouched ⟨.refl _, rfl, rfl⟩
    refine ⟨Grounded.recorded received (dispatch_recorded dispatched).1, ?_⟩
    intro e before suffix
    rcases List.suffix_cons_iff.mp suffix with whole | older
    · obtain ⟨rfl, rfl⟩ := List.cons.inj whole
      exact ⟨received, step, dispatched⟩
    · exact good.calls older
  · intro w s' good quiet
    exact ⟨good.now.untouched quiet.untouched, good.calls⟩
  · intro m event sound _
    cases event with
    | tick env => exact ⟨sound.now, sound.calls⟩
    | force amount => exact ⟨sound.now.untouched ⟨.refl _, rfl, rfl⟩, sound.calls⟩
    | minted answer => exact ⟨sound.now, sound.calls⟩

theorem grounded_of_reachable {env : Env β} {balance : Nat} {m : Machine (World β) Pending}
    (reached : Reachable C env balance m) : m.state.Grounded C := by
  refine ((manager_grounded C).reaches ⟨⟨?_, ?_⟩, ?_⟩ reached).state
  · intro batchId recorded
    exact absurd rfl recorded
  · intro challengeId revealed
    cases revealed
  · intro e before suffix
    cases List.suffix_nil.mp suffix

end Provenance

section Slashing

variable {C : Crypto β} {s : PoSeManager β} {env : Env β}

def Slashes (C : Crypto β) (e : Entry β) (challengeId nodeId : β) : Prop :=
  e.call = .settleChallenge challengeId ∧ ∃ step, e.state.dispatch C e.env e.msg e.call = .ok step ∧
    (step.state.nodes.read nodeId).bondAmount < (e.state.nodes.read nodeId).bondAmount

instance (C : Crypto β) (e : Entry β) (challengeId nodeId : β) : Decidable (Slashes C e challengeId nodeId) :=
  inferInstanceAs (Decidable (_ ∧ _))

variable {step : Step β}

omit [DecidableEq β] [Inhabited β] in
theorem forfeitBond_nodes {bond : Nat} (h : s.forfeitBond bond = .ok step) : step.state.nodes = s.nodes := by
  simp only [forfeitBond, bind_ok, pure_ok] at h
  obtain ⟨_, -, rfl⟩ := h
  rfl

theorem settleChallenge_slashes {challengeId nodeId : β} (h : s.settleChallenge env challengeId = .ok step)
    (slashed : (step.state.nodes.read nodeId).bondAmount < (s.nodes.read nodeId).bondAmount) :
    (s.challenges.read challengeId).revealed = true ∧ (s.challenges.read challengeId).targetNodeId = nodeId := by
  have target : ((s.markSettled challengeId).challenges.read challengeId).targetNodeId =
      (s.challenges.read challengeId).targetNodeId := by
    rw [markSettled, read_set_self]
  have changed : step.state.nodes ≠ (s.markSettled challengeId).nodes := fun same => by
    rw [same] at slashed
    exact Nat.lt_irrefl _ slashed
  rcases (settleChallenge_ok h).2 with forfeited | rfl | ⟨revealed, _, taken⟩
  · exact absurd (forfeitBond_nodes forfeited) changed
  · rw [payOrCredit_state] at changed
    exact absurd rfl changed
  · refine ⟨revealed, ?_⟩
    obtain ⟨node, _, _, _, _, _, rfl, -⟩ := distributeSlash_ok taken
    by_contra other
    rw [payOrCredit_state, target, read_set_other _ _ (Ne.symm other)] at slashed
    exact Nat.lt_irrefl _ slashed

theorem revealChallenge_shows {msg : Msg} {r : Reveal β} (h : s.revealChallenge C env msg r = .ok s') :
    ∃ batchId proof leaf,
      C.decodeEvidence r.evidenceData = some (batchId, proof, leaf) ∧ leaf.nodeId = r.targetNodeId ∧
      (s.batches.read batchId).merkleRoot ≠ default ∧ leaf.epoch = (s.batches.read batchId).epochId ∧
      verify C proof (s.batches.read batchId).merkleRoot (leafHash C leaf) = true := by
  simp only [revealChallenge, bind_ok] at h
  obtain ⟨-, -, h⟩ := h
  split at h
  · cases h
  · rename_i batchId proof leaf decoded
    simp only [checkEvidence, bind_ok, revertIf_ok, not_not] at h
    obtain ⟨_, ⟨-, target, -, hashed, -, present, -, -, -, epoch, -, verified, -⟩, -⟩ := h
    rw [← hashed] at verified
    exact ⟨batchId, proof, leaf, decoded, target, fun zero => present (.inl zero), epoch,
      Bool.eq_true_of_not_eq_false verified⟩

def RevealedOn (C : Crypto β) (history : List (Entry β)) (challengeId batchId : β) (leaf : EvidenceLeafV2 β)
    (before : List (Entry β)) : Prop :=
  ∃ e r proof, (e :: before) <:+ history ∧ e.call = .revealChallenge r ∧ r.challengeId = challengeId ∧
    C.decodeEvidence r.evidenceData = some (batchId, proof, leaf)

def SubmittedAs (C : Crypto β) (history : List (Entry β)) (batchId : β) (e : Entry β) (b : Submission β) : Prop :=
  e ∈ history ∧ e.call = .submitBatchV2WithMetadata b ∧
    batchId = PoSeManager.batchIdOf C b.epochId b.merkleRoot b.summaryHash e.msg.sender

/-- The metadata says of every receipt a counted witness stands for what the leaves of the batch say. -/
def MetadataBound (C : Crypto β) (witnessSet : List β) (b : Submission β) : Prop :=
  ∀ hash ∈ b.metadata.leafHashes, ∃ leaf, hash = PoSeManager.leafHash C leaf ∧
    ∀ i < witnessSet.length, b.witnessBitmap.testBit i = true →
      b.metadata.nodeIds[b.metadata.witnessReceiptIndex.getD i 0]? = some leaf.nodeId ∧
      b.metadata.resultCodes[b.metadata.witnessReceiptIndex.getD i 0]? = some leaf.resultCode

/-- Two thirds of the witnesses of the submitting call, rounded up, signed for a receipt of the leaf's node that
    it has the leaf's result code and epoch. -/
def Attested (C : Crypto β) (signed : Address → β → Prop) (e : Entry β) (b : Submission β) (leaf : EvidenceLeafV2 β) :
    Prop :=
  ∃ indices : List Nat, indices.Nodup ∧
    requiredWitnesses (getWitnessSet C e.state b.epochId).length ≤ indices.length ∧
    ∀ i ∈ indices, ∃ witness receiptIdx, (getWitnessSet C e.state b.epochId)[i]? = some witness ∧
      b.metadata.nodeIds[receiptIdx]? = some leaf.nodeId ∧
      signed (e.state.nodeOperator.read witness)
        (attestation C e.env b.metadata receiptIdx witness leaf.resultCode i leaf.epoch)

theorem submission_attested (free : CollisionFree C) {signed : Address → β → Prop} (unforgeable : Unforgeable C signed)
    {e : Entry β} {b : Submission β}
    (accepted : e.state.dispatch C e.env e.msg (.submitBatchV2WithMetadata b) = .ok step)
    (strict : e.state.allowEmptyWitnessSubmission = false) (nonempty : getWitnessSet C e.state b.epochId ≠ [])
    (sunset : e.state.v2SunsetEpoch ≠ 0 ∧ e.state.v2SunsetEpoch < b.epochId)
    (bound : MetadataBound C (getWitnessSet C e.state b.epochId) b) {leaf : EvidenceLeafV2 β} {proof : List β}
    (epoch : leaf.epoch = b.epochId)
    (verified : verify C proof b.merkleRoot (leafHash C leaf) = true) :
    Attested C signed e b leaf := by
  obtain ⟨s', submitted, -⟩ := map_ok.mp accepted
  simp only [submitBatchV2WithMetadata, bind_ok, pure_ok] at submitted
  obtain ⟨_, shape, attested, quorum, sampled, contents, -⟩ := submitted
  simp only [checkShape, bind_ok, revertIf_ok] at shape
  obtain ⟨-, -, -, -, -, -, -, -, -, receipts, -⟩ := shape
  simp only [checkContents, bind_ok, revertIf_ok, not_not] at contents
  obtain ⟨-, root, -⟩ := contents
  rw [← root] at verified
  have member := leafHash_mem free (fun empty => receipts (by rw [empty]; rfl))
    (fun hash inside => (bound hash inside).imp fun _ => And.left) verified
  obtain ⟨other, hashed, named⟩ := bound _ member
  obtain rfl := leafHash_injective free hashed
  obtain ⟨enough, each⟩ := validateWitnessQuorumV2_signed unforgeable sunset strict nonempty quorum
  refine ⟨_, List.nodup_range.filter _, enough, fun i counted => ?_⟩
  obtain ⟨witness, found, signature⟩ := each i counted
  obtain ⟨inside, bit⟩ := List.mem_filter.mp counted
  rw [mem_range] at inside
  obtain ⟨node, code⟩ := named i (by omega) bit
  rw [getD_eq_getElem?_getD (l := b.metadata.resultCodes), code, ← epoch] at signature
  exact ⟨witness, _, found, node, signature⟩

end Slashing

section UnattestedSlash

def termEnv (timestamp : Nat) : Env Term := ⟨timestamp, timestamp, 1, 0, [], 1000, none⟩

def victim : Term := symbolicHash [.bytes (List.replicate 64 0)]

def faultLeaf : EvidenceLeafV2 Term := ⟨2, victim, 0, [], 0, 0, 2, 1⟩

def hashing : Crypto Term := symbolicCrypto [] ([], [], faultLeaf)

def faultHash : Term := PoSeManager.leafHash hashing faultLeaf

def signatureAt (index : UInt8) : Bytes := List.replicate 31 0 ++ [index] ++ List.replicate 32 0 ++ [27]

variable (code : Nat)

def faultSubmission : Submission Term where
  epochId := 2
  merkleRoot := pairHash hashing faultHash faultHash
  summaryHash := symbolicHash [.uint 64 2, .bytes32 (pairHash hashing faultHash faultHash),
    .bytes32 (symbolicHash [.bytes32 [], .uint 32 0, .bytes32 faultHash]), .uint 32 1]
  sampleProofs := [⟨faultHash, [faultHash], 0⟩]
  witnessBitmap := 1
  witnessSignatures := [signatureAt 1]
  metadata := ⟨[[]], [victim], [[]], [faultHash], [code], [0]⟩

def faultBatchId : Term :=
  PoSeManager.batchIdOf hashing 2 (faultSubmission 0).merkleRoot (faultSubmission 0).summaryHash 5

def faultReveal : Reveal Term where
  challengeId := symbolicHash [.account 9, .uint 256 1, .uint 256 10800]
  targetNodeId := victim
  faultType := 2
  evidenceLeafHash := faultHash
  salt := []
  evidenceData := []
  challengerSig := signatureAt 2

/-- The node's key signed the registration, its operator, who is the only witness, one attestation, the
    challenger the reveal. -/
def slashSignatures : List (Address × Term) :=
  [(2, ethSignedHash hashing (symbolicHash [.text "coc-register:", .bytes32 victim, .account 7])),
    (7, attestation hashing (termEnv 0) (faultSubmission code).metadata 0 victim code 0 2),
    (9, PoSeManager.revealSignedHash hashing faultReveal)]

def slashCrypto : Crypto Term :=
  symbolicCrypto (slashSignatures code) (faultBatchId, [faultHash], faultLeaf)

def slashSigned (signer : Address) (digest : Term) : Prop := (signer, digest) ∈ slashSignatures code

def slashRun : List (Event (Msg × Call Term) (Outside Term)) :=
  [.call (⟨1, 0⟩, .initializeWith 5 1),
    .call (⟨1, 0⟩, .setV1SunsetEpoch 1),
    .call (⟨1, 0⟩, .setV2SunsetEpoch 1),
    .call (⟨7, minBond⟩, .registerNode ⟨victim, List.replicate 64 0, 0, [], [], [], signatureAt 0, []⟩),
    .outside (.tick (termEnv 10800)),
    .call (⟨5, 0⟩, .submitBatchV2WithMetadata (faultSubmission code)),
    .call (⟨9, 5⟩, .openChallenge (symbolicHash [.bytes32 victim, .uint 8 2, .bytes32 faultHash, .bytes32 []])),
    .call (⟨9, 0⟩, .revealChallenge faultReveal),
    .outside (.tick (termEnv 36000)),
    .call (⟨9, 0⟩, .settleChallenge faultReveal.challengeId)]

def slashMachine : Machine (World Term) Pending :=
  (slashRun code).foldl (Machine.step (manager (slashCrypto code))) ⟨⟨.deployed 0, termEnv 0, []⟩, []⟩

def endsInSlash : List (Entry Term) → Bool
  | settle :: reveal :: _ :: submit :: _ => decide (Slashes (slashCrypto code) settle faultReveal.challengeId victim ∧
      reveal.call = .revealChallenge faultReveal ∧ submit.call = .submitBatchV2WithMetadata (faultSubmission code) ∧
      submit.msg.sender = 5 ∧ submit.state.allowEmptyWitnessSubmission = false ∧
      getWitnessSet (slashCrypto code) submit.state 2 = [victim] ∧ submit.state.v1SunsetEpoch = 1 ∧
      submit.state.v2SunsetEpoch = 1)
  | _ => false

theorem slash_of_endsInSlash {code : Nat} {calls : List (Entry Term)} (checked : endsInSlash code calls = true) :
    ∃ settle history submit before, (settle :: history) <:+ calls ∧
      Slashes (slashCrypto code) settle faultReveal.challengeId victim ∧
      RevealedOn (slashCrypto code) history faultReveal.challengeId faultBatchId faultLeaf before ∧
      SubmittedAs (slashCrypto code) before faultBatchId submit (faultSubmission code) ∧
      submit.state.allowEmptyWitnessSubmission = false ∧ getWitnessSet (slashCrypto code) submit.state 2 = [victim] ∧
      submit.state.v1SunsetEpoch = 1 ∧ submit.state.v2SunsetEpoch = 1 := by
  match calls with
  | settle :: reveal :: opened :: submit :: rest =>
    obtain ⟨slashes, isReveal, isSubmit, sender, conditions⟩ := of_decide_eq_true checked
    refine ⟨settle, reveal :: opened :: submit :: rest, submit, opened :: submit :: rest, suffix_refl _, slashes,
      ⟨reveal, faultReveal, [faultHash], suffix_refl _, isReveal, rfl, rfl⟩, ⟨by simp, isSubmit, ?_⟩, conditions⟩
    rw [sender]
    rfl
  | [] | [_] | [_, _] | [_, _, _] => cases checked

theorem slashCrypto_unforgeable : Unforgeable (slashCrypto code) (slashSigned code) := by
  intro digest sig nonzero
  obtain zero | ⟨v, r, s, recovered⟩ := recoverSigner_cases (C := slashCrypto code) digest sig
  · exact absurd zero nonzero
  · rw [recovered] at nonzero ⊢
    simp only [slashCrypto, symbolicCrypto] at nonzero ⊢
    split at nonzero
    · rename_i signer message found
      split at nonzero
      · rename_i same
        rw [if_pos same, ← same]
        exact mem_of_getElem? found
      · exact absurd rfl nonzero
    · exact absurd rfl nonzero

end UnattestedSlash

end Palimesh.Settlement
