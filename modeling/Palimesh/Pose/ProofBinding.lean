import Palimesh.Aggregator.BatchAgreement
import Palimesh.Pose.StorageProof

namespace Palimesh.Pose

open Collections OrderedMerkle List Function MerkleTree
open MerkleTree (levelUp climbLevels getElem?_levelUp length_levelUp Inside inside_of_iterate)
open Aggregator (Text IsHex32 toHex32 keccak256Hex hexToBuffer bigEndian bytes32 isHex32_keccak length_bigEndian)
open Settlement (Bytes)

variable (keccak : Bytes → BitVec 256)

section Completeness

theorem pairLoop_past : ∀ (rest : List Text) (i idx : Nat) (path next : List Text), idx < i →
    pairLoop keccak i rest idx path next = (path, idx, next ++ levelUp (hashPair keccak) rest)
  | [], i, idx, path, next, _ => by simp [pairLoop, levelUp]
  | [left], i, idx, path, next, past => by
    rw [pairLoop, if_neg (by omega), levelUp]
  | left :: right :: rest, i, idx, path, next, past => by
    rw [pairLoop, if_neg (by omega), pairLoop_past rest (i + 2) idx path _ (by omega), levelUp, append_assoc]
    rfl

theorem pairLoop_eq : ∀ (rest : List Text) (i offset : Nat) (node : Text) (path next : List Text), i % 2 = 0 →
    rest[offset]? = some node →
    pairLoop keccak i rest (i + offset) path next =
      (path ++ [MerkleTree.sibling rest offset node], (i + offset) / 2, next ++ levelUp (hashPair keccak) rest)
  | [], _, _, _, _, _, _, here => by cases here
  | [left], i, offset, node, path, next, even, here => by
    cases offset with
    | zero =>
      cases here
      rw [pairLoop, if_pos (.inl (by omega))]
      rfl
    | succ offset => simp at here
  | left :: right :: rest, i, offset, node, path, next, even, here => by
    match offset, here with
    | 0, here =>
      cases here
      rw [pairLoop, if_pos (.inl (by omega)), if_pos (by omega), pairLoop_past keccak rest _ _ _ _ (by omega), levelUp,
        append_assoc]
      rfl
    | 1, here =>
      cases here
      rw [pairLoop, if_pos (.inr rfl), if_neg (by omega), pairLoop_past keccak rest _ _ _ _ (by omega), levelUp,
        append_assoc]
      have half : (i + 1) / 2 = i / 2 := by omega
      rw [half]
      rfl
    | offset + 2, here =>
      have later := pairLoop_eq rest (i + 2) offset node path (next ++ [hashPair keccak left right]) (by omega) here
      have shift : i + 2 + offset = i + (offset + 2) := by omega
      rw [shift] at later
      rw [pairLoop, if_neg (by omega), later, levelUp, append_assoc]
      have same : MerkleTree.sibling (left :: right :: rest) (offset + 2) node = MerkleTree.sibling rest offset node := by
        unfold MerkleTree.sibling
        have parity : (offset + 2) % 2 = offset % 2 := by omega
        rw [parity]
        split
        · rfl
        · have down : offset + 2 - 1 = offset - 1 + 2 := by omega
          rw [down]
          rfl
      rw [same]
      rfl

theorem pathLoop_climbs : ∀ (fuel : Nat) (level : List Text) (idx : Nat) (node : Text) (path : List Text),
    level[idx]? = some node → level.length ≤ fuel + 1 →
    ∃ more, pathLoop keccak fuel level idx path = path ++ more ∧ more.length = height fuel level.length ∧
      climbLevels (hashPair keccak) fuel level =
        [climb (hashPair keccak) node (more.zip (OrderedMerkle.turns more.length idx))]
  | 0, level, idx, node, path, here, small => by
    obtain ⟨only, rfl⟩ := List.length_eq_one_iff.mp (show level.length = 1 by
      have inside := (List.getElem?_eq_some_iff.mp here).1
      omega)
    obtain rfl : idx = 0 := by simpa using (List.getElem?_eq_some_iff.mp here).1
    cases here
    exact ⟨[], by simp [pathLoop], rfl, rfl⟩
  | fuel + 1, level, idx, node, path, here, small => by
    have inside := (List.getElem?_eq_some_iff.mp here).1
    rw [pathLoop, height, climbLevels]
    by_cases narrow : level.length ≤ 1
    · obtain ⟨only, rfl⟩ := List.length_eq_one_iff.mp (show level.length = 1 by omega)
      obtain rfl : idx = 0 := by simpa using inside
      cases here
      exact ⟨[], by simp, rfl, rfl⟩
    · have looped := pairLoop_eq keccak level 0 idx node path [] rfl here
      rw [zero_add, nil_append] at looped
      have halved := length_levelUp (hashPair keccak) level
      obtain ⟨more, made, count, climbed⟩ := pathLoop_climbs fuel (levelUp (hashPair keccak) level) (idx / 2) _
        (path ++ [MerkleTree.sibling level idx node]) (levelUp_join (hashPair keccak) here) (by omega)
      refine ⟨MerkleTree.sibling level idx node :: more, ?_, ?_, ?_⟩
      · rw [if_neg narrow, looped]
        simpa using made
      · rw [if_neg narrow, length_cons, count, halved]
      · rw [if_neg narrow, climbed, length_cons, OrderedMerkle.turns, zip_cons_cons]
        rfl

theorem computeMerkleRoot_texts (hash : Text) (path : List Text) (idx : Nat) :
    computeMerkleRoot keccak hash (path.map .text) (.finite idx) =
      .ok (climb (hashPair keccak) hash (path.zip (OrderedMerkle.turns path.length idx))) := by
  induction path generalizing hash idx with
  | nil => rfl
  | cons sibling path ih =>
    rw [map_cons, computeMerkleRoot, length_cons, OrderedMerkle.turns, zip_cons_cons, climb_cons, ← ih,
      JsNumber.half_natCast, JsNumber.isEven_natCast]
    rcases Nat.mod_two_eq_zero_or_one idx with even | odd
    · simp only [even, Entry.hexToBytes, join, hashPair]
      rfl
    · simp only [odd, Entry.hexToBytes, join, hashPair]
      rfl

theorem computeMerkleRoot_buildMerklePath {leaves : List Text} {index : Nat} {leaf : Text}
    (here : leaves[index]? = some leaf) :
    ∃ path, buildMerklePath keccak leaves index = .ok path ∧ path.length = height leaves.length leaves.length ∧
      computeMerkleRoot keccak leaf (path.map .text) (.finite index) = .ok (buildMerkleRoot keccak leaves) := by
  have inside := (List.getElem?_eq_some_iff.mp here).1
  obtain ⟨path, made, count, climbed⟩ := pathLoop_climbs keccak leaves.length leaves index leaf [] here (by omega)
  refine ⟨path, ?_, count, ?_⟩
  · rw [buildMerklePath, if_neg (by omega), if_neg (by omega), Int.toNat_natCast, made]
    rfl
  · rw [computeMerkleRoot_texts, buildMerkleRoot, if_neg (by omega), climbed]
    rfl

end Completeness

section Soundness

def hashBytes (data : Bytes) : Bytes := bigEndian 32 (keccak data).toNat

def combine (left right : Bytes) : Bytes := hashBytes keccak (0x01 :: (left ++ right))

def leafBytes (chunk : Bytes) : Bytes := hashBytes keccak (0x00 :: chunk)

/-- What follows from an injective hash for the tree of one file: none of its nodes has two preimages. -/
def Binding (chunks : List Bytes) : Prop :=
  ∀ {node a b : Bytes}, Inside (combine keccak) (chunks.map (leafBytes keccak))
      (hexToBuffer (buildMerkleRoot keccak (chunks.map (hashLeaf keccak)))) node →
    hashBytes keccak a = node → hashBytes keccak b = node → a = b

theorem hexToBuffer_hash (data : Bytes) : hexToBuffer (toHex32 (keccak256Hex keccak data)) = hashBytes keccak data := by
  rw [(isHex32_keccak keccak data).hexToBuffer_eq, keccak256Hex, Aggregator.bytes32_word]
  rfl

theorem hexToBuffer_inj {a b : Text} (isA : IsHex32 a) (isB : IsHex32 b) (same : hexToBuffer a = hexToBuffer b) : a = b := by
  apply isA.bytes32_injective isB
  rw [bytes32, bytes32, same]

theorem hexToBuffer_hashLeaf (chunk : Bytes) : hexToBuffer (hashLeaf keccak chunk) = leafBytes keccak chunk :=
  hexToBuffer_hash keccak (0x00 :: chunk)

theorem hexToBuffer_hashNodes (left right : Bytes) :
    hexToBuffer (hashNodes keccak left right) = combine keccak left right :=
  hexToBuffer_hash keccak (0x01 :: (left ++ right))

theorem map_hashLeaf (chunks : List Bytes) :
    (chunks.map (hashLeaf keccak)).map hexToBuffer = chunks.map (leafBytes keccak) := by
  simp only [map_map, comp_def, hexToBuffer_hashLeaf]

theorem isHex32_hashLeaf {chunks : List Bytes} {leaf : Text} (member : leaf ∈ chunks.map (hashLeaf keccak)) :
    IsHex32 leaf := by
  obtain ⟨chunk, -, rfl⟩ := List.mem_map.mp member
  exact isHex32_keccak keccak _

theorem computeMerkleRoot_ok {path : List Entry} : ∀ {hash computed : Text} {idx : JsNumber},
    computeMerkleRoot keccak hash path idx = .ok computed →
    ∃ siblings : List Bytes, siblings.length = path.length ∧
      hexToBuffer computed = climb (combine keccak) (hexToBuffer hash) (siblings.zip (idx.turns path.length)) := by
  induction path with
  | nil =>
    intro hash computed idx done
    cases done
    exact ⟨[], rfl, rfl⟩
  | cons sibling path ih =>
    intro hash computed idx done
    rw [computeMerkleRoot] at done
    cases decoded : sibling.hexToBytes with
    | error error =>
      rw [decoded] at done
      cases done
    | ok bytes =>
      rw [decoded] at done
      obtain ⟨siblings, count, climbed⟩ := ih done
      refine ⟨bytes :: siblings, by rw [length_cons, count, length_cons], ?_⟩
      rw [climbed, length_cons, JsNumber.turns, zip_cons_cons, climb_cons]
      cases idx.isEven with
      | false =>
        rw [if_neg (by decide), hexToBuffer_hashNodes]
        rfl
      | true =>
        rw [if_pos rfl, hexToBuffer_hashNodes]
        rfl

variable {keccak} {chunks : List Bytes}

theorem length_of_mem {rounds : Nat} {node : Bytes}
    (member : node ∈ (levelUp (combine keccak))^[rounds] (chunks.map (leafBytes keccak))) : node.length = 32 := by
  cases rounds with
  | zero =>
    obtain ⟨chunk, -, rfl⟩ := List.mem_map.mp member
    exact length_bigEndian _ _
  | succ rounds =>
    rw [iterate_succ_apply'] at member
    obtain ⟨left, -, right, -, same⟩ := mem_levelUp _ member
    rw [same]
    exact length_bigEndian _ _

variable (nonempty : chunks ≠ [])
include nonempty

variable (keccak) in
theorem climbLevels_hashLeaf :
    climbLevels (hashPair keccak) chunks.length (chunks.map (hashLeaf keccak)) =
      [buildMerkleRoot keccak (chunks.map (hashLeaf keccak))] := by
  have positive := List.length_pos_iff.mpr nonempty
  have length := length_climbLevels (hashPair keccak)
    (show chunks.map (hashLeaf keccak) ≠ [] by simpa using nonempty)
    (show _ ≤ chunks.length + 1 by rw [length_map]; omega)
  obtain ⟨top, single⟩ := List.length_eq_one_iff.mp length
  rw [buildMerkleRoot, length_map, if_neg (by omega), single]
  rfl

variable (keccak) in
theorem iterate_leafBytes :
    (levelUp (combine keccak))^[height chunks.length chunks.length] (chunks.map (leafBytes keccak)) =
      [hexToBuffer (buildMerkleRoot keccak (chunks.map (hashLeaf keccak)))] := by
  have homomorphic : ∀ a b : Text, True → True →
      hexToBuffer (hashPair keccak a b) = combine keccak (hexToBuffer a) (hexToBuffer b) :=
    fun a b _ _ => hexToBuffer_hashNodes keccak _ _
  have mapped := map_climbLevels homomorphic (fun _ _ _ _ => trivial) chunks.length
    (fun (node : Text) (_ : node ∈ chunks.map (hashLeaf keccak)) => trivial)
  have unrolled := climbLevels_eq (combine keccak) chunks.length (chunks.map (leafBytes keccak))
  rw [length_map] at unrolled
  rw [climbLevels_hashLeaf keccak nonempty, map_hashLeaf, unrolled] at mapped
  exact mapped.symm

variable (keccak) in
theorem isHex32_buildMerkleRoot : IsHex32 (buildMerkleRoot keccak (chunks.map (hashLeaf keccak))) := by
  have closed : ∀ a b : Text, IsHex32 a → IsHex32 b → IsHex32 (hashPair keccak a b) :=
    fun a b _ _ => isHex32_keccak keccak _
  have all := forall_climbLevels closed chunks.length
    (fun (leaf : Text) (member : leaf ∈ chunks.map (hashLeaf keccak)) => isHex32_hashLeaf keccak member)
  rw [climbLevels_hashLeaf keccak nonempty] at all
  exact all _ (List.mem_singleton.mpr rfl)

theorem Binding.binds (binding : Binding keccak chunks) :
    Binds (combine keccak) (fun node => node.length = 32) (chunks.map (leafBytes keccak))
      (height chunks.length chunks.length) where
  closed := fun _ _ => length_bigEndian _ _
  pairs := by
    intro rounds low c inC d inD member a b same width
    have inside := inside_of_iterate (combine keccak) (iterate_leafBytes keccak nonempty) (Nat.succ_le_of_lt low) member
    have data := binding inside same rfl
    have same := (List.cons.inj data).2
    have widthC := length_of_mem inC
    have widthD := length_of_mem inD
    have total := congrArg List.length same
    rw [length_append, length_append] at total
    exact append_inj same (by omega)

theorem Binding.bare (binding : Binding keccak chunks) :
    ∀ leaf ∈ chunks.map (leafBytes keccak), ∀ a b, leaf ≠ combine keccak a b := by
  intro leaf member a b same
  have inside := inside_of_iterate (combine keccak) (iterate_leafBytes keccak nonempty) (Nat.zero_le _) member
  obtain ⟨chunk, -, rfl⟩ := List.mem_map.mp member
  have data := binding inside rfl same.symm
  cases data

end Soundness

section Responses

/-- The leaf a response answers with, whatever the spelling of its bytes. -/
def StorageResponse.RespondsWith (response : StorageResponse) (leaf : Text) : Prop :=
  ∃ hash, response.hash = .text hash ∧ hexToBuffer hash = hexToBuffer leaf

/-- The response has a path of the honest length, a hash of thirty-two bytes, and an index whose turns lead to a leaf
    like the one at the challenged position. -/
def StorageResponse.Addresses (response : StorageResponse) (leaves : List Text) (chunkIndex : Nat) : Prop :=
  ∃ hash path honest, response.hash = .text hash ∧ response.merklePath = some path ∧
    buildMerklePath keccak leaves chunkIndex = .ok honest ∧ path.length = honest.length ∧
    (hexToBuffer hash).length = 32 ∧
    leaves[address leaves.length (response.chunkIndex.turns path.length) 0]? = leaves[chunkIndex]?

variable {keccak} {challenge : StorageQuery} {response : StorageResponse}

theorem verifyStorageProof_ok {root : Text}
    (expected : challenge.merkleRoot = some root) (nonempty : root ≠ [])
    (accepted : verifyStorageProof keccak challenge response = .ok true) :
    ∃ hash path, response.hash = .text hash ∧ response.merklePath = some path ∧
      computeMerkleRoot keccak hash path response.chunkIndex = .ok root := by
  unfold verifyStorageProof at accepted
  split at accepted
  · rename_i hash claimed path isHash isRoot isPath
    refine ⟨hash, path, isHash, isPath, ?_⟩
    split at accepted
    · cases accepted
    · split at accepted
      · cases accepted
      · rename_i match_
        rw [expected] at match_
        have same : root = claimed := by
          by_contra differ
          simp [nonempty, differ] at match_
        subst same
        cases computed : computeMerkleRoot keccak hash path response.chunkIndex with
        | error error =>
          rw [computed] at accepted
          cases accepted
        | ok result =>
          rw [computed] at accepted
          simp only [Except.map, Except.ok.injEq, decide_eq_true_eq] at accepted
          rw [accepted]
  · cases accepted

theorem Binding.level_of_response {chunks : List Bytes} (nonempty : chunks ≠ []) (binding : Binding keccak chunks)
    {hash : Text} {path : List Entry} {idx : JsNumber} (width : (hexToBuffer hash).length = 32)
    (computed : computeMerkleRoot keccak hash path idx = .ok (buildMerkleRoot keccak (chunks.map (hashLeaf keccak)))) :
    path.length ≤ height chunks.length chunks.length ∧
      let level := (levelUp (combine keccak))^[height chunks.length chunks.length - path.length]
        (chunks.map (leafBytes keccak))
      level[address level.length (idx.turns path.length) 0]? = some (hexToBuffer hash) := by
  obtain ⟨siblings, count, climbed⟩ := computeMerkleRoot_ok keccak computed
  have turnCount := JsNumber.length_turns path.length idx
  have steps : (siblings.zip (idx.turns path.length)).length = path.length := by
    rw [length_zip, count, turnCount, Nat.min_self]
  have turns : (siblings.zip (idx.turns path.length)).map Prod.snd = idx.turns path.length :=
    map_snd_zip (by rw [turnCount, count])
  have top := iterate_leafBytes keccak nonempty
  rw [climbed] at top
  have found := (Binding.binds nonempty binding).level_of_climb (Binding.bare nonempty binding) width top
  rw [steps, turns] at found
  exact found

/-- An accepted response is bound to the challenged chunk exactly when it addresses it. -/
theorem Binding.respondsWith_iff {chunks : List Bytes} (binding : Binding keccak chunks)
    {leaf : Text}
    (expected : challenge.merkleRoot = some (buildMerkleRoot keccak (chunks.map (hashLeaf keccak))))
    (challenged : (chunks.map (hashLeaf keccak))[challenge.chunkIndex]? = some leaf)
    (accepted : verifyStorageProof keccak challenge response = .ok true) :
    response.RespondsWith leaf ↔ response.Addresses keccak (chunks.map (hashLeaf keccak)) challenge.chunkIndex := by
  have nonempty : chunks ≠ [] := by
    rintro rfl
    cases challenged
  have spelled : buildMerkleRoot keccak (chunks.map (hashLeaf keccak)) ≠ [] := by
    intro empty
    have start := (isHex32_buildMerkleRoot keccak nonempty).start
    rw [empty] at start
    cases start
  obtain ⟨hash, path, isHash, isPath, computed⟩ := verifyStorageProof_ok expected spelled accepted
  obtain ⟨honest, built, count, -⟩ := computeMerkleRoot_buildMerklePath keccak challenged
  rw [length_map] at count
  have isHex := isHex32_hashLeaf keccak (mem_of_getElem? challenged)
  have member : hexToBuffer leaf ∈ chunks.map (leafBytes keccak) := by
    rw [← map_hashLeaf]
    exact mem_map_of_mem (mem_of_getElem? challenged)
  constructor
  · rintro ⟨other, isOther, same⟩
    cases isHash.symm.trans isOther
    have width : (hexToBuffer hash).length = 32 := by
      rw [same]
      exact length_of_mem (show _ ∈ (levelUp (combine keccak))^[0] _ from member)
    obtain ⟨short, found⟩ := binding.level_of_response nonempty width computed
    rcases Nat.lt_or_ge path.length (height chunks.length chunks.length) with shorter | full
    · -- A shorter path starts from an inner node, which no leaf is.
      obtain ⟨extra, above⟩ : ∃ extra, height chunks.length chunks.length - path.length = extra + 1 :=
        ⟨height chunks.length chunks.length - path.length - 1, by omega⟩
      rw [above, same] at found
      have inner := mem_of_getElem? found
      rw [iterate_succ_apply'] at inner
      obtain ⟨left, -, right, -, pair⟩ := mem_levelUp _ inner
      exact absurd pair (binding.bare nonempty _ member left right)
    · refine ⟨hash, path, honest, isHash, isPath, built, by omega, width, ?_⟩
      have level : height chunks.length chunks.length - path.length = 0 := by omega
      rw [level, iterate_zero_apply] at found
      dsimp only at found
      rw [← map_hashLeaf, getElem?_map, length_map, length_map, Option.map_eq_some_iff] at found
      obtain ⟨other, there, bytes⟩ := found
      rw [challenged, length_map, there]
      have isOther := isHex32_hashLeaf keccak (mem_of_getElem? there)
      rw [hexToBuffer_inj isOther isHex (bytes.trans same)]
  · rintro ⟨other, path', honest', isOther, isPath', built', same, width, position⟩
    cases isHash.symm.trans isOther
    cases isPath.symm.trans isPath'
    cases built.symm.trans built'
    obtain ⟨short, found⟩ := binding.level_of_response nonempty width computed
    have level : height chunks.length chunks.length - path.length = 0 := by omega
    rw [level, iterate_zero_apply] at found
    dsimp only at found
    rw [← map_hashLeaf, getElem?_map, length_map] at found
    rw [challenged] at position
    rw [position] at found
    exact ⟨hash, isHash, (Option.some.inj found).symm⟩

variable (keccak)

/-- Storage proofs are complete, and bound to the challenged chunk only as far as the response addresses it,
    since the verifier folds along the response's own index. -/
theorem storageProofs_complete_and_addressed :
    (∀ (leaves : List Text) (index : Nat) (leaf : Text), leaves[index]? = some leaf →
      ∃ path, buildMerklePath keccak leaves index = .ok path ∧
        computeMerkleRoot keccak leaf (path.map .text) (.finite index) = .ok (buildMerkleRoot keccak leaves)) ∧
    (∀ (chunks : List Bytes), Binding keccak chunks → ∀ (challenge : StorageQuery) (response : StorageResponse)
      (leaf : Text), challenge.merkleRoot = some (buildMerkleRoot keccak (chunks.map (hashLeaf keccak))) →
      (chunks.map (hashLeaf keccak))[challenge.chunkIndex]? = some leaf →
      verifyStorageProof keccak challenge response = .ok true →
        (response.RespondsWith leaf ↔
          response.Addresses keccak (chunks.map (hashLeaf keccak)) challenge.chunkIndex)) := by
  constructor
  · intro leaves index leaf here
    obtain ⟨path, built, -, computed⟩ := computeMerkleRoot_buildMerklePath keccak here
    exact ⟨path, built, computed⟩
  · intro chunks binding challenge response leaf expected challenged accepted
    exact binding.respondsWith_iff expected challenged accepted

end Responses

section Sample

def sampleChunks : List Bytes := [[1], [2]]

def samplePreimages : List Bytes := [[0, 1], [0, 2], 1 :: (bigEndian 32 0 ++ bigEndian 32 1)]

def sampleKeccak (data : Bytes) : BitVec 256 := BitVec.ofNat 256 (samplePreimages.idxOf data)

theorem sampleKeccak_injective {a b : Bytes} (same : hashBytes sampleKeccak a = hashBytes sampleKeccak b)
    (known : hashBytes sampleKeccak a ≠ bigEndian 32 3) : a = b := by
  have words := congrArg BitVec.toNat (Aggregator.bigEndian_word_injective same)
  have boundA : samplePreimages.idxOf a ≤ 3 := idxOf_le_length
  have boundB : samplePreimages.idxOf b ≤ 3 := idxOf_le_length
  simp only [sampleKeccak, BitVec.toNat_ofNat] at words
  have member : a ∈ samplePreimages := by
    apply List.idxOf_lt_length_iff.mp
    rcases Nat.lt_or_ge (samplePreimages.idxOf a) 3 with below | above
    · exact below
    · have three : samplePreimages.idxOf a = 3 := le_antisymm boundA above
      rw [hashBytes, sampleKeccak, three] at known
      exact absurd rfl known
  exact (idxOf_inj member).mp (by omega)

theorem sample_level (rounds : Nat) :
    (levelUp (combine sampleKeccak))^[rounds] (sampleChunks.map (leafBytes sampleKeccak)) =
      if rounds = 0 then [bigEndian 32 0, bigEndian 32 1] else if rounds = 1 then [bigEndian 32 2] else [bigEndian 32 3] := by
  induction rounds with
  | zero => decide +kernel
  | succ rounds ih =>
    rw [iterate_succ_apply', ih]
    rcases rounds with _ | _ | rounds
    · decide +kernel
    · decide +kernel
    · have above : levelUp (combine sampleKeccak) [bigEndian 32 3] = [bigEndian 32 3] := by decide +kernel
      simpa using above

theorem sampleBinding : Binding sampleKeccak sampleChunks := by
  rintro node a b ⟨rounds, more, member, top⟩ hashedA hashedB
  have root : hexToBuffer (buildMerkleRoot sampleKeccak (sampleChunks.map (hashLeaf sampleKeccak))) = bigEndian 32 2 := by
    decide +kernel
  have distinct : bigEndian 32 2 ≠ bigEndian 32 3 := by decide +kernel
  rw [sample_level] at member top
  rw [root] at top
  have low : more + rounds ≤ 1 := by
    by_contra high
    rw [if_neg (by omega), if_neg (by omega)] at top
    exact distinct (List.cons.inj top).1.symm
  apply sampleKeccak_injective (hashedA.trans hashedB.symm)
  rw [hashedA]
  rintro rfl
  rcases (by omega : rounds = 0 ∨ rounds = 1) with rfl | rfl
  · revert member
    decide +kernel
  · revert member
    decide +kernel

def sampleLeaves : List Text := sampleChunks.map (hashLeaf sampleKeccak)

def sampleQuery : StorageQuery := ⟨"QmFile".toList, 0, some (buildMerkleRoot sampleKeccak sampleLeaves)⟩

def answerFor (chunkIndex : Nat) : StorageResponse :=
  match loadFromBlockstore sampleKeccak none sampleChunks chunkIndex with
  | .ok proof => storageResponse proof chunkIndex
  | .error _ => ⟨.absent, .absent, none, .absent, .nan⟩

theorem honestAnswer_bound : verifyStorageProof sampleKeccak sampleQuery (answerFor 0) = .ok true ∧
    ((answerFor 0).RespondsWith (hashLeaf sampleKeccak [1]) ↔
      (answerFor 0).Addresses sampleKeccak sampleLeaves 0) := by
  have accepted : verifyStorageProof sampleKeccak sampleQuery (answerFor 0) = .ok true := by decide +kernel
  exact ⟨accepted, (storageProofs_complete_and_addressed sampleKeccak).2 sampleChunks sampleBinding sampleQuery
    (answerFor 0) _ rfl rfl accepted⟩

/-- Asked for chunk 0, a node that has chunk 1 only is accepted with it; so is one that has just the root's preimage,
    cut at another place. -/
theorem otherChunk_accepted :
    sampleQuery.chunkIndex = 0 ∧
      verifyStorageProof sampleKeccak sampleQuery (answerFor 1) = .ok true ∧
      (answerFor 1).hash = .text (hashLeaf sampleKeccak [2]) ∧
      hexToBuffer (hashLeaf sampleKeccak [2]) ≠ hexToBuffer (hashLeaf sampleKeccak [1]) ∧
      verifyStorageProof sampleKeccak sampleQuery
        { answerFor 0 with
          chunkDataHash := .text ['0', 'x']
          merklePath := some [.array ([0, 0] ++ bigEndian 32 0 ++ bigEndian 32 1)] } = .ok true := by
  decide +kernel

end Sample

end Palimesh.Pose
