import Palimesh.Collections.OrderedMerkle
import Palimesh.Pose.ReceiptVerifier

namespace Palimesh.Pose

open Collections
open Aggregator (Text IsHex32 toHex32 keccak256Hex hexToBuffer bigEndian)
open Settlement (Bytes)

section Tree

variable (keccak : Bytes → BitVec 256)

def hashLeaf (data : Bytes) : Text := toHex32 (keccak256Hex keccak (0x00 :: data))

def hashNodes (left right : Bytes) : Text := toHex32 (keccak256Hex keccak (0x01 :: (left ++ right)))

def hashPair (left right : Text) : Text := hashNodes keccak (hexToBuffer left) (hexToBuffer right)

def zeroHash : Text := toHex32 (List.replicate 64 '0')

def buildMerkleRoot (leaves : List Text) : Text :=
  if leaves.length = 0 then zeroHash
  else (MerkleTree.climbLevels (hashPair keccak) leaves.length leaves).headD zeroHash

/-- The loop over the pairs of a level, from position `i` on, with the index, the path and the next level so far. -/
def pairLoop : Nat → List Text → Nat → List Text → List Text → List Text × Nat × List Text
  | i, left :: right :: rest, idx, path, next =>
    if i = idx ∨ i + 1 = idx then
      pairLoop (i + 2) rest (i / 2) (path ++ [if i = idx then right else left]) (next ++ [hashPair keccak left right])
    else pairLoop (i + 2) rest idx path (next ++ [hashPair keccak left right])
  | i, [left], idx, path, next =>
    if i = idx ∨ i + 1 = idx then (path ++ [left], i / 2, next ++ [hashPair keccak left left])
    else (path, idx, next ++ [hashPair keccak left left])
  | _, [], idx, path, next => (path, idx, next)

def pathLoop : Nat → List Text → Nat → List Text → List Text
  | 0, _, _, path => path
  | fuel + 1, level, idx, path =>
    if level.length ≤ 1 then path
    else
      let (path, idx, next) := pairLoop keccak 0 level idx path []
      pathLoop fuel next idx path

def buildMerklePath (leaves : List Text) (index : Int) : Except String (List Text) :=
  if leaves.length = 0 then .ok []
  else if index < 0 ∨ leaves.length ≤ index then
    .error ("merkle path index out of bounds: " ++ toString index ++ " (leaves: " ++ toString leaves.length ++ ")")
  else .ok (pathLoop keccak leaves.length leaves index.toNat [])

structure StorageProofResult where
  leafHash : Text
  merkleRoot : Text
  merklePath : List Text
deriving DecidableEq

def loadFromBlockstore (cached : Option (List Text)) (chunks : List Bytes) (chunkIndex : Int) :
    Except String StorageProofResult := do
  let leaves := cached.getD (chunks.map (hashLeaf keccak))
  if chunkIndex < 0 ∨ leaves.length ≤ chunkIndex then
    throw ("invalid chunk index " ++ toString chunkIndex ++ " (leaves=" ++ toString leaves.length ++ ")")
  let merklePath ← buildMerklePath keccak leaves chunkIndex
  return ⟨leaves.getD chunkIndex.toNat [], buildMerkleRoot keccak leaves, merklePath⟩

end Tree

namespace JsNumber

/-- `x % 2 === 0` -/
def isEven : JsNumber → Bool
  | finite value => value.den = 1 && value.num % 2 = 0
  | _ => false

/-- `Math.floor(x / 2)` -/
def half : JsNumber → JsNumber
  | finite value => finite (⌊value / 2⌋ : ℤ)
  | other => other

def turns : Nat → JsNumber → List Bool
  | 0, _ => []
  | steps + 1, idx => (!idx.isEven) :: turns steps idx.half

theorem length_turns (steps : Nat) (idx : JsNumber) : (turns steps idx).length = steps := by
  induction steps generalizing idx with
  | zero => rfl
  | succ steps ih => rw [turns, List.length_cons, ih]

@[simp] theorem isEven_natCast (n : Nat) : isEven (finite (n : ℚ)) = !decide (n % 2 = 1) := by
  rcases Nat.mod_two_eq_zero_or_one n with even | odd
  · have number : (n : Int) % 2 = 0 := by omega
    simp [isEven, even, number]
  · have number : ¬ (n : Int) % 2 = 0 := by omega
    simp [isEven, odd, number]

@[simp] theorem half_natCast (n : Nat) : half (finite (n : ℚ)) = finite ((n / 2 : Nat) : ℚ) := by
  have floored := Rat.floor_intCast_div_natCast (n : Int) 2
  simp only [half, finite.injEq]
  push_cast at floored
  norm_cast

end JsNumber

/-- A member of a response body. An array in the place of a hash passes as the bytes of its numbers; a value without
    `slice` throws. -/
inductive Entry where
  | absent
  | text (value : Text)
  | array (items : Bytes)
  | other
deriving DecidableEq

def Entry.hexToBytes : Entry → Except String Bytes
  | text value => .ok (hexToBuffer value)
  | array items => .ok (items.drop 2)
  | _ => .error "value.slice is not a function"

structure StorageQuery where
  cid : Text
  chunkIndex : Nat
  merkleRoot : Option Text
deriving DecidableEq

/-- What the body of a storage receipt gives, its index already a number. -/
structure StorageResponse where
  chunkDataHash : Entry
  leafHash : Entry
  merklePath : Option (List Entry)
  merkleRoot : Entry
  chunkIndex : JsNumber
deriving DecidableEq

/-- `chunkDataHash ?? leafHash` -/
def StorageResponse.hash (response : StorageResponse) : Entry :=
  match response.chunkDataHash with
  | .absent => response.leafHash
  | entry => entry

variable (keccak : Bytes → BitVec 256)

def computeMerkleRoot : Text → List Entry → JsNumber → Except String Text
  | hash, [], _ => .ok hash
  | hash, sibling :: merklePath, idx => do
    let bytes ← sibling.hexToBytes
    computeMerkleRoot
      (if idx.isEven then hashNodes keccak (hexToBuffer hash) bytes else hashNodes keccak bytes (hexToBuffer hash))
      merklePath idx.half

def isHexText (text : Text) : Bool := text.take 2 = ['0', 'x']

def verifyStorageProof (challenge : StorageQuery) (response : StorageResponse) : Except String Bool :=
  match response.hash, response.merkleRoot, response.merklePath with
  | .text hash, .text root, some path =>
    if !isHexText hash || !isHexText root then .ok false
    else if (challenge.merkleRoot.elim false fun expected => !expected.isEmpty && expected ≠ root) then .ok false
    else (computeMerkleRoot keccak hash path response.chunkIndex).map fun computed => decide (computed = root)
  | _, _, _ => .ok false

def storageResponse (proof : StorageProofResult) (chunkIndex : Nat) : StorageResponse where
  chunkDataHash := .text proof.leafHash
  leafHash := .text proof.leafHash
  merklePath := some (proof.merklePath.map .text)
  merkleRoot := .text proof.merkleRoot
  chunkIndex := .finite chunkIndex

end Palimesh.Pose
