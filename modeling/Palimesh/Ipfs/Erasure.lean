import Palimesh.Collections.Buffer

namespace Palimesh.Ipfs

open Collections Buffer

abbrev Bytes := List UInt8

abbrev CidString := List Char

structure IpfsBlock where
  cid : CidString
  bytes : Bytes
deriving DecidableEq

def maxDataShards : Nat := 24

def maxParityShards : Nat := 6

def defaultShardSize : Nat := 262144

def shardSizeAlignment : Nat := 8

def maxShardSize : Nat := 16 * 1024 * 1024

def maxStripes : Nat := 16384

def maxErasureFileSize : Nat := 256 * 1024 * 1024

structure ErasureStripe where
  data : List CidString
  parity : List CidString

/-- Manifests come from anywhere, so their numbers are only known to be integers once they are checked. -/
structure ErasureManifest where
  v : Int
  scheme : String
  n : Int
  m : Int
  shardSize : Int
  fileSize : Int
  originalCid : Option CidString
  stripes : List ErasureStripe

structure ErasureParams where
  n : Int
  m : Int
  shardSize : Option Int
  originalCid : Option CidString

structure EncodeResult where
  manifestCid : CidString
  manifestBlock : IpfsBlock
  manifest : ErasureManifest
  shardBlocks : List IpfsBlock

section Errors

def throwIf {ε : Type} (bad : Prop) [Decidable bad] (error : ε) : Except ε Unit :=
  if bad then .error error else .ok ()

@[simp] theorem throwIf_ok {ε : Type} {bad : Prop} [Decidable bad] {error : ε} {u : Unit} :
    throwIf bad error = .ok u ↔ ¬ bad := by
  unfold throwIf
  split <;> simp_all

inductive ErasureError
  | dataShards | parityShards | tooManyDataShards | tooManyParityShards
  | shardSizeTooSmall | shardSizeUnaligned | shardSizeTooLarge
  | unsupported (v : Int) (scheme : String)
  | notObject
  | unsupportedBlock (v : Int) (scheme : String)
  | tooManyStripes (count : Nat)
  | coverage (size : Nat)
  | stripeShape (stripe data parity n m : Nat)
  | dataShardSize (shard stripe size expected : Nat)
  | parityShardSize (shard stripe size expected : Nat)
  | insufficient (stripe available needed : Nat)
  | missing (stripe count most : Nat)
  | fileSize (size : Int) (coverage : Nat)
  | library (text : String)
deriving DecidableEq

def ErasureError.code : ErasureError → Option String
  | .dataShards | .parityShards | .tooManyDataShards | .tooManyParityShards | .shardSizeTooSmall
  | .shardSizeUnaligned | .shardSizeTooLarge => some "invalid_params"
  | .unsupported _ _ | .unsupportedBlock _ _ => some "unsupported_manifest"
  | .notObject | .tooManyStripes _ | .coverage _ | .stripeShape _ _ _ _ _ | .fileSize _ _ => some "malformed_manifest"
  | .dataShardSize _ _ _ _ | .parityShardSize _ _ _ _ => some "shard_size_mismatch"
  | .insufficient _ _ _ | .missing _ _ _ => some "insufficient_shards"
  | .library _ => none

def ErasureError.message : ErasureError → String
  | .dataShards => "n must be a positive integer"
  | .parityShards => "m must be a positive integer"
  | .tooManyDataShards => s!"n exceeds MAX_DATA_SHARDS ({maxDataShards})"
  | .tooManyParityShards => s!"m exceeds MAX_PARITY_SHARDS ({maxParityShards})"
  | .shardSizeTooSmall => "shardSize must be a positive integer ≥ 8"
  | .shardSizeUnaligned => s!"shardSize must be a multiple of {shardSizeAlignment}"
  | .shardSizeTooLarge => s!"shardSize exceeds MAX_SHARD_SIZE ({maxShardSize})"
  | .unsupported v scheme => s!"unsupported manifest version/scheme: v={v}, scheme={scheme}"
  | .notObject => "manifest is not an object"
  | .unsupportedBlock v scheme => s!"unsupported v={v} scheme={scheme}"
  | .tooManyStripes count => s!"stripe count {count} exceeds MAX_STRIPES ({maxStripes})"
  | .coverage size => s!"decoded size {size} exceeds MAX_ERASURE_FILE_SIZE ({maxErasureFileSize})"
  | .stripeShape stripe data parity n m => s!"stripe {stripe} has {data} data + {parity} parity, expected {n} + {m}"
  | .dataShardSize shard stripe size expected =>
    s!"data shard {shard} of stripe {stripe} has size {size}, expected {expected}"
  | .parityShardSize shard stripe size expected =>
    s!"parity shard {shard} of stripe {stripe} has size {size}, expected {expected}"
  | .insufficient stripe available needed => s!"stripe {stripe}: only {available} shards available, need {needed}"
  | .missing stripe count most => s!"stripe {stripe}: {count} data shards missing, max {most}"
  | .fileSize size covered => s!"manifest fileSize {size} > stripe coverage {covered}"
  | .library text => text

end Errors

structure Sizes where
  n : Nat
  m : Nat
  shardSize : Nat
deriving DecidableEq

def Sizes.stripeSize (sizes : Sizes) : Nat := sizes.n * sizes.shardSize

def validateParams (params : ErasureParams) : Except ErasureError Sizes := do
  let n := params.n
  let m := params.m
  let shardSize := params.shardSize.getD defaultShardSize
  throwIf (n < 1) .dataShards
  throwIf (m < 1) .parityShards
  throwIf ((maxDataShards : Int) < n) .tooManyDataShards
  throwIf ((maxParityShards : Int) < m) .tooManyParityShards
  throwIf (shardSize < shardSizeAlignment) .shardSizeTooSmall
  throwIf (shardSize % shardSizeAlignment ≠ 0) .shardSizeUnaligned
  throwIf ((maxShardSize : Int) < shardSize) .shardSizeTooLarge
  return ⟨n.toNat, m.toNat, shardSize.toNat⟩

/-- A context of the Reed-Solomon library, by what it does to a stripe: the shards flagged as targets are filled
    in from those flagged as sources. -/
structure Context where
  encode : (sources targets : Nat) → (buffer parity : Bytes) → Except String (Bytes × Bytes)

def Context.encodeAt (ctx : Context) (sources targets : Nat) (buffer : Bytes) (bufferOffset bufferSize : Nat)
    (parity : Bytes) (parityOffset paritySize : Nat) : Except ErasureError (Bytes × Bytes) := do
  let (stripe, shards) ← (ctx.encode sources targets (slice buffer bufferOffset bufferSize)
    (slice parity parityOffset paritySize)).mapError .library
  return (write buffer bufferOffset stripe, write parity parityOffset shards)

/-- How blocks are addressed, and manifests serialized. -/
structure Codec where
  rawCid : Bytes → CidString
  cborCid : Bytes → CidString
  encodeManifest : ErasureManifest → Bytes

section Encode

def flags (start count : Nat) : Nat := (List.range' start count).foldl (fun mask i => mask ||| 1 <<< i) 0

variable (create : Nat → Nat → Context) (codec : Codec)

def encodeStripe (sizes : Sizes) (buffers : Bytes × Bytes) (s : Nat) : Except ErasureError (Bytes × Bytes) :=
  (create sizes.n sizes.m).encodeAt (flags 0 sizes.n) (flags sizes.n sizes.m) buffers.1 (s * sizes.stripeSize)
    sizes.stripeSize buffers.2 (s * sizes.shardSize * sizes.m) (sizes.shardSize * sizes.m)

def dataShards (sizes : Sizes) (buffer : Bytes) (s : Nat) : List Bytes :=
  (List.range sizes.n).map fun i => slice buffer (s * sizes.stripeSize + i * sizes.shardSize) sizes.shardSize

def parityShards (sizes : Sizes) (parity : Bytes) (s : Nat) : List Bytes :=
  (List.range sizes.m).map fun j =>
    slice parity (s * sizes.shardSize * sizes.m + j * sizes.shardSize) sizes.shardSize

def stripeCount (sizes : Sizes) (fileSize : Nat) : Nat :=
  max 1 ((fileSize + sizes.stripeSize - 1) / sizes.stripeSize)

def encodeFile (file : Bytes) (params : ErasureParams) : Except ErasureError EncodeResult := do
  let sizes ← validateParams params
  let fileSize := file.length
  let stripes := stripeCount sizes fileSize
  let padded := stripes * sizes.stripeSize
  let buffer := write (List.replicate padded 0) 0 file
  let parity := List.replicate (sizes.shardSize * sizes.m * stripes) 0
  let (buffer, parity) ← (List.range stripes).foldlM (encodeStripe create sizes) (buffer, parity)
  let shardBlocks := (List.range stripes).flatMap fun s =>
    (dataShards sizes buffer s ++ parityShards sizes parity s).map fun bytes => ⟨codec.rawCid bytes, bytes⟩
  let stripeMetas := (List.range stripes).map fun s =>
    ⟨(dataShards sizes buffer s).map codec.rawCid, (parityShards sizes parity s).map codec.rawCid⟩
  let manifest : ErasureManifest := {
    v := 1
    scheme := "rs"
    n := sizes.n
    m := sizes.m
    shardSize := sizes.shardSize
    fileSize := fileSize
    originalCid := params.originalCid.filter (· ≠ [])
    stripes := stripeMetas }
  let manifestBytes := codec.encodeManifest manifest
  let manifestCid := codec.cborCid manifestBytes
  return ⟨manifestCid, ⟨manifestCid, manifestBytes⟩, manifest, shardBlocks⟩

end Encode

section Decode

structure Loaded where
  buffer : Bytes
  present : Nat
  absent : Nat

def loadShards (shardSize firstFlag : Nat) (mismatch : Nat → Nat → ErasureError) :
    Nat → List (Option Bytes) → Loaded → Except ErasureError Loaded
  | _, [], loaded => .ok loaded
  | i, none :: results, loaded =>
    loadShards shardSize firstFlag mismatch (i + 1) results { loaded with absent := loaded.absent ||| 1 <<< (firstFlag + i) }
  | i, some shard :: results, loaded =>
    if shard.length ≠ shardSize then .error (mismatch i shard.length)
    else loadShards shardSize firstFlag mismatch (i + 1) results { loaded with
      buffer := write loaded.buffer (i * shardSize) shard
      present := loaded.present ||| 1 <<< (firstFlag + i) }

def copyShards (shardSize start : Nat) (mismatch : Nat → Nat → ErasureError) :
    Nat → List Bytes → Bytes → Except ErasureError Bytes
  | _, [], out => .ok out
  | i, shard :: shards, out =>
    if shard.length ≠ shardSize then .error (mismatch i shard.length)
    else copyShards shardSize start mismatch (i + 1) shards (write out (start + i * shardSize) shard)

variable (create : Nat → Nat → Context)

def reconstruct (sizes : Sizes) (s : Nat) (dataResults parityResults : List (Option Bytes)) :
    Except ErasureError Bytes := do
  let surviving := dataResults.countP Option.isSome + parityResults.countP Option.isSome
  throwIf (surviving < sizes.n) (.insufficient s surviving sizes.n)
  let data ← loadShards sizes.shardSize 0 (fun i size => .dataShardSize i s size sizes.shardSize) 0 dataResults
    ⟨List.replicate sizes.stripeSize 0, 0, 0⟩
  let parity ← loadShards sizes.shardSize sizes.n (fun j size => .parityShardSize j s size sizes.shardSize) 0 parityResults
    ⟨List.replicate (sizes.shardSize * sizes.m) 0, data.present, 0⟩
  let missing := dataResults.countP Option.isNone
  throwIf (sizes.m < missing) (.missing s missing sizes.m)
  let (stripeBuffer, _) ← (create sizes.n sizes.m).encodeAt parity.present data.absent data.buffer 0 sizes.stripeSize
    parity.buffer 0 (sizes.shardSize * sizes.m)
  return stripeBuffer

/-- One stripe; the fetcher is given the number of shards that were asked for before. -/
def decodeStripe (sizes : Sizes) (fetchShard : Nat → CidString → Option Bytes) (out : Bytes) (entry : ErasureStripe × Nat) :
    Except ErasureError Bytes := do
  let (stripe, s) := entry
  throwIf (stripe.data.length ≠ sizes.n ∨ stripe.parity.length ≠ sizes.m)
    (.stripeShape s stripe.data.length stripe.parity.length sizes.n sizes.m)
  let asked := s * (sizes.n + sizes.m)
  let dataResults := stripe.data.zipIdx.map fun shard => fetchShard (asked + shard.2) shard.1
  let parityResults := stripe.parity.zipIdx.map fun shard => fetchShard (asked + sizes.n + shard.2) shard.1
  if dataResults.all Option.isSome then
    copyShards sizes.shardSize (s * sizes.stripeSize) (fun i size => .dataShardSize i s size sizes.shardSize) 0
      dataResults.reduceOption out
  else
    let stripeBuffer ← reconstruct create sizes s dataResults parityResults
    return write out (s * sizes.stripeSize) stripeBuffer

/-- `subarray(0, end)`, where a negative end counts from the back. -/
def subarrayTo (bytes : Bytes) (stop : Int) : Bytes :=
  bytes.take (if stop < 0 then (bytes.length + stop).toNat else stop.toNat)

def decodeManifest (decode : Bytes → Option ErasureManifest) (bytes : Bytes) : Except ErasureError ErasureManifest :=
  match decode bytes with
  | none => .error .notObject
  | some decoded => do
    throwIf (decoded.v ≠ 1 ∨ decoded.scheme ≠ "rs") (.unsupportedBlock decoded.v decoded.scheme)
    return decoded

def decodeFile (manifest : ErasureManifest) (fetchShard : Nat → CidString → Option Bytes) : Except ErasureError Bytes := do
  throwIf (manifest.v ≠ 1 ∨ manifest.scheme ≠ "rs") (.unsupported manifest.v manifest.scheme)
  let sizes ← validateParams ⟨manifest.n, manifest.m, some manifest.shardSize, none⟩
  throwIf (maxStripes < manifest.stripes.length) (.tooManyStripes manifest.stripes.length)
  let totalCoverage := manifest.stripes.length * sizes.stripeSize
  throwIf (maxErasureFileSize < totalCoverage) (.coverage totalCoverage)
  let out ← manifest.stripes.zipIdx.foldlM (decodeStripe create sizes fetchShard) (List.replicate totalCoverage 0)
  throwIf (out.length < manifest.fileSize) (.fileSize manifest.fileSize out.length)
  return subarrayTo out manifest.fileSize

end Decode

end Palimesh.Ipfs
