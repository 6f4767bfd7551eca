import Palimesh.Chain.Block
import Palimesh.Collections.InsertionMap

namespace Palimesh.Chain

open Collections

/-- The key families `b:<number>` and `h:<hash>`, and the row `m:latest-block`. -/
structure BlockIndex where
  byNumber : InsertionMap Int ChainBlock
  byHash : InsertionMap Hex Int
  latest : Option ChainBlock
deriving DecidableEq

structure LatestRepair where
  repaired : Bool
  latestBefore : Option Int
  latestAfter : Option Int
  highestStored : Option Int
deriving DecidableEq

namespace BlockIndex

def empty : BlockIndex := ⟨.empty, .empty, none⟩

variable (index : BlockIndex)

def getBlockByNumber (num : Int) : Option ChainBlock := index.byNumber.get? num

def getBlockByHash (hash : Hex) : Option ChainBlock :=
  (index.byHash.get? hash).bind index.getBlockByNumber

def getLatestBlock : Option ChainBlock := index.latest

def updateBlock (block : ChainBlock) : BlockIndex :=
  { index with
    byNumber := index.byNumber.set block.number block
    byHash := index.byHash.set block.hash block.number }

def putBlock (block : ChainBlock) : BlockIndex :=
  { index.updateBlock block with latest := some block }

def updateBlockStateRoot (hash stateRoot : Hex) : BlockIndex :=
  match index.getBlockByHash hash with
  | none => index
  | some block => index.updateBlock { block with stateRoot := some stateRoot }

def higher (highest : Option Int) (n : Int) : Option Int :=
  match highest with
  | none => some n
  | some most => if most < n then some n else some most

def highestStored : Option Int := index.byNumber.keys.foldl higher none

def repairLatestPointer : LatestRepair × BlockIndex :=
  let beforeNum := index.getLatestBlock.map ChainBlock.number
  match index.highestStored with
  | none => (⟨false, beforeNum, beforeNum, none⟩, index)
  | some highest =>
    let lags := match beforeNum with
      | none => true
      | some before => decide (before < highest)
    match lags, index.getBlockByNumber highest with
    | true, some newLatest => (⟨true, beforeNum, some highest, some highest⟩, { index with latest := some newLatest })
    | _, _ => (⟨false, beforeNum, beforeNum, some highest⟩, index)

def demoteLatestTo (targetHeight : Int) : Option Int × BlockIndex :=
  match index.getBlockByNumber targetHeight with
  | none => (none, index)
  | some target => (some targetHeight, { index with latest := some target })

def dropBlocks (stale : Int → ChainBlock → Bool) : BlockIndex :=
  let dropped := index.byNumber.entries.filter fun row => stale row.1 row.2
  { index with
    byNumber := index.byNumber.filterKeys fun n => !dropped.any fun row => row.1 == n
    byHash := index.byHash.filterKeys fun hash => hash == "" || !dropped.any fun row => row.2.hash == hash }

def pruneStaleBlocksAfterTip (keepHeight : Int) : Nat × BlockIndex :=
  let aboveKeep := fun (n : Int) (_ : ChainBlock) => decide (keepHeight < n)
  ((index.byNumber.entries.filter fun row => aboveKeep row.1 row.2).length, index.dropBlocks aboveKeep)

end BlockIndex

end Palimesh.Chain
