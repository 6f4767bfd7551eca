import Palimesh.Chain.Engine

namespace Palimesh.Chain

def targetGasUtilization : Int := 50

def maxChangeDenominator : Int := 8

def minBaseFee : Int := 1000000000

def targetBlobGasPerBlock : Int := 393216

structure BaseFeeParams where
  parentBaseFee : Int
  parentGasUsed : Int
  gasLimit : Option Int := none

def calculateBaseFee (params : BaseFeeParams) : Int :=
  let parentBaseFee := params.parentBaseFee
  let gasLimit := params.gasLimit.getD blockGasLimit
  if gasLimit ≤ 0 then parentBaseFee
  else
    let parentGasUsed := if gasLimit < params.parentGasUsed then gasLimit else params.parentGasUsed
    let targetGas := (gasLimit * targetGasUtilization).tdiv 100
    if targetGas = 0 then parentBaseFee
    else if parentGasUsed = targetGas then parentBaseFee
    else if targetGas < parentGasUsed then
      let delta := parentGasUsed - targetGas
      let increase := ((parentBaseFee * delta).tdiv targetGas).tdiv maxChangeDenominator
      parentBaseFee + if 0 < increase then increase else 1
    else
      let delta := targetGas - parentGasUsed
      let decrease := ((parentBaseFee * delta).tdiv targetGas).tdiv maxChangeDenominator
      let newFee := parentBaseFee - decrease
      if minBaseFee < newFee then newFee else minBaseFee

def genesisBaseFee : Int := minBaseFee

def calculateExcessBlobGas (parentExcessBlobGas parentBlobGasUsed : Int) : Int :=
  let total := parentExcessBlobGas + parentBlobGasUsed
  if total < targetBlobGasPerBlock then 0 else total - targetBlobGasPerBlock

def blockOn (host : Host) (tip : Option ChainBlock) (proposer : String) (proposerStake now nextHeight : Int)
    (selected : List Hex) : ChainBlock :=
  let block : ChainBlock :=
    { number := nextHeight
      hash := ""
      parentHash := (tip.map ChainBlock.hash).getD zeroHash
      proposer := proposer
      timestampMs := now
      txs := selected
      finalized := false
      baseFee := some (calculateBaseFee
        { parentBaseFee := (tip.bind ChainBlock.baseFee).getD genesisBaseFee
          parentGasUsed := (tip.bind ChainBlock.gasUsed).getD 0 })
      cumulativeWeight := some ((tip.bind ChainBlock.cumulativeWeight).getD 0 + proposerStake)
      blobGasUsed := some 0
      excessBlobGas := some (calculateExcessBlobGas ((tip.bind ChainBlock.excessBlobGas).getD 0)
        ((tip.bind ChainBlock.blobGasUsed).getD 0))
      parentBeaconBlockRoot := some zeroHash }
  { block with hash := hashBlockPayload host block }

namespace Engine

def buildBlock {ρ τ : Type} (host : Host) (e : Engine ρ τ) (now nextHeight : Int) (selected : List Hex) : ChainBlock :=
  blockOn host e.getTip e.cfg.nodeId (e.getValidatorStake e.cfg.nodeId) now nextHeight selected

end Engine

end Palimesh.Chain
