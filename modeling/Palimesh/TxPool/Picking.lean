import Palimesh.TxPool.Mempool

namespace Palimesh.TxPool

open Collections

/-- The arguments of `pickForBlock`. An oracle that answers `none` has rejected. -/
structure PickCall where
  maxTx : Int
  getOnchainNonce : Hex → Option Int
  minGasPriceWei : Int
  baseFeePerGas : Int := 1000000000
  blockGasLimit : Int := 30000000
  getBalance : Option (Hex → Option Int) := none

namespace PickCall

variable (call : PickCall)

def effectivePrice (tx : MempoolTx) : Int :=
  if 0 < tx.maxFeePerGas ∧ 0 < tx.maxPriorityFeePerGas then
    let dynamic := call.baseFeePerGas + tx.maxPriorityFeePerGas
    if tx.maxFeePerGas < dynamic then tx.maxFeePerGas else dynamic
  else tx.gasPrice

def canPayBaseFee (tx : MempoolTx) : Bool :=
  let feeCap := if 0 < tx.maxFeePerGas then tx.maxFeePerGas else tx.gasPrice
  decide (call.baseFeePerGas ≤ feeCap)

def eligible (tx : MempoolTx) : Bool := call.canPayBaseFee tx && decide (call.minGasPriceWei ≤ call.effectivePrice tx)

def comparePriority (a b : MempoolTx) : Int :=
  if call.effectivePrice a ≠ call.effectivePrice b then
    if call.effectivePrice b < call.effectivePrice a then -1 else 1
  else if a.nonce ≠ b.nonce then if a.nonce < b.nonce then -1 else 1
  else a.receivedAtMs - b.receivedAtMs

def sorted (txs : List MempoolTx) : List MempoolTx :=
  (txs.filter call.eligible).insertionSort fun a b => call.comparePriority a b ≤ 0

end PickCall

/-- What the oracles said about the senders. A sender whose nonce is unknown is filed under -1. -/
structure Fetched where
  expected : InsertionMap Hex Int
  balances : InsertionMap Hex Int

def PickCall.fetch (call : PickCall) (sorted : List MempoolTx) : Fetched :=
  let uniqueSenders := (sorted.map MempoolTx.sender).eraseDups
  { expected := uniqueSenders.foldl (fun known s => known.set s ((call.getOnchainNonce s).getD (-1))) .empty
    balances := match call.getBalance with
      | none => .empty
      | some getBalance => uniqueSenders.foldl (fun known s => known.set s ((getBalance s).getD 0)) .empty }

structure PickState where
  pool : Mempool
  expected : InsertionMap Hex Int
  picked : List MempoolTx := []
  cumulativeGas : Int := 0
  cumulativeSpend : InsertionMap Hex Int := .empty
  deferred : InsertionMap Hex (List MempoolTx) := .empty

inductive PickResult
  | picked
  | deferred
  | rejected
deriving DecidableEq

namespace PickCall

variable (call : PickCall) (balances : InsertionMap Hex Int) (s : PickState) (tx : MempoolTx)

def upfrontCost : Int := call.effectivePrice tx * tx.gasLimit + tx.value

def spent (sender : Hex) : Int := (s.cumulativeSpend.get? sender).getD 0

def affordable : Bool :=
  call.getBalance.isNone || decide (spent s tx.sender + call.upfrontCost tx ≤ (balances.get? tx.sender).getD 0)

/-- Not even the cheapest price could be paid: such a transaction would block its sender's queue forever. -/
def unfundable : Bool :=
  decide ((balances.get? tx.sender).getD 0 < call.minGasPriceWei * tx.gasLimit)

def take (next : Int) : PickState :=
  { s with
    picked := s.picked ++ [tx]
    cumulativeGas := s.cumulativeGas + tx.gasLimit
    cumulativeSpend := if call.getBalance.isSome
      then s.cumulativeSpend.set tx.sender (spent s tx.sender + call.upfrontCost tx) else s.cumulativeSpend
    expected := s.expected.set tx.sender (next + 1) }

def tryPickOne : PickResult × PickState :=
  if call.maxTx ≤ s.picked.length then (.rejected, s)
  else if call.blockGasLimit < s.cumulativeGas + tx.gasLimit then (.rejected, s)
  else match s.expected.get? tx.sender with
    | none => (.rejected, s)
    | some next =>
      if next = -1 then (.rejected, s)
      -- Its nonce is on the chain already.
      else if tx.nonce < next then (.rejected, { s with pool := s.pool.removeTx tx.hash })
      else if (tx.nonce : Int) ≠ next then (.deferred, s)
      else if call.affordable balances s tx then (.picked, call.take s tx next)
      else if call.unfundable balances tx then (.rejected, { s with pool := s.pool.removeTx tx.hash })
      else (.rejected, s)

def insertByNonce : List MempoolTx → List MempoolTx
  | [] => [tx]
  | head :: rest => if head.nonce < tx.nonce then head :: insertByNonce rest else tx :: head :: rest

def enqueueDeferred : PickState :=
  { s with deferred := s.deferred.set tx.sender (insertByNonce tx ((s.deferred.get? tx.sender).getD [])) }

def drainQueue (sender : Hex) : List MempoolTx → PickState → PickState
  | [], s => { s with deferred := s.deferred.set sender [] }
  | head :: rest, s =>
    if s.expected.get? sender = some (head.nonce : Int) then
      let (result, s) := call.tryPickOne balances s head
      if result = .picked then drainQueue sender rest s else { s with deferred := s.deferred.set sender rest }
    else { s with deferred := s.deferred.set sender (head :: rest) }

def drainDeferred (sender : Hex) : PickState :=
  match s.deferred.get? sender with
  | none => s
  | some queue => call.drainQueue balances sender queue s

def visit : PickState :=
  match call.tryPickOne balances s tx with
  | (.deferred, s) => enqueueDeferred s tx
  | (.picked, s) => call.drainDeferred balances s tx.sender
  | (.rejected, s) => s

/-- What `pickForBlock` does once the oracles have answered, on the pool as it is by then. -/
def resume (pool : Mempool) (sorted : List MempoolTx) (fetched : Fetched) : List MempoolTx × Mempool :=
  let s := sorted.foldl (call.visit fetched.balances) { pool, expected := fetched.expected }
  (s.picked, s.pool)

end PickCall

namespace Mempool

def beginPick (m : Mempool) (call : PickCall) (now : Int) : List MempoolTx × Mempool :=
  if call.maxTx ≤ 0 ∨ m.txs.size = 0 then ([], m)
  else
    let m := (m.evictExpired now).2
    (call.sorted (m.txs.entries.map Prod.snd), m)

def pickForBlock (m : Mempool) (call : PickCall) (now : Int) : List MempoolTx × Mempool :=
  let (sorted, m) := m.beginPick call now
  call.resume m sorted (call.fetch sorted)

end Mempool

end Palimesh.TxPool
