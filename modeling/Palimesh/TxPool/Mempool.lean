import Palimesh.Chain.Block
import Palimesh.Collections.InsertionMap
import Palimesh.TxPool.PartialSelect

namespace Palimesh.TxPool

open Collections

/-- A decoded transaction, as far as admission looks at it; `data` stands for its bytes. -/
structure Transaction where
  hash : Hex
  sender : Option Hex
  type : Nat
  recipient : Option Hex
  data : List UInt8
  nonce : Nat
  gasLimit : Option Int
  gasPrice : Option Int
  maxFeePerGas : Option Int
  maxPriorityFeePerGas : Option Int
  value : Option Int
  chainId : Option Int
deriving DecidableEq

/-- `Transaction.from`. The hash covers the signed transaction, so it fixes the sender and the nonce. -/
structure Decoder where
  decode : Hex → Option Transaction
  hashed : ∀ rawTx tx, decode rawTx = some tx → tx.hash ≠ ""
  committed : ∀ rawTx tx rawTx' tx', decode rawTx = some tx → decode rawTx' = some tx' → tx.hash = tx'.hash →
    tx.sender = tx'.sender ∧ tx.nonce = tx'.nonce

structure MempoolTx where
  hash : Hex
  rawTx : Hex
  sender : Hex
  nonce : Nat
  gasPrice : Int
  maxFeePerGas : Int
  maxPriorityFeePerGas : Int
  gasLimit : Int
  value : Int
  receivedAtMs : Int
deriving DecidableEq

structure MempoolConfig where
  maxSize : Nat := 4096
  maxPerSender : Nat := 64
  minGasBump : Int := 10
  evictionBatchSize : Nat := 16
  txTtlMs : Int := 6 * 60 * 60 * 1000
  chainId : Int := 18780
deriving DecidableEq

inductive TxError
  | undecodable
  | missingSender
  | blobTransaction
  | gasLimitTooHigh (gasLimit : Int)
  | intrinsicGasTooLow (gasLimit required : Int)
  | feeCapTooLow (feeCap : Int)
  | wrongChainId (expected : Int) (actual : Option Int)
  | poisoned (hash : Hex)
  | replacementUnderpriced (minPrice gasPrice : Int)
  | senderLimit (sender : Hex) (limit : Nat)
  | poolFull
  | initcodeTooLarge (size : Nat)
  | alreadyConfirmed
  | nonceTooLow (nonce : Nat) (onchainNonce : Int)
  | insufficientFunds (sender : Hex) (balance cost : Int)
  | stateUnavailable
deriving DecidableEq

def minBaseFee : Int := 1000000000

def maxTxGasLimit : Int := 30000000

def maxInitcodeSize : Nat := 49152

def chainIdText : Option Int → String
  | none => "null"
  | some chainId => toString chainId

def TxError.message : TxError → String
  | .undecodable => "invalid transaction"
  | .missingSender => "invalid tx: missing sender"
  | .blobTransaction => "blob transactions (type 3) are not supported"
  | .gasLimitTooHigh gasLimit => "gasLimit exceeds maximum: " ++ toString gasLimit ++ " > " ++ toString maxTxGasLimit
  | .intrinsicGasTooLow gasLimit required =>
    "intrinsic gas too low: have " ++ toString gasLimit ++ ", want " ++ toString required
  | .feeCapTooLow feeCap =>
    "fee cap below minimum base fee: have " ++ toString feeCap ++ ", want " ++ toString minBaseFee
  | .wrongChainId expected actual =>
    "invalid chain ID: expected " ++ toString expected ++ ", got " ++ chainIdText actual
  | .poisoned hash => "tx " ++ hash ++ " is poisoned (hung block execution previously)"
  | .replacementUnderpriced minPrice gasPrice =>
    "replacement tx gas price too low: need at least " ++ toString minPrice ++ ", got " ++ toString gasPrice
  | .senderLimit sender limit =>
    "sender " ++ sender ++ " exceeds max pending tx limit (" ++ toString limit ++ ")"
  | .poolFull => "mempool is full"
  | .initcodeTooLarge size =>
    "max initcode size exceeded: code size " ++ toString size ++ " limit " ++ toString maxInitcodeSize
  | .alreadyConfirmed => "tx already confirmed"
  | .nonceTooLow nonce onchainNonce =>
    "nonce too low: tx nonce " ++ toString nonce ++ ", on-chain nonce " ++ toString onchainNonce
  | .insufficientFunds sender balance cost =>
    "insufficient funds for gas * price + value: address " ++ sender ++ " have " ++ toString balance ++
      " want " ++ toString cost
  | .stateUnavailable => "state read failed"

def computeIntrinsicGas (tx : Transaction) : Int :=
  let zeros := tx.data.count 0
  let nonzeros := tx.data.length - zeros
  let creation := if tx.recipient.isNone then 32000 else 0
  let words := if tx.recipient.isNone then (tx.data.length + 31) / 32 else 0
  21000 + creation + (zeros * 4 + nonzeros * 16 : Nat) + (words * 2 : Nat)

def validateTxStructure (tx : Transaction) : Except TxError Hex :=
  let gasLimit := tx.gasLimit.getD 21000
  let feeCap := (tx.maxFeePerGas <|> tx.gasPrice).getD 0
  match tx.sender.filter (· ≠ "") with
  | none => .error .missingSender
  | some sender =>
    if tx.type = 3 then .error .blobTransaction
    else if maxTxGasLimit < gasLimit then .error (.gasLimitTooHigh gasLimit)
    else if gasLimit < computeIntrinsicGas tx then .error (.intrinsicGasTooLow gasLimit (computeIntrinsicGas tx))
    else if feeCap < minBaseFee then .error (.feeCapTooLow feeCap)
    else .ok sender

structure Mempool where
  cfg : MempoolConfig
  txs : InsertionMap Hex MempoolTx := .empty
  bySender : InsertionMap Hex (Finset Hex) := .empty
  byNonce : InsertionMap String Hex := .empty
  poisoned : List Hex := []

def nonceKey (sender : Hex) (nonce : Nat) : String := sender ++ ":" ++ toString nonce

def MempoolTx.nonceKey (tx : MempoolTx) : String := TxPool.nonceKey tx.sender tx.nonce

def maxPoisoned : Nat := 10000

namespace Mempool

def create (cfg : MempoolConfig) (hashes : List Hex) : Mempool :=
  { cfg, poisoned := (hashes.map toLowerCase).eraseDups }

def unlistSender (bySender : InsertionMap Hex (Finset Hex)) (sender hash : Hex) : InsertionMap Hex (Finset Hex) :=
  match bySender.get? sender with
  | none => bySender
  | some hashes =>
    if (hashes.erase hash).card = 0 then bySender.delete sender else bySender.set sender (hashes.erase hash)

variable (m : Mempool) (rawTx : Hex) (tx : Transaction) (now : Int) (item : MempoolTx) (hash : Hex)

def removeTx : Mempool :=
  match m.txs.get? hash with
  | none => m
  | some tx =>
    { m with
      txs := m.txs.delete hash
      byNonce := m.byNonce.delete tx.nonceKey
      bySender := unlistSender m.bySender tx.sender hash }

def removeAll (hashes : List Hex) : Mempool := hashes.foldl removeTx m

def addPoisoned (poisoned : List Hex) (hash : Hex) : List Hex :=
  let kept := if maxPoisoned ≤ poisoned.length then poisoned.tail else poisoned
  if toLowerCase hash ∈ kept then kept else kept ++ [toLowerCase hash]

def poison : Mempool :=
  { m with poisoned := addPoisoned m.poisoned hash }.removeTx hash

def isPoisoned : Bool := m.poisoned.contains (toLowerCase hash)

def expired (tx : MempoolTx) : Bool := decide (tx.receivedAtMs < now - m.cfg.txTtlMs)

def evictExpired : Nat × Mempool :=
  let stale := (m.txs.entries.filter fun entry => m.expired now entry.2).map Prod.fst
  (stale.length, m.removeAll stale)

def compareFee (a b : MempoolTx) : Int :=
  if a.gasPrice ≠ b.gasPrice then if a.gasPrice < b.gasPrice then -1 else 1 else a.receivedAtMs - b.receivedAtMs

def cheapest : List Hex :=
  let all := m.txs.entries.map Prod.snd
  let count := min m.cfg.evictionBatchSize all.length
  ((partialSelect all.toArray count compareFee).toList.take count).map MempoolTx.hash

def evictLowestFee : Mempool := m.removeAll m.cheapest

def minPrice (existing : MempoolTx) : Int :=
  -- The bump is rounded up, so that a small price cannot be replaced for free.
  existing.gasPrice + (existing.gasPrice * m.cfg.minGasBump + 99).tdiv 100

def pooledTx (sender : Hex) (now : Int) : MempoolTx where
  hash := tx.hash
  rawTx := rawTx
  sender := toLowerCase sender
  nonce := tx.nonce
  gasPrice := (tx.gasPrice <|> tx.maxFeePerGas).getD 0
  maxFeePerGas := (tx.maxFeePerGas <|> tx.gasPrice).getD 0
  maxPriorityFeePerGas := tx.maxPriorityFeePerGas.getD 0
  gasLimit := tx.gasLimit.getD 21000
  value := tx.value.getD 0
  receivedAtMs := now

def screen : Except TxError MempoolTx :=
  match validateTxStructure tx with
  | .error refused => .error refused
  | .ok sender =>
    if tx.chainId ≠ some m.cfg.chainId then .error (.wrongChainId m.cfg.chainId tx.chainId)
    else if m.isPoisoned tx.hash then .error (.poisoned tx.hash)
    else .ok (pooledTx rawTx tx sender now)

def existing : Option (Hex × MempoolTx) := do
  let existingHash ← (m.byNonce.get? item.nonceKey).filter (· ≠ "")
  let old ← m.txs.get? existingHash
  return (existingHash, old)

def replaceExisting : Except TxError Mempool :=
  match m.existing item with
  | none => .ok m
  | some (existingHash, old) =>
    if item.gasPrice < m.minPrice old then .error (.replacementUnderpriced (m.minPrice old) item.gasPrice)
    else .ok (m.removeTx existingHash)

def senderCount (sender : Hex) : Nat := (m.bySender.get? sender).elim 0 Finset.card

def insert (m : Mempool) (item : MempoolTx) : Mempool :=
  { m with
    txs := m.txs.set item.hash item
    byNonce := m.byNonce.set item.nonceKey item.hash
    bySender := m.bySender.set item.sender (Insert.insert item.hash ((m.bySender.get? item.sender).getD ∅)) }

/-- The capacity check and the insertion; by now a replaced transaction is gone. -/
def place : Except TxError MempoolTx × Mempool :=
  if m.cfg.maxPerSender ≤ m.senderCount item.sender ∧ (m.bySender.get? item.sender).isSome then
    (.error (.senderLimit item.sender m.cfg.maxPerSender), m)
  else if m.cfg.maxSize ≤ m.txs.size then
    if m.cfg.maxSize ≤ m.evictLowestFee.txs.size then (.error .poolFull, m.evictLowestFee)
    else (.ok item, m.evictLowestFee.insert item)
  else (.ok item, m.insert item)

def addTx : Except TxError MempoolTx × Mempool :=
  match m.screen rawTx tx now with
  | .error refused => (.error refused, m)
  | .ok item =>
    match m.replaceExisting item with
    | .error refused => (.error refused, m)
    | .ok m' => m'.place item

def addRawTx (decoder : Decoder) (m : Mempool) (rawTx : Hex) (now : Int) : Except TxError MempoolTx × Mempool :=
  match decoder.decode rawTx with
  | none => (.error .undecodable, m)
  | some tx => m.addTx rawTx tx now

end Mempool

end Palimesh.TxPool
