import Palimesh.Chain.IndexConsistency
import Palimesh.Chain.TxIndex

set_option linter.unusedSectionVars false

namespace Palimesh.Chain

open Collections State Protocol List InsertionMap ChainBlock BlockIndex IndexedEngine TxIndex Engine

namespace BlockIndex

def hashAt (index : BlockIndex) (n : Int) : Option Hex := (index.getBlockByNumber n).map ChainBlock.hash

structure Located (index : BlockIndex) : Prop where
  numbered : ∀ n block, index.getBlockByNumber n = some block → block.number = n
  hashed : ∀ n block, index.getBlockByNumber n = some block → index.byHash.get? block.hash = some n
  tip : ∀ tip ∈ index.latest, index.hashAt tip.number = some tip.hash

structure SameChain (index index' : BlockIndex) : Prop where
  hashes : ∀ n, index'.hashAt n = index.hashAt n
  height : index'.latest.map ChainBlock.number = index.latest.map ChainBlock.number

variable {index : BlockIndex} {block : ChainBlock}

theorem SameChain.refl (index : BlockIndex) : SameChain index index := ⟨fun _ => rfl, rfl⟩

theorem hashAt_updateBlock (index : BlockIndex) (block : ChainBlock) (n : Int) :
    (index.updateBlock block).hashAt n = if n = block.number then some block.hash else index.hashAt n := by
  rw [hashAt, getBlockByNumber_updateBlock]
  split <;> rfl

theorem Located.empty : empty.Located where
  numbered := fun _ _ => nofun
  hashed := fun _ _ => nofun
  tip := fun _ latest => nomatch latest

theorem sameChain_updateBlock (stored : index.hashAt block.number = some block.hash) :
    SameChain index (index.updateBlock block) where
  hashes := by
    intro n
    rw [hashAt_updateBlock]
    split
    · rename_i here
      rw [here, stored]
    · rfl
  height := rfl

variable (located : index.Located)
include located

theorem Located.hashed_updateBlock
    (only : ∀ n other, index.getBlockByNumber n = some other → other.hash = block.hash → n = block.number) :
    ∀ n found, (index.updateBlock block).getBlockByNumber n = some found →
      (index.updateBlock block).byHash.get? found.hash = some n := by
  intro n found row
  change (index.byHash.set block.hash block.number).get? found.hash = some n
  rw [getBlockByNumber_updateBlock] at row
  rw [get?_set]
  split at row
  · rename_i here
    cases row
    rw [if_pos rfl, here]
  · rename_i elsewhere
    rw [if_neg fun same => elsewhere (only n found row same)]
    exact located.hashed n found row

theorem Located.putBlock (fresh : index.getBlockByHash block.hash = none) : (index.putBlock block).Located where
  numbered := numbered_updateBlock located.numbered
  hashed := by
    apply located.hashed_updateBlock
    intro n other stored same
    rw [getBlockByHash, ← same, located.hashed n other stored, Option.bind_some, stored] at fresh
    cases fresh
  tip := by
    intro tip latest
    cases latest
    exact (hashAt_updateBlock index block block.number).trans (if_pos rfl)

theorem Located.updateBlock (stored : index.hashAt block.number = some block.hash) :
    (index.updateBlock block).Located where
  numbered := numbered_updateBlock located.numbered
  hashed := by
    apply located.hashed_updateBlock
    intro n other found same
    obtain ⟨row, held, hash⟩ := Option.map_eq_some_iff.mp stored
    have here := located.hashed _ row held
    have there := located.hashed n other found
    rw [hash] at here
    rw [same, here] at there
    exact (Option.some.inj there).symm
  tip := by
    intro tip latest
    rw [(sameChain_updateBlock stored).hashes]
    exact located.tip tip latest

theorem Located.retarget {target : ChainBlock} (stored : index.hashAt target.number = some target.hash)
    : { index with latest := some target }.Located := { located with
  tip := by
    intro tip latest
    cases latest
    exact stored }

theorem Located.dropBlocks {keepHeight : Int} (below : ∀ tip ∈ index.latest, tip.number ≤ keepHeight)
    : (index.pruneStaleBlocksAfterTip keepHeight).2.Located ∧
      ∀ n ≤ keepHeight, (index.pruneStaleBlocksAfterTip keepHeight).2.hashAt n = index.hashAt n := by
  have kept : ∀ n ≤ keepHeight, (index.pruneStaleBlocksAfterTip keepHeight).2.hashAt n = index.hashAt n := by
    intro n small
    cases stored : index.getBlockByNumber n with
    | some block =>
      have same : (index.pruneStaleBlocksAfterTip keepHeight).2.getBlockByNumber n = some block :=
        kept_row stored (by simpa using small)
      rw [hashAt, hashAt, same, stored]
    | none =>
      cases found : (index.pruneStaleBlocksAfterTip keepHeight).2.getBlockByNumber n with
      | none => rw [hashAt, hashAt, found, stored]
      | some block =>
        have was := getBlockByNumber_dropBlocks found
        rw [stored] at was
        cases was
  refine ⟨⟨?_, ?_, ?_⟩, kept⟩
  · intro n block row
    exact located.numbered n block (getBlockByNumber_dropBlocks row)
  · intro n block row
    have stored := getBlockByNumber_dropBlocks row
    change (index.byHash.filterKeys _).get? block.hash = some n
    rw [get?_filterKeys, located.hashed n block stored, if_pos]
    -- Another block of this hash would be found under the same height.
    rw [Bool.or_eq_true, Bool.not_eq_true', any_eq_false]
    refine .inr fun dropped member same => ?_
    obtain ⟨held, stale⟩ := List.mem_filter.mp member
    have rows : index.getBlockByNumber dropped.1 = some dropped.2 := get?_eq_of_mem held
    have hash := located.hashed _ _ rows
    rw [beq_iff_eq.mp same, located.hashed n block stored] at hash
    change (index.byNumber.filterKeys _).get? n = some block at row
    rw [get?_filterKeys] at row
    split at row
    · rename_i survives
      rw [Bool.not_eq_true', any_eq_false] at survives
      exact survives dropped member (by rw [beq_iff_eq]; exact (Option.some.inj hash).symm)
    · cases row
  · intro tip latest
    rw [kept tip.number (below tip latest)]
    exact located.tip tip latest

end BlockIndex

namespace TxIndex

variable {index : TxIndex} {block : ChainBlock} {executed : List IndexedTx}

theorem txs_foldl {hash : Hex} {tx : TxWithReceipt}
    (row : (executed.foldl (fun index t => index.putTransaction t.txHash (t.row block)) index).txs.get? hash = some tx) :
    (∃ t ∈ executed, tx = t.row block) ∨ (index.txs.get? hash = some tx ∧ hash ∉ executed.map IndexedTx.txHash) := by
  induction executed generalizing index with
  | nil => exact .inr ⟨row, not_mem_nil⟩
  | cons first rest ih =>
    rcases ih row with ⟨t, member, same⟩ | ⟨before, absent⟩
    · exact .inl ⟨t, mem_cons_of_mem _ member, same⟩
    · change (index.txs.set first.txHash (first.row block)).get? hash = some tx at before
      rw [get?_set] at before
      split at before
      · exact .inl ⟨first, mem_cons_self, (Option.some.inj before).symm⟩
      · rename_i other
        refine .inr ⟨before, fun member => ?_⟩
        rcases List.mem_cons.mp member with here | later
        · exact other here
        · exact absent later

theorem logs_foldl (executed : List IndexedTx) (index : TxIndex) :
    (executed.foldl (fun index t => index.putTransaction t.txHash (t.row block)) index).logs = index.logs := by
  induction executed generalizing index with
  | nil => rfl
  | cons first rest ih => exact ih _

theorem txs_putLogs (index : TxIndex) (n : Int) (logs : List IndexedLog) : (index.putLogs n logs).txs = index.txs := by
  unfold putLogs
  split <;> rfl

theorem logs_putBlockRows {n : Int} {logs : List IndexedLog}
    (row : (index.putBlockRows block executed).logs.get? n = some logs) :
    (n = block.number ∧ logs = executed.flatMap fun tx => tx.indexedLogs block) ∨
      (index.logs.get? n = some logs ∧ (n = block.number → executed.flatMap (fun tx => tx.indexedLogs block) = [])) := by
  unfold putBlockRows putLogs at row
  split at row
  · rename_i none
    rw [logs_foldl] at row
    exact .inr ⟨row, fun _ => none⟩
  · rw [get?_set, logs_foldl] at row
    split at row
    · rename_i here
      exact .inl ⟨here, (Option.some.inj row).symm⟩
    · rename_i other
      exact .inr ⟨row, fun here => absurd here other⟩

theorem mem_getLogs {latest : Option ChainBlock} {filter : LogFilter} {log : IndexedLog}
    (member : log ∈ index.getLogs latest filter) : ∃ n logs, index.logs.get? n = some logs ∧ log ∈ logs ∧
      n ≤ filter.toBlock.getD ((latest.map number).getD 0) := by
  simp only [getLogs] at member
  split at member
  · cases member
  · obtain ⟨n, height, inRow⟩ := List.mem_flatMap.mp (mem_of_mem_take member)
    obtain ⟨i, inside, rfl⟩ := List.mem_map.mp height
    rw [mem_range] at inside
    have present := mem_of_mem_filter inRow
    cases found : index.logs.get? (filter.fromBlock.getD 0 + i) with
    | none =>
      rw [found] at present
      cases present
    | some logs =>
      rw [found] at present
      refine ⟨_, logs, found, present, ?_⟩
      split at inside <;> omega

end TxIndex

variable {ρ τ : Type} [DecidableEq ρ] [DecidableEq τ] {p : Platform ρ τ}

namespace Engine

variable {e : Engine ρ τ} {call : ApplyCall} {block : ChainBlock} {locallyProposed : Bool}

theorem getHeight_congr {e' : Engine ρ τ} (same : e.blockIndex.SameChain e'.blockIndex) : e'.getHeight = e.getHeight := by
  unfold getHeight getTip getLatestBlock
  rw [same.height]

theorem updateFinalityFlags_located (fails : Option String) (located : e.blockIndex.Located) :
    (e.updateFinalityFlags fails).2.blockIndex.Located ∧
      e.blockIndex.SameChain (e.updateFinalityFlags fails).2.blockIndex := by
  unfold updateFinalityFlags
  split
  · exact ⟨located, .refl _⟩
  · rename_i block final
    split
    · exact ⟨located, .refl _⟩
    · have stored := newlyFinal_some final
      have held : e.blockIndex.hashAt block.number = some block.hash := by
        rw [hashAt, located.numbered _ block stored, stored]
        rfl
      have flagged : e.blockIndex.hashAt ({ block with finalized := true } : ChainBlock).number =
          some ({ block with finalized := true } : ChainBlock).hash := held
      exact ⟨located.updateBlock flagged, sameChain_updateBlock flagged⟩

theorem applyDuplicate_located (call : ApplyCall) (locallyProposed : Bool) {existing : ChainBlock}
    (located : e.blockIndex.Located) (found : e.blockIndex.getBlockByHash block.hash = some existing) :
    (e.applyDuplicate call existing block locallyProposed).2.blockIndex.Located ∧
      e.blockIndex.SameChain (e.applyDuplicate call existing block locallyProposed).2.blockIndex := by
  obtain ⟨num, _, stored⟩ := Option.bind_eq_some_iff.mp found
  obtain rfl := located.numbered num existing stored
  have held : e.blockIndex.hashAt ({ existing with bftFinalized := some true } : ChainBlock).number =
      some ({ existing with bftFinalized := some true } : ChainBlock).hash := by
    rw [hashAt, stored]
    rfl
  have written := located.updateBlock held
  have same := sameChain_updateBlock held
  unfold applyDuplicate
  split
  · split
    · exact ⟨located, .refl _⟩
    · dsimp only
      split
      · rename_i isTip
        obtain ⟨tip, latest, hash⟩ := Option.map_eq_some_iff.mp isTip
        -- The tip's height and the duplicate's are both where its hash is found.
        obtain ⟨row, tipRow, rowHash⟩ := Option.map_eq_some_iff.mp (located.tip tip latest)
        have atTip := located.hashed _ row tipRow
        rw [rowHash, hash] at atTip
        have height : existing.number = tip.number :=
          Option.some.inj ((located.hashed _ existing stored).symm.trans atTip)
        refine ⟨written.retarget ((same.hashes _).trans held), same.hashes, ?_⟩
        · rw [show e.blockIndex.latest = some tip from latest, Option.map_some, ← height]
          rfl
      · exact ⟨written, same⟩
  · exact ⟨located, .refl _⟩

inductive ChainStep (e : Engine ρ τ) (block : ChainBlock) : Option ChainBlock → Engine ρ τ → Prop
  | kept {e' : Engine ρ τ} (same : e.blockIndex.SameChain e'.blockIndex) : ChainStep e block none e'
  | extended {e' : Engine ρ τ} {stored : ChainBlock} (next : block.number = e.getHeight + 1)
      (height : e'.getHeight = block.number)
      (hashes : ∀ n, e'.blockIndex.hashAt n = if n = block.number then some block.hash else e.blockIndex.hashAt n) :
      ChainStep e block (some stored) e'

theorem applyBlock_chainStep (located : e.blockIndex.Located) :
    (applyBlock p e call block locallyProposed).2.blockIndex.Located ∧
      ChainStep e block (e.storedBlock p call block locallyProposed)
        (applyBlock p e call block locallyProposed).2 := by
  have applied := applyBlock_applied p e call block locallyProposed
  generalize applyBlock p e call block locallyProposed = outcome at applied ⊢
  cases applied with
  | reentrant busy =>
    rw [storedBlock, if_pos (.inl busy)]
    exact ⟨located, .kept (.refl _)⟩
  | duplicate idle found =>
    rw [storedBlock, if_pos (.inr (by rw [found]; rfl))]
    obtain ⟨after, same⟩ := applyDuplicate_located call locallyProposed located found
    exact ⟨after, .kept same⟩
  | rejected idle fresh invalid =>
    rw [storedBlock, if_neg (by simp [idle, fresh]), invalid]
    exact ⟨located, .kept (.refl _)⟩
  | failed idle fresh valid executed =>
    rw [storedBlock, if_neg (by simp [idle, fresh]), valid]
    simp only [executed]
    exact ⟨located, .kept (.refl _)⟩
  | finished idle fresh valid executed =>
    rw [storedBlock, if_neg (by simp [idle, fresh]), valid]
    simp only [executed, finishBlock]
    cases sealed : e.sealBlock block locallyProposed _ _ with
    | error err => exact ⟨located, .kept (.refl _)⟩
    | ok stored =>
      obtain ⟨number, hash⟩ := sealBlock_keeps sealed
      cases fails : call.batchFails with
      | some message => exact ⟨located, .kept (.refl _)⟩
      | none =>
        have written : (e.blockIndex.putBlock stored).Located := located.putBlock (by rw [hash]; exact fresh)
        obtain ⟨after, same⟩ := updateFinalityFlags_located
          (e := { e with stateTrie := (commitBlock p _).2, blockIndex := e.blockIndex.putBlock stored })
          call.finalityFails written
        refine ⟨after, .extended (validateBlockLink_number (validate_link valid)) ?_ fun n => ?_⟩
        · rw [getHeight_congr same]
          exact number
        · rw [same.hashes n]
          refine (hashAt_updateBlock e.blockIndex stored n).trans ?_
          rw [number, hash]

def applyNext (p : Platform ρ τ) (e : Engine ρ τ) (next : ApplyCall × ChainBlock × Bool) : Engine ρ τ :=
  (applyBlock p e next.1 next.2.1 next.2.2).2

structure Grows (base e : Engine ρ τ) : Prop where
  located : e.blockIndex.Located
  nonneg : 0 ≤ e.getHeight
  heights : ∀ n, (e.blockIndex.hashAt n).isSome ↔ 1 ≤ n ∧ n ≤ e.getHeight
  kept : ∀ n hash, base.blockIndex.hashAt n = some hash → e.blockIndex.hashAt n = some hash

theorem Grows.step {base : Engine ρ τ} (grown : Grows base e) :
    Grows base (applyBlock p e call block locallyProposed).2 := by
  obtain ⟨located, step⟩ : _ ∧ ChainStep e block (e.storedBlock p call block locallyProposed) _ :=
    applyBlock_chainStep grown.located
  generalize (applyBlock p e call block locallyProposed).2 = e' at located step ⊢
  generalize e.storedBlock p call block locallyProposed = stored at step
  have nonneg := grown.nonneg
  cases step with
  | kept same =>
    have height := getHeight_congr same
    refine ⟨located, height ▸ nonneg, fun n => ?_, fun n hash held => (same.hashes n).trans (grown.kept n hash held)⟩
    rw [same.hashes, height]
    exact grown.heights n
  | extended above height hashes =>
    refine ⟨located, by omega, fun n => ?_, fun n hash held => ?_⟩
    · rw [hashes, height]
      split
      · exact iff_of_true rfl (by omega)
      · rw [grown.heights]
        omega
    · have low := (grown.heights n).mp (Option.isSome_of_mem (grown.kept n hash held))
      rw [hashes, if_neg (by omega)]
      exact grown.kept n hash held

theorem Grows.run {base : Engine ρ τ} (grown : Grows base e) (blocks : List (ApplyCall × ChainBlock × Bool)) :
    Grows base (blocks.foldl (applyNext p) e) := by
  induction blocks generalizing e with
  | nil => exact grown
  | cons next blocks ih => exact ih grown.step

end Engine

/-- No height is skipped, and each keeps its block. -/
theorem chain_append_only (p : Platform ρ τ) (e : Engine ρ τ) (blocks later : List (ApplyCall × ChainBlock × Bool)) :
    let chain := blocks.foldl (applyNext p) { e with blockIndex := .empty }
    Grows chain (later.foldl (applyNext p) chain) := by
  have start : Grows { e with blockIndex := .empty } { e with blockIndex := .empty } := by
    refine ⟨.empty, le_rfl, fun n => iff_of_false Bool.false_ne_true fun ⟨low, high⟩ => ?_, fun _ _ held => held⟩
    cases low.trans high
  exact Grows.run { start.run blocks with kept := fun _ _ held => held } later

/-- The operations on the store; whatever else the node does leaves the database's rows alone. -/
inductive StoreOp (ρ τ : Type)
  | applyBlock (call : ApplyCall) (block : ChainBlock) (locallyProposed : Bool)
  | demoteLatestTo (targetHeight : Int)
  | pruneStaleBlocksAfterTip (keepHeight : Int)
  | elsewhere (changed : Engine ρ τ)

namespace IndexedEngine

variable (p : Platform ρ τ) (outcomeOf : TxCall → PersistentStateTrie ρ τ → TxOutcome) (x : IndexedEngine ρ τ)

def storeStep : StoreOp ρ τ → IndexedEngine ρ τ
  | .applyBlock call block locallyProposed => (x.applyBlock p outcomeOf call block locallyProposed).2
  | .demoteLatestTo targetHeight =>
    { x with engine := { x.engine with blockIndex := (x.engine.blockIndex.demoteLatestTo targetHeight).2 } }
  | .pruneStaleBlocksAfterTip keepHeight =>
    { x with engine := { x.engine with blockIndex := (x.engine.blockIndex.pruneStaleBlocksAfterTip keepHeight).2 } }
  | .elsewhere changed => { x with engine := { changed with blockIndex := x.engine.blockIndex } }

/-- A height is left only downwards, only rows above the tip are pruned, and a block that is written
    over rows of its height replaces all of them. -/
def ReplacesRows : StoreOp ρ τ → Prop
  | .applyBlock call block locallyProposed =>
    (x.engine.storedBlock p call block locallyProposed).isSome = true →
      ((x.index.logs.get? block.number).isSome = true →
        (x.engine.blockTxs p outcomeOf call block locallyProposed).flatMap (fun tx => tx.indexedLogs block) ≠ []) ∧
      ∀ row ∈ x.index.txs.entries, row.2.receipt.blockNumber = block.number →
        row.1 ∈ (x.engine.blockTxs p outcomeOf call block locallyProposed).map IndexedTx.txHash
  | .demoteLatestTo targetHeight => targetHeight ≤ x.engine.getHeight
  | .pruneStaleBlocksAfterTip keepHeight => x.engine.getHeight ≤ keepHeight
  | .elsewhere _ => True

/-- No transaction is above a height the tip is moved to, and only rows above the tip are pruned. -/
def DemotesEmpty : StoreOp ρ τ → Prop
  | .demoteLatestTo targetHeight => ∀ row ∈ x.index.txs.entries, row.2.receipt.blockNumber ≤ targetHeight
  | .pruneStaleBlocksAfterTip keepHeight => x.engine.getHeight ≤ keepHeight
  | .applyBlock _ _ _ | .elsewhere _ => True

def Canonical (height : Int) (hash : Hex) : Prop :=
  height ≤ x.engine.getHeight ∧ ∃ block, x.engine.blockIndex.getBlockByNumber height = some block ∧ block.hash = hash

structure RowsCanonical : Prop where
  located : x.engine.blockIndex.Located
  logs : ∀ n logs, x.index.logs.get? n = some logs → ∀ log ∈ logs, log.blockNumber = n ∧
    (n ≤ x.engine.getHeight → x.engine.blockIndex.hashAt n = some log.blockHash)
  txs : ∀ hash tx, x.index.txs.get? hash = some tx → tx.receipt.blockNumber ≤ x.engine.getHeight →
    x.engine.blockIndex.hashAt tx.receipt.blockNumber = some tx.receipt.blockHash

structure TxsCanonical : Prop where
  located : x.engine.blockIndex.Located
  txs : ∀ hash tx, x.index.txs.get? hash = some tx → tx.receipt.blockNumber ≤ x.engine.getHeight ∧
    x.engine.blockIndex.hashAt tx.receipt.blockNumber = some tx.receipt.blockHash

variable {p outcomeOf x}

theorem canonical_of_hashAt {n : Int} {hash : Hex} (below : n ≤ x.engine.getHeight)
    (held : x.engine.blockIndex.hashAt n = some hash) : x.Canonical n hash :=
  ⟨below, Option.map_eq_some_iff.mp held⟩

theorem demoteLatestTo_located (located : x.engine.blockIndex.Located) (targetHeight : Int) :
    let e := { x.engine with blockIndex := (x.engine.blockIndex.demoteLatestTo targetHeight).2 }
    e.blockIndex.Located ∧ (∀ n, e.blockIndex.hashAt n = x.engine.blockIndex.hashAt n) ∧
      (e.getHeight = x.engine.getHeight ∨ e.getHeight = targetHeight) := by
  unfold demoteLatestTo
  split
  · exact ⟨located, fun _ => rfl, .inl rfl⟩
  · rename_i target stored
    have number := located.numbered targetHeight target stored
    refine ⟨located.retarget ?_, fun _ => rfl, .inr number⟩
    rw [number, hashAt, stored]
    rfl

theorem getHeight_of_latest {e : Engine ρ τ} {target : ChainBlock} (latest : e.blockIndex.latest = some target) :
    e.getHeight = target.number := by
  unfold getHeight getTip getLatestBlock
  rw [latest]
  rfl

theorem below_of_height {keepHeight : Int} (below : x.engine.getHeight ≤ keepHeight) :
    ∀ tip ∈ x.engine.blockIndex.latest, tip.number ≤ keepHeight := by
  intro tip latest
  rw [getHeight_of_latest latest] at below
  exact below

theorem RowsCanonical.rechained (canonical : x.RowsCanonical) {e : Engine ρ τ} (located : e.blockIndex.Located)
    (lower : e.getHeight ≤ x.engine.getHeight)
    (hashes : ∀ n ≤ e.getHeight, e.blockIndex.hashAt n = x.engine.blockIndex.hashAt n) :
    RowsCanonical { x with engine := e } where
  located := located
  logs := by
    intro n logs row log member
    obtain ⟨number, held⟩ := canonical.logs n logs row log member
    exact ⟨number, fun below => (hashes n below).trans (held (below.trans lower))⟩
  txs := fun hash tx row below => (hashes _ below).trans (canonical.txs hash tx row (below.trans lower))

theorem RowsCanonical.storeStep (canonical : x.RowsCanonical) (op : StoreOp ρ τ)
    (replaces : x.ReplacesRows p outcomeOf op) : (x.storeStep p outcomeOf op).RowsCanonical := by
  cases op with
  | applyBlock call block locallyProposed =>
    obtain ⟨located, step⟩ := applyBlock_chainStep (p := p) (e := x.engine) canonical.located
    simp only [IndexedEngine.storeStep, applyBlock]
    have replaced := replaces
    simp only [ReplacesRows] at replaced
    generalize x.engine.storedBlock p call block locallyProposed = stored at step replaced
    cases step with
    | kept same => exact canonical.rechained located (getHeight_congr same).le fun n _ => same.hashes n
    | extended next height hashes =>
      obtain ⟨logsReplaced, txsReplaced⟩ := replaced rfl
      refine ⟨located, ?_, ?_⟩
      · intro n logs row log member
        rcases logs_putBlockRows row with ⟨here, rfl⟩ | ⟨old, none⟩
        · obtain ⟨tx, -, inTx⟩ := List.mem_flatMap.mp member
          obtain ⟨entry, -, rfl⟩ := List.mem_map.mp inTx
          refine ⟨here.symm, fun _ => ?_⟩
          rw [hashes, if_pos here]
        · obtain ⟨number, held⟩ := canonical.logs n logs old log member
          refine ⟨number, fun below => ?_⟩
          have other : n ≠ block.number := by
            rintro rfl
            exact logsReplaced (by rw [old]; rfl) (none rfl)
          rw [height] at below
          rw [hashes, if_neg other]
          exact held (by omega)
      · intro hash tx row below
        change (putLogs _ _ _).txs.get? hash = some tx at row
        rw [txs_putLogs] at row
        rw [hashes]
        rcases txs_foldl row with ⟨t, _, rfl⟩ | ⟨old, absent⟩
        · exact if_pos rfl
        · have other : tx.receipt.blockNumber ≠ block.number := fun here =>
            absent (txsReplaced (hash, tx) ((mem_entries _ _ _).mpr old) here)
          rw [height] at below
          rw [if_neg other]
          exact canonical.txs hash tx old (by omega)
  | demoteLatestTo targetHeight =>
    obtain ⟨located, hashes, moved⟩ := demoteLatestTo_located canonical.located targetHeight
    refine canonical.rechained located ?_ fun n _ => hashes n
    rcases moved with same | moved
    · exact same.le
    · exact moved.le.trans replaces
  | pruneStaleBlocksAfterTip keepHeight =>
    obtain ⟨located, hashes⟩ := canonical.located.dropBlocks (below_of_height replaces)
    exact canonical.rechained located le_rfl fun n below => hashes n (below.trans replaces)
  | elsewhere changed => exact { canonical with }

theorem TxsCanonical.storeStep (canonical : x.TxsCanonical) (op : StoreOp ρ τ) (demotes : x.DemotesEmpty op) :
    (x.storeStep p outcomeOf op).TxsCanonical := by
  cases op with
  | applyBlock call block locallyProposed =>
    obtain ⟨located, step⟩ := applyBlock_chainStep (p := p) (e := x.engine) canonical.located
    simp only [IndexedEngine.storeStep, applyBlock]
    generalize x.engine.storedBlock p call block locallyProposed = stored at step
    refine ⟨located, ?_⟩
    intro hash tx row
    cases step with
    | kept same =>
      rw [getHeight_congr same, same.hashes]
      exact canonical.txs hash tx row
    | extended next height hashes =>
      change (putLogs _ _ _).txs.get? hash = some tx at row
      rw [txs_putLogs] at row
      rw [height, hashes]
      rcases txs_foldl row with ⟨t, _, rfl⟩ | ⟨old, _⟩
      · exact ⟨le_rfl, if_pos rfl⟩
      · obtain ⟨below, held⟩ := canonical.txs hash tx old
        rw [if_neg (by omega)]
        exact ⟨by omega, held⟩
  | demoteLatestTo targetHeight =>
    obtain ⟨located, hashes, moved⟩ := demoteLatestTo_located canonical.located targetHeight
    refine ⟨located, ?_⟩
    intro hash tx row
    obtain ⟨below, held⟩ := canonical.txs hash tx row
    refine ⟨?_, (hashes _).trans held⟩
    rcases moved with same | moved
    · exact below.trans same.ge
    · exact (demotes (hash, tx) ((mem_entries _ _ _).mpr row)).trans moved.ge
  | pruneStaleBlocksAfterTip keepHeight =>
    obtain ⟨located, hashes⟩ := canonical.located.dropBlocks (below_of_height demotes)
    refine ⟨located, ?_⟩
    intro hash tx row
    obtain ⟨below, held⟩ := canonical.txs hash tx row
    exact ⟨below, (hashes _ (below.trans demotes)).trans held⟩
  | elsewhere changed => exact ⟨canonical.located, canonical.txs⟩

end IndexedEngine

/-- Logs and receipts up to the tip are of the stored blocks under `ReplacesRows`, the lists of an address under
    `DemotesEmpty`. -/
theorem canonical_reads (p : Platform ρ τ)
    (outcomeOf : TxCall → PersistentStateTrie ρ τ → TxOutcome) (start : IndexedEngine ρ τ)
    (blocks : start.engine.blockIndex = .empty) (rows : start.index = .empty) (x : IndexedEngine ρ τ) :
    (Reaches (IndexedEngine.ReplacesRows p outcomeOf) (IndexedEngine.storeStep p outcomeOf) start x →
      (∀ filter, (∀ last ∈ filter.toBlock, last ≤ x.engine.getHeight) → ∀ log ∈ x.getLogs filter,
        x.Canonical log.blockNumber log.blockHash) ∧
      ∀ hash tx, x.index.getTransactionByHash hash = some tx → tx.receipt.blockNumber ≤ x.engine.getHeight →
        x.Canonical tx.receipt.blockNumber tx.receipt.blockHash) ∧
    (Reaches IndexedEngine.DemotesEmpty (IndexedEngine.storeStep p outcomeOf) start x →
      ∀ address opts, ∀ tx ∈ x.index.getTransactionsByAddress address opts,
        x.Canonical tx.receipt.blockNumber tx.receipt.blockHash) := by
  have located : start.engine.blockIndex.Located := blocks ▸ .empty
  constructor
  · intro reached
    have canonical : x.RowsCanonical := by
      refine reached.invariant _ ⟨located, ?_, ?_⟩ fun _ op held replaces => held.storeStep op replaces
      · rw [rows]
        exact fun _ _ => nofun
      · rw [rows]
        exact fun _ _ => nofun
    refine ⟨fun filter bounded log member => ?_, fun hash tx row below => ?_⟩
    · obtain ⟨n, logs, row, inRow, last⟩ := mem_getLogs member
      obtain ⟨rfl, held⟩ := canonical.logs n logs row log inRow
      have below : log.blockNumber ≤ x.engine.getHeight := by
        cases limit : filter.toBlock with
        | none =>
          rw [limit] at last
          exact last
        | some stop =>
          rw [limit] at last
          exact le_trans last (bounded stop limit)
      exact canonical_of_hashAt below (held below)
    · exact canonical_of_hashAt below (canonical.txs hash tx row below)
  · intro reached address opts tx member
    have canonical : x.TxsCanonical := by
      refine reached.invariant _ ⟨located, ?_⟩ fun _ op held demotes => held.storeStep op demotes
      rw [rows]
      exact fun _ _ => nofun
    obtain ⟨_, -, found⟩ := List.mem_filterMap.mp member
    obtain ⟨hash, -, row⟩ := Option.bind_eq_some_iff.mp found
    obtain ⟨below, held⟩ := canonical.txs hash tx row
    exact canonical_of_hashAt below held

section Sample

instance (p : Platform ρ τ) (outcomeOf : TxCall → PersistentStateTrie ρ τ → TxOutcome) (x : IndexedEngine ρ τ)
    (op : StoreOp ρ τ) : Decidable (x.ReplacesRows p outcomeOf op) := by
  unfold ReplacesRows
  split <;> infer_instance

def loggingOutcome (call : TxCall) : TxOutcome where
  sender := some "0xA1"
  recipient := some "0xb2"
  transactionHash := call.raw
  gasUsed := 21000
  status := none
  logs := [⟨"0xb2", ["0xfeed"], "0x"⟩]

def txBlock (number : Int) (parentHash : Hex) (proposer : String) (timestampMs : Int) (txs : List Hex) : ChainBlock :=
  let payload : ChainBlock := { number, hash := "", parentHash, proposer, timestampMs, txs, finalized := false }
  { payload with hash := hashBlockPayload plainPlatform.host payload }

def payingBlock (timestampMs : Int) : ChainBlock := txBlock 2 firstBlock.hash "node-2" timestampMs ["0xaa"]

abbrev SampleOp := StoreOp (Option (FiniteMap Hex Bytes)) (FiniteMap Hex (AccountState (Option (FiniteMap Hex Bytes))))

def sampleStore : IndexedEngine (Option (FiniteMap Hex Bytes))
    (FiniteMap Hex (AccountState (Option (FiniteMap Hex Bytes)))) := ⟨sampleEngine, .empty⟩

def replacedBlock : List SampleOp :=
  [.applyBlock sampleCall firstBlock true, .applyBlock sampleCall (payingBlock 2000) true, .demoteLatestTo 1,
    .pruneStaleBlocksAfterTip 1, .applyBlock sampleCall (payingBlock 3000) true]

theorem replacedBlock_canonical :
    let x := replacedBlock.foldl (IndexedEngine.storeStep plainPlatform fun call _ => loggingOutcome call) sampleStore
    (x.getLogs {}).map IndexedLog.blockHash = [(payingBlock 3000).hash] ∧
      ∀ log ∈ x.getLogs {}, x.Canonical log.blockNumber log.blockHash := by
  refine ⟨by decide +kernel, ?_⟩
  exact ((canonical_reads plainPlatform (fun call _ => loggingOutcome call) sampleStore rfl rfl _).1
    (Reaches.start.run (by decide +kernel : Admitted _ _ _ replacedBlock))).1 {} fun _ => nofun

def emptiedBlock : List SampleOp :=
  [.applyBlock sampleCall firstBlock true, .applyBlock sampleCall (payingBlock 2000) true, .demoteLatestTo 1,
    .pruneStaleBlocksAfterTip 1, .applyBlock sampleCall lateSecondBlock true]

theorem emptiedBlock_keeps_rows :
    ∃ x, Reaches (fun _ _ => True) (IndexedEngine.storeStep plainPlatform fun call _ => loggingOutcome call) sampleStore x ∧
      x.engine.getHeight = 2 ∧ x.engine.blockIndex.hashAt 2 = some lateSecondBlock.hash ∧
      (x.getLogs {}).map (fun log => (log.blockNumber, log.blockHash)) = [(2, (payingBlock 2000).hash)] ∧
      (x.index.getTransactionByHash "0xaa").map (fun tx => (tx.receipt.blockNumber, tx.receipt.blockHash)) =
        some (2, (payingBlock 2000).hash) ∧
      (x.index.getTransactionsByAddress "0xa1" {}).map (fun tx => tx.receipt.blockHash) = [(payingBlock 2000).hash] ∧
      (payingBlock 2000).hash ≠ lateSecondBlock.hash :=
  ⟨_, Reaches.start.run (by decide +kernel : Admitted (fun _ _ => True) _ _ emptiedBlock), by decide +kernel⟩

end Sample

end Palimesh.Chain
