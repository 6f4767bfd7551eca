import Palimesh.Chain.MemoryEngine

namespace Palimesh.Chain

open Collections MemoryEngine

variable {σ : Type}

namespace MemoryEvm

variable (evm : MemoryEvm σ)

inductive Above (s : σ) : σ → Prop
  | opened : Above s (evm.checkpointState s)
  | context (context : ExecutionContext) {t : σ} (above : Above s t) : Above s (evm.applyBlockContext context t).2
  | transaction (call : TxCall) {t : σ} (above : Above s t) : Above s (evm.executeRawTxInBlock call t).2

def Reverts : Prop := ∀ s t, evm.Above s t → evm.revertState t = s

def executedTxs (block : ChainBlock) : Nat → List Hex → σ → List Hex
  | _, [], _ => []
  | i, raw :: rest, s =>
    match evm.executeRawTxInBlock (MemoryEngine.txCall block i raw) s with
    | (.error _, _) => []
    | (.ok result, s) => result.txHash :: executedTxs block (i + 1) rest s

def executedHashes (block : ChainBlock) (s : σ) : List Hex :=
  match evm.applyBlockContext (MemoryEngine.blockContext block) s with
  | (.error _, _) => []
  | (.ok _, s) => evm.executedTxs block 0 block.txs s

end MemoryEvm

namespace MemoryEngine

variable {evm : MemoryEvm σ} {host : Host} {m : MemoryEngine σ} {now : Int} {block : ChainBlock} {locallyProposed : Bool}
  {err : ApplyError} {gathered : Gathered} {s t : σ}

variable (evm block) in
theorem executeTxs_txHashSet (txs : List Hex) (i : Nat) (gathered : Gathered) (s : σ) :
    (executeTxs evm block i txs gathered s).2.1.txHashSet =
      (evm.executedTxs block i txs s).foldl BoundedSet.add gathered.txHashSet := by
  induction txs generalizing i gathered s with
  | nil => rfl
  | cons raw rest ih =>
    rcases executed : evm.executeRawTxInBlock (txCall block i raw) s with ⟨_ | result, s'⟩
    · simp only [executeTxs, MemoryEvm.executedTxs, executed, List.foldl_nil]
    · simp only [executeTxs, MemoryEvm.executedTxs, executed, List.foldl_cons]
      exact ih _ _ _

theorem runBlock_txHashSet (txHashSet : BoundedSet Hex txHashCapacity) (s : σ) :
    (runBlock evm block locallyProposed txHashSet s).2.1.txHashSet =
      (evm.executedHashes block s).foldl BoundedSet.add txHashSet := by
  rcases applied : evm.applyBlockContext (blockContext block) s with ⟨_ | _, s'⟩
  · simp only [runBlock, MemoryEvm.executedHashes, applied, List.foldl_nil]
  · have recorded := executeTxs_txHashSet evm block block.txs 0 ⟨[], 0, txHashSet⟩ s'
    simp only [runBlock, MemoryEvm.executedHashes, applied, ← recorded]
    split <;> simp [*]

variable (block) in
theorem executeTxs_above (txs : List Hex) (i : Nat) (gathered : Gathered) (above : evm.Above s t) :
    evm.Above s (executeTxs evm block i txs gathered t).2.2 := by
  induction txs generalizing i gathered t with
  | nil => exact above
  | cons raw rest ih =>
    have next := above.transaction (txCall block i raw)
    unfold executeTxs
    split
    · rename_i executed
      rw [executed] at next
      exact next
    · rename_i executed
      rw [executed] at next
      exact ih _ _ next

theorem runBlock_above (txHashSet : BoundedSet Hex txHashCapacity) (above : evm.Above s t) :
    evm.Above s (runBlock evm block locallyProposed txHashSet t).2.2 := by
  have next := above.context (blockContext block)
  unfold runBlock
  split
  · rename_i applied
    rw [applied] at next
    exact next
  · rename_i applied
    rw [applied] at next
    have last := executeTxs_above block block.txs 0 ⟨[], 0, txHashSet⟩ next
    split
    · rename_i executed
      rw [executed] at last
      exact last
    · rename_i executed
      rw [executed] at last
      exact last

theorem checkStateRoot_local (s : σ) : checkStateRoot evm block true s = (.ok (), s) := by
  unfold checkStateRoot
  cases truthy block.stateRoot <;> cases evm.commitTrie <;> rfl

theorem stateRootSigFor_local (mode : SignatureMode) (signer : Option NodeSigner) (verifier : Option Verifier)
    (proposerAddr : String) (stateRoot : Option Hex) :
    stateRootSigFor mode signer verifier proposerAddr block true stateRoot ≠ .error err := by
  unfold stateRootSigFor
  cases stateRoot with
  | none => exact nofun
  | some root =>
    dsimp only
    cases signsAs signer block.proposer <;> exact nofun

theorem with_eq_iff {txHashSet : BoundedSet Hex txHashCapacity} :
    { m with state := s, txHashSet := txHashSet } = m ↔ txHashSet = m.txHashSet ∧ s = m.state := by
  obtain ⟨_, _, _, _, _, _, _, _, _, _, _⟩ := m
  simp only [mk.injEq, true_and, and_true]

/-- A call that throws leaves the engine as it was. -/
def ThrowsClean {α : Type} (m : MemoryEngine σ) (outcome : Except ApplyError α × MemoryEngine σ) : Prop :=
  ∀ err, outcome.1 = .error err → outcome.2 = m

theorem throwsClean_ok {α : Type} (value : α) (after : MemoryEngine σ) : m.ThrowsClean (.ok value, after) :=
  fun _ => nofun

theorem throwsClean_error {α : Type} (err : ApplyError) (after : MemoryEngine σ) :
    m.ThrowsClean ((.error err, after) : Except ApplyError α × MemoryEngine σ) ↔ after = m :=
  ⟨fun clean => clean err rfl, fun same _ _ => same⟩

variable (evm host m now block locallyProposed)

def opened : σ := if locallyProposed then m.state else evm.checkpointState m.state

def AddsNothing : Prop :=
  (evm.executedHashes block (m.opened evm locallyProposed)).foldl BoundedSet.add m.txHashSet = m.txHashSet

def stateRootSig : Except ApplyError (Option Hex) :=
  stateRootSigFor m.cfg.sigMode m.nodeSigner m.signatureVerifier (m.resolveValidatorAddress block.proposer) block
    locallyProposed (truthy block.stateRoot)

/-- A valid block that fails in execution executes nothing unconfirmed and, if local, leaves the state; one that
    fails later has no effect that outlives the revert or the commit. -/
def FailsCleanly : Prop :=
  m.applyingBlock = false → m.getBlockByHash block.hash = none → m.validate host now block locallyProposed = .ok () →
    let ran := runBlock evm block locallyProposed m.txHashSet (m.opened evm locallyProposed)
    let rooted := checkStateRoot evm block locallyProposed ran.2.2
    match ran.1, rooted.1, m.stateRootSig block locallyProposed with
    | .error _, _, _ => m.AddsNothing evm block locallyProposed ∧ (locallyProposed = true → ran.2.2 = m.state)
    | .ok _, .error _, _ => m.AddsNothing evm block locallyProposed ∧ evm.revertState rooted.2 = m.state
    | .ok _, .ok _, .error _ => m.AddsNothing evm block locallyProposed ∧ evm.commitState rooted.2 = m.state
    | .ok _, .ok _, .ok _ => True

variable {evm host m now block locallyProposed}

theorem applyBlock_new (idle : m.applyingBlock = false) (fresh : m.getBlockByHash block.hash = none)
    (valid : m.validate host now block locallyProposed = .ok ()) :
    applyBlock evm host m now block locallyProposed =
      match executeBlock evm block locallyProposed m.txHashSet (m.opened evm locallyProposed) with
      | (.error err, gathered, s) => (.error err, { m with
          state := if locallyProposed then s else evm.revertState s
          txHashSet := gathered.txHashSet })
      | (.ok _, gathered, s) => finishBlock evm m block locallyProposed gathered s := by
  unfold applyBlock
  rw [idle, fresh, valid]
  rfl

theorem addsNothing_iff : m.AddsNothing evm block locallyProposed ↔
    (runBlock evm block locallyProposed m.txHashSet (m.opened evm locallyProposed)).2.1.txHashSet = m.txHashSet := by
  rw [runBlock_txHashSet]
  exact Iff.rfl

theorem reverted_iff (reverts : evm.Reverts)
    (ran : runBlock evm block locallyProposed m.txHashSet (m.opened evm locallyProposed) = (.error err, gathered, s)) :
    { m with state := if locallyProposed then s else evm.revertState s, txHashSet := gathered.txHashSet } = m ↔
      m.AddsNothing evm block locallyProposed ∧ (locallyProposed = true → s = m.state) := by
  -- A failure among the transactions: the revert covers remote blocks only.
  rw [with_eq_iff, addsNothing_iff, ran]
  cases locallyProposed with
  | true => simp
  | false =>
    have above : evm.Above m.state (runBlock evm block false m.txHashSet (m.opened evm false)).2.2 :=
      runBlock_above _ .opened
    rw [ran] at above
    have restored := reverts _ _ above
    simp [restored]

theorem throwsClean_unexecuted (unreached : ¬(m.applyingBlock = false ∧ m.getBlockByHash block.hash = none ∧
      m.validate host now block locallyProposed = .ok ())) :
    m.ThrowsClean (applyBlock evm host m now block locallyProposed) := by
  unfold applyBlock
  split
  · exact (throwsClean_error _ m).mpr rfl
  · rename_i notBusy
    have idle : m.applyingBlock = false := by simpa using notBusy
    split
    · exact throwsClean_ok _ _
    · rename_i fresh
      split
      · exact (throwsClean_error _ m).mpr rfl
      · rename_i valid
        exact absurd ⟨idle, fresh, valid⟩ unreached

theorem finishBlock_throwsClean_iff : m.ThrowsClean (finishBlock evm m block locallyProposed gathered s) ↔
    ∀ err, m.stateRootSig block locallyProposed = .error err →
      gathered.txHashSet = m.txHashSet ∧ evm.commitState s = m.state := by
  cases checked : m.stateRootSig block locallyProposed with
  | ok sig =>
    unfold finishBlock
    rw [show stateRootSigFor _ _ _ _ block locallyProposed _ = .ok sig from checked]
    exact ⟨fun _ _ failed => (nomatch failed), fun _ => throwsClean_ok _ _⟩
  | error err =>
    have remote : locallyProposed = false := by
      cases locallyProposed with
      | false => rfl
      | true => exact absurd checked (stateRootSigFor_local _ _ _ _ _)
    unfold finishBlock
    rw [show stateRootSigFor _ _ _ _ block locallyProposed _ = .error err from checked]
    rw [throwsClean_error, with_eq_iff, remote]
    exact ⟨fun same _ _ => same, fun same => same err rfl⟩

theorem applyBlock_throwsClean_iff (reverts : evm.Reverts) :
    m.ThrowsClean (applyBlock evm host m now block locallyProposed) ↔
      m.FailsCleanly evm host now block locallyProposed := by
  by_cases reached : m.applyingBlock = false ∧ m.getBlockByHash block.hash = none ∧
      m.validate host now block locallyProposed = .ok ()
  · obtain ⟨idle, fresh, valid⟩ := reached
    have clean : m.FailsCleanly evm host now block locallyProposed ↔ _ :=
      ⟨fun clean => clean idle fresh valid, fun held _ _ _ => held⟩
    rw [clean, applyBlock_new idle fresh valid, executeBlock]
    rcases ran : runBlock evm block locallyProposed m.txHashSet (m.opened evm locallyProposed) with
      ⟨err | _, gathered, s⟩
    · exact (throwsClean_error err _).trans (reverted_iff reverts ran)
    · rcases rooted : checkStateRoot evm block locallyProposed s with ⟨err | _, s'⟩
      · have remote : locallyProposed = false := by
          cases locallyProposed with
          | false => rfl
          | true =>
            rw [checkStateRoot_local] at rooted
            cases rooted
        dsimp only
        rw [rooted]
        rw [throwsClean_error, with_eq_iff, addsNothing_iff, ran, remote]
        exact Iff.rfl
      · dsimp only
        rw [rooted]
        rw [finishBlock_throwsClean_iff, addsNothing_iff, ran]
        cases m.stateRootSig block locallyProposed with
        | ok _ => exact ⟨fun _ => trivial, fun _ _ => nofun⟩
        | error err => exact ⟨fun same => same err rfl, fun same _ _ => same⟩
  · constructor
    · intro _ idle fresh valid
      exact absurd ⟨idle, fresh, valid⟩ reached
    · intro _
      exact throwsClean_unexecuted reached

end MemoryEngine

section Sample

def countingEvm : MemoryEvm (Nat × List Nat) where
  applyBlockContext _ s := (.ok (), s)
  executeRawTxInBlock call s :=
    if call.raw = "0xbad" then (.error "bad transaction", s)
    else (.ok ⟨"hash of " ++ call.raw, some ⟨"hash of " ++ call.raw, 21000⟩⟩, (s.1 + 1, s.2))
  checkpointState s := (s.1, s.1 :: s.2)
  commitState s := (s.1, s.2.tail)
  revertState s := (s.2.headD s.1, s.2.tail)
  commitTrie := none
  resetExecution _ := (.ok (), (0, []))

theorem countingEvm_saved {s t : Nat × List Nat} (above : countingEvm.Above s t) : t.2 = s.1 :: s.2 := by
  induction above with
  | opened => rfl
  | context _ _ ih => exact ih
  | transaction call above ih =>
    unfold countingEvm
    dsimp only
    split
    · exact ih
    · exact ih

theorem countingEvm_reverts : countingEvm.Reverts := by
  intro s t above
  show (t.2.headD t.1, t.2.tail) = s
  rw [countingEvm_saved above]
  rfl

def countingEngine : MemoryEngine (Nat × List Nat) where
  cfg := sampleEngine.cfg
  blocks := []
  blockByNumber := .empty
  blockByHash := .empty
  receiptsByBlock := .empty
  txHashSet := .empty
  state := (0, [])
  validatorAddressMap := .empty
  nodeSigner := none
  signatureVerifier := some fun _ signature _ => signature == "0xgood"
  applyingBlock := false

def blockOf (txs : List Hex) : ChainBlock :=
  let payload : ChainBlock :=
    { number := 1, hash := "", parentHash := zeroHash, proposer := "node-1", timestampMs := 1000, txs,
      finalized := false, signature := some "0xgood" }
  { payload with hash := hashBlockPayload plainPlatform.host payload }

def forgedRoot : ChainBlock := { blockOf ["0xa1"] with stateRoot := some "0xroot", stateRootSig := some "0xforged" }

end Sample

end Palimesh.Chain
