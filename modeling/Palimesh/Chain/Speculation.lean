import Palimesh.Chain.BlockProgram
import Palimesh.Vm.Coherence

set_option linter.unusedSectionVars false

namespace Palimesh.Chain

open Collections State Protocol Vm Engine EvmChain

variable {ρ τ : Type} [DecidableEq ρ] [DecidableEq τ]

def isRootHex (text : Hex) : Bool :=
  match text.toList with
  | '0' :: 'x' :: digits => digits.length == 64 && digits.all isHexChar
  | _ => false

namespace Engine

def dryRunCall (e : Engine ρ τ) (block : ChainBlock) (i : Nat) (raw : Hex) : TxCall where
  raw := raw
  blockNumber := block.number
  txIndex := i
  blockHash := block.hash
  baseFee := block.baseFee.getD 0
  context := e.blockContext block
  sender := none
  trustBlock := true

def dryRunBlock (lib : Library ρ) (H : Hashes ρ τ) (chain : EvmChain) (e : Engine ρ τ) (block : ChainBlock) :
    Run ρ (List BlockExecutionResult) :=
  blockProgram lib H chain e block (e.dryRunCall block)

def parentMismatch (e : Engine ρ τ) (block : ChainBlock) : Bool :=
  match e.getTip with
  | none => false
  | some tip =>
    toLowerCase block.parentHash != "" && toLowerCase tip.hash != "" &&
      toLowerCase block.parentHash != toLowerCase tip.hash

/-- The speculative root, and the engine afterwards: the live trie is synced, and the fork shares its database.
    `adversarial` is a test hook. -/
def speculativelyComputeStateRoot (base : Platform ρ τ) (lib : Library ρ) (chain : EvmChain) (e : Engine ρ τ)
    (adversarial : Option Hex) (block : ChainBlock) : Option Hex × Engine ρ τ :=
  match adversarial.filter isRootHex with
  | some poison => (some poison, e)
  | none =>
    if e.parentMismatch block then (none, e)
    else
      let flushed := (e.stateTrie.computeStateRoot base.H).2
      match (dryRunBlock lib base.H chain.createDryRunChain e block).run (manager base.H)
          (flushed.forkForDryRun base.H) with
      | (.error _, dryTrie) => (none, { e with stateTrie := { flushed with db := dryTrie.db } })
      | (.ok _, dryTrie) =>
        let computed := dryTrie.computeStateRoot base.H
        (some (base.rootHex computed.1), { e with stateTrie := { flushed with db := computed.2.db } })

end Engine

/-- With the checks on, `runTx` may throw, but it does nothing else than without them. -/
def ChecksOnly (H : Hashes ρ τ) (lib : Library ρ) : Prop :=
  ∀ vm tx block (s s' : PersistentStateTrie ρ τ) result,
    (lib.runTx vm ⟨tx, block, false, false⟩).run (manager H) s = (.ok result, s') →
      (lib.runTx vm ⟨tx, block, true, true⟩).run (manager H) s = (.ok result, s')

variable {base : Platform ρ τ} {lib : Library ρ} {chain : EvmChain} {e : Engine ρ τ} {call : ApplyCall}
  {block : ChainBlock} {locallyProposed : Bool} {s s' : PersistentStateTrie ρ τ} {c : Records ρ}

section

variable (trusts : (block.bftFinalized.getD false || !locallyProposed) = true ∨ ChecksOnly base.H lib)
include trusts

theorem txsProgram_dryRun {txs : List Hex} {i : Nat} {results : List BlockExecutionResult}
    (ran : (txsProgram lib chain (e.txCall call block locallyProposed) i txs).run (manager base.H) s =
      (.ok results, s')) :
    ∃ results', (txsProgram lib chain (e.dryRunCall block) i txs).run (manager base.H) s = (.ok results', s') := by
  induction txs generalizing i s results with
  | nil =>
    cases ran
    exact ⟨[], rfl⟩
  | cons raw txs ih =>
    obtain ⟨result, later, next, first, rest, rfl⟩ := txsProgram_cons_ok ran
    obtain ⟨tx, context, outcome, parsed, decoded, executes, -⟩ := executeRawTxInBlock_executes first
    have dry : Executes base lib chain (e.dryRunCall block i raw) tx context s next outcome := by
      unfold Executes at executes ⊢
      cases trust : (block.bftFinalized.getD false || !locallyProposed) with
      | true =>
        rw [show (e.txCall call block locallyProposed i raw).trustBlock = true from trust] at executes
        exact executes
      | false =>
        rw [show (e.txCall call block locallyProposed i raw).trustBlock = false from trust] at executes
        rw [trust] at trusts
        rcases trusts with trusted | checksOnly
        · cases trusted
        · exact checksOnly _ _ _ _ _ _ executes
    obtain ⟨results', dryRest⟩ := ih rest
    have dryFirst : (executeRawTxInBlock lib chain (e.dryRunCall block i raw)).run (manager base.H) s =
        (.ok (runTxResult (e.dryRunCall block i raw) tx outcome), next) := by
      rw [executeRawTxInBlock_eq (e.dryRunCall block i raw) parsed decoded, Program.run_mapOk, dry]
      rfl
    exact ⟨_, txsProgram_cons dryFirst dryRest⟩

theorem executeBlock_dryRunBlock {total : Int}
    (executed : executeBlock (withVm base lib chain) e call block locallyProposed s = (.ok total, s')) :
    ∃ results, (dryRunBlock lib base.H chain e block).run (manager base.H) s = (.ok results, s') := by
  obtain ⟨results, ran, -⟩ := executeBlock_iff.mp executed
  obtain ⟨opened, done, context, txs, reward⟩ := blockProgram_ok.mp ran
  obtain ⟨results', dry⟩ := txsProgram_dryRun trusts txs
  exact ⟨results', blockProgram_ok.mpr ⟨opened, done, context, dry, reward⟩⟩

end

theorem holds_forkForDryRun {H : Hashes ρ τ} (holds : HoldsRecords H s [c]) : HoldsRecords H (s.forkForDryRun H) [c, c] := by
  have closed : s.trie.frames = [] := by
    have depth := holds.depth
    simp only [List.length_singleton] at depth
    exact List.length_eq_zero_iff.mp (by omega)
  have rep := holds.represents
  rw [closed] at rep
  exact ⟨⟨rep.1, rep.2, rep⟩, fun _ _ => nofun⟩

theorem dryRun_code {H : Hashes ρ τ} (ops : List (ManagerOp ρ)) (dry : s.dryRunMode = true) :
    (ops.foldl (PersistentStateTrie.managerStep H) s).db.code = s.db.code := by
  induction ops generalizing s with
  | nil => rfl
  | cons op ops ih =>
    have step : (s.managerStep H op).db.code = s.db.code ∧ (s.managerStep H op).dryRunMode = true := by
      cases op with
      | state op => exact ⟨(SameCode.step s op).code, (SameCode.step s op).dryRunMode.trans dry⟩
      | computeStateRoot =>
        have synced := SameCode.syncStorageRoots (H := H) s.dirtyAddresses.keys s
        exact ⟨synced.code, synced.dryRunMode.trans dry⟩
      | putCode code =>
        change (s.putCode H code).2.db.code = _ ∧ (s.putCode H code).2.dryRunMode = true
        unfold PersistentStateTrie.putCode
        rw [if_pos dry]
        exact ⟨rfl, dry⟩
    exact (ih step.2).trans step.1

theorem getCode_fork {H : Hashes ρ τ} (s : PersistentStateTrie ρ τ) : (s.forkForDryRun H).getCode = s.db.code := by
  funext hash
  rfl

theorem commitBlock_root {outer outer' : Records ρ} (p : Platform ρ τ) (holds : HoldsRecords p.H s [c, outer, outer'])
    (synced : HoldsRecords.Synced s) : (commitBlock p s).1 = p.H.accounts.hash c := by
  have first := holds.commit_synced synced
  have second := first.commit_synced (HoldsRecords.synced_clean (HoldsRecords.commit_dirty s))
  exact (HoldsRecords.commit_root _).trans second.root

theorem dryRunBlock_congr (H : Hashes ρ τ) (created : chain.Created) (e : Engine ρ τ) (block : ChainBlock) :
    dryRunBlock lib H chain.createDryRunChain e block = dryRunBlock lib H chain e block := by
  have same := createDryRunChain_vm created
  unfold dryRunBlock blockProgram
  rw [applyBlockContext_congr H (common_of_vm same), txsProgram_congr fun _ _ _ => executeRawTxInBlock_congr same _]

theorem speculated_twins {H : Hashes ρ τ} {flushed dryTrie : PersistentStateTrie ρ τ} {α : Type}
    {program : Run ρ α} {result : Except String α} (live : flushed.dryRunMode = false) (holds : HoldsRecords H flushed [c])
    (ran : program.run (manager H) (flushed.forkForDryRun H) = (result, dryTrie)) :
    Twins H [c, c] [c] 0 { flushed with db := dryTrie.db }.checkpoint.checkpoint (flushed.forkForDryRun H) := by
  have fork := holds_forkForDryRun holds
  -- The record the fork keeps below is still readable from the shared database.
  obtain ⟨c', after⟩ := holds_run program fork
  rw [ran] at after
  have stored : CheckpointTrie.Stored ([] : List (CheckpointFrame Hex (AccountState ρ) τ)) dryTrie.db.accounts c := by
    have depth := after.depth
    simp only [List.length_cons, List.length_nil] at depth
    obtain ⟨frame, frames⟩ := List.length_eq_one_iff.mp (show dryTrie.trie.frames.length = 1 by omega)
    have rep := after.represents
    rw [frames] at rep
    exact rep.2.2.2
  have closed : flushed.trie.frames = [] := by
    have depth := holds.depth
    simp only [List.length_singleton] at depth
    exact List.length_eq_zero_iff.mp (by omega)
  have shared : HoldsRecords H { flushed with db := dryTrie.db } [c] := by
    refine ⟨?_, holds.cache⟩
    rw [closed]
    exact ⟨holds.represents.cons.1, stored⟩
  refine ⟨[c], rfl, shared.checkpoint.checkpoint, fork, .of_eq ?_⟩
  have code : dryTrie.db.code = flushed.db.code := by
    have kept := dryRun_code (H := H) (programOps H program (flushed.forkForDryRun H)) (s := flushed.forkForDryRun H) rfl
    rw [programOps_state, ran] at kept
    exact kept
  funext hash
  change (if flushed.dryRunMode && _ then _ else dryTrie.db.code hash) = _
  rw [live, code]
  rfl

section Sample

def contract : Hex := "0x00000000000000000000000000000000000000c1"

def payee : Hex := "0x00000000000000000000000000000000000000b1"

def sampleResult : RunTxResult := ⟨21000, none, [], none, none⟩

def storingTx : Run (Option (FiniteMap Hex Bytes)) RunTxResult :=
  .checkpoint (.ask (.putStorage contract "0x01" [1]) fun _ => .commit (.done (.ok sampleResult)))

def detachingTx : Run (Option (FiniteMap Hex Bytes)) RunTxResult :=
  .ask (.getAccount contract) fun (existing : Option (AccountState (Option (FiniteMap Hex Bytes)))) =>
    .ask (.putAccount contract (existing.map fun account => { account with storageRoot := none })) fun _ =>
      .ask (.getStorage contract "0x01") fun (value : Bytes) =>
        .ask (.putAccount payee (some ⟨0, 1 + value.length, none, zeroHash⟩)) fun _ => .done (.ok sampleResult)

def contractLibrary : Library (Option (FiniteMap Hex Bytes)) where
  hexToBytes _ := .ok [1]
  createTxFromRLP _ raw := .ok (sampleTransaction raw)
  runTx _ opts := if opts.tx.nonce = 0 then storingTx else detachingTx
  runCall _ _ := .done (.error "")

def balancePlatform : Platform (Option (FiniteMap Hex Bytes)) (Records (Option (FiniteMap Hex Bytes))) :=
  { plainPlatform with
    rootHex := fun root => "0x" ++ toString (balanceIn root payee) ++
      if ((root.lookup contract).map AccountState.storageRoot).getD none = none then "-" else "+" }

end Sample

end Palimesh.Chain
