import Palimesh.Vm.EvmChain

set_option linter.unusedSectionVars false

namespace Palimesh.Chain

open Collections State Protocol Vm List EvmChain Program

variable {ρ τ : Type} [DecidableEq ρ] [DecidableEq τ]

namespace Engine

section

variable (lib : Library ρ) (H : Hashes ρ τ) (chain : EvmChain) (e : Engine ρ τ) (block : ChainBlock)
  (calls : Nat → Hex → TxCall)

def txsProgram : Nat → List Hex → Run ρ (List BlockExecutionResult)
  | _, [] => .done (.ok [])
  | i, raw :: rest =>
    (EvmChain.executeRawTxInBlock lib chain (calls i raw)).andThen fun result =>
      (txsProgram (i + 1) rest).mapOk fun results => result :: results

def rewardProgram : Run ρ Unit :=
  if 0 < e.blockReward block then
    EvmChain.creditBalance H (e.resolveValidatorAddress block.proposer) (e.blockReward block)
  else .done (.ok ())

def blockProgram : Run ρ (List BlockExecutionResult) :=
  (EvmChain.applyBlockContext lib H chain (e.blockContext block)).andThen fun _ =>
    (txsProgram lib chain calls 0 block.txs).andThen fun results =>
      (rewardProgram H e block).mapOk fun _ => results

end

def WithinGasLimit : Int → List BlockExecutionResult → Prop
  | _, [] => True
  | used, result :: rest => used + result.gasUsed ≤ blockGasLimit ∧ WithinGasLimit (used + result.gasUsed) rest

def totalGas (results : List BlockExecutionResult) : Int := (results.map fun result => (result.gasUsed : Int)).sum

def GasAccepted (block : ChainBlock) (locallyProposed : Bool) (results : List BlockExecutionResult) : Prop :=
  WithinGasLimit 0 results ∧ ∀ claimed ∈ block.gasUsed, locallyProposed = true ∨ claimed = totalGas results

end Engine

open Engine

variable {base : Platform ρ τ} {lib : Library ρ} {chain chain' : EvmChain} {e : Engine ρ τ} {call : ApplyCall}
  {block : ChainBlock} {locallyProposed : Bool} {calls calls' : Nat → Hex → TxCall} {s s' : PersistentStateTrie ρ τ}

variable {σ : Type} {h : Handler (requests ρ) σ} {i : Nat} {results : List BlockExecutionResult}

theorem txsProgram_cons_ok {u u' : σ} {raw : Hex} {rest : List Hex}
    (ran : (txsProgram lib chain calls i (raw :: rest)).run h u = (.ok results, u')) :
    ∃ result later next, (executeRawTxInBlock lib chain (calls i raw)).run h u = (.ok result, next) ∧
      (txsProgram lib chain calls (i + 1) rest).run h next = (.ok later, u') ∧ results = result :: later := by
  rw [txsProgram, run_andThen] at ran
  generalize (executeRawTxInBlock lib chain (calls i raw)).run h u = first at ran
  obtain ⟨result | result, next⟩ := first
  · cases ran
  · dsimp only at ran
    rw [run_mapOk] at ran
    generalize txs : (txsProgram lib chain calls (i + 1) rest).run h next = second at ran
    obtain ⟨later | later, last⟩ := second
    · cases ran
    · cases ran
      exact ⟨result, later, next, rfl, txs, rfl⟩

theorem txsProgram_cons {u next u' : σ} {raw : Hex} {rest : List Hex}
    {result : BlockExecutionResult} {later : List BlockExecutionResult}
    (first : (executeRawTxInBlock lib chain (calls i raw)).run h u = (.ok result, next))
    (second : (txsProgram lib chain calls (i + 1) rest).run h next = (.ok later, u')) :
    (txsProgram lib chain calls i (raw :: rest)).run h u = (.ok (result :: later), u') := by
  rw [txsProgram, run_andThen, first]
  dsimp only
  rw [run_mapOk, second]
  rfl

theorem txsProgram_congr {txs : List Hex} (same : ∀ j raw, raw ∈ txs →
      executeRawTxInBlock lib chain (calls j raw) = executeRawTxInBlock lib chain' (calls' j raw)) :
    txsProgram lib chain calls i txs = txsProgram lib chain' calls' i txs := by
  induction txs generalizing i with
  | nil => rfl
  | cons raw txs ih =>
    rw [txsProgram, txsProgram, same i raw mem_cons_self,
      ih fun j other member => same j other (mem_cons_of_mem _ member)]

variable {total : Int}

theorem executeTxs_iff {txs : List Hex} {used : Int} :
    executeTxs (withVm base lib chain) e call block locallyProposed i txs used s = (.ok total, s') ↔
      ∃ results, (txsProgram lib chain (e.txCall call block locallyProposed) i txs).run (manager base.H) s =
        (.ok results, s') ∧ WithinGasLimit used results ∧ total = used + totalGas results := by
  induction txs generalizing i used s with
  | nil =>
    constructor
    · intro executed
      cases executed
      exact ⟨[], rfl, trivial, (add_zero _).symm⟩
    · rintro ⟨results, ran, -, rfl⟩
      cases ran
      exact congrArg (fun total => (Except.ok total, s')) (add_zero used).symm
  | cons raw txs ih =>
    constructor
    · intro executed
      obtain ⟨result, next, performed, within, later⟩ := executeTxs_cons_ok executed
      obtain ⟨outcome, ran, rfl⟩ := performed_iff.mp performed
      obtain ⟨results, rest, limited, rfl⟩ := ih.mp later
      refine ⟨outcome :: results, txsProgram_cons ran rest, ⟨not_lt.mp within, limited⟩, ?_⟩
      simp only [totalGas, map_cons, sum_cons]
      omega
    · rintro ⟨results, ran, limited, rfl⟩
      obtain ⟨result, later, next, first, rest, rfl⟩ := txsProgram_cons_ok ran
      have performed := performed_iff.mpr ⟨result, first, rfl⟩
      rw [executeTxs, show (withVm base lib chain).evm = chain.evm lib base.H from rfl, performed]
      dsimp only
      rw [if_neg (not_lt.mpr limited.1)]
      refine ih.mpr ⟨later, rest, limited.2, ?_⟩
      simp only [totalGas, map_cons, sum_cons]
      omega

theorem creditReward_iff {used : Int} : creditReward (withVm base lib chain) e block used s = (.ok total, s') ↔
    (rewardProgram base.H e block).run (manager base.H) s = (.ok (), s') ∧ total = used := by
  unfold creditReward rewardProgram
  split
  · change (((perform (withVm base lib chain) s (execution base.H _ s)).1.map _),
      (perform (withVm base lib chain) s (execution base.H _ s)).2) = _ ↔ _
    rw [perform_withVm]
    generalize (creditBalance base.H (e.resolveValidatorAddress block.proposer)
      (e.blockReward block)).run (manager base.H) s = ran
    obtain ⟨outcome | outcome, next⟩ := ran
    · constructor
      · intro failed
        cases failed
      · rintro ⟨failed, -⟩
        cases failed
    · constructor
      · intro credited
        cases credited
        exact ⟨rfl, rfl⟩
      · rintro ⟨credited, rfl⟩
        cases credited
        rfl
  · constructor
    · intro credited
      cases credited
      exact ⟨rfl, rfl⟩
    · rintro ⟨credited, rfl⟩
      cases credited
      rfl

theorem applyBlockContext_iff {context : ExecutionContext} :
    perform (withVm base lib chain) s ((chain.evm lib base.H).applyBlockContext context s) = (.ok (), s') ↔
      (applyBlockContext lib base.H chain context).run (manager base.H) s = (.ok (), s') := by
  change perform (withVm base lib chain) s (execution base.H _ s) = _ ↔ _
  rw [perform_withVm]
  generalize (applyBlockContext lib base.H chain context).run (manager base.H) s = ran
  obtain ⟨outcome | outcome, next⟩ := ran
  · constructor <;> intro failed <;> cases failed
  · constructor <;> intro prepared <;> cases prepared <;> rfl

theorem blockProgram_ok {u u' : σ} {H : Hashes ρ τ}
    :
    (blockProgram lib H chain e block calls).run h u = (.ok results, u') ↔
      ∃ opened done, (applyBlockContext lib H chain (e.blockContext block)).run h u = (.ok (), opened) ∧
        (txsProgram lib chain calls 0 block.txs).run h opened = (.ok results, done) ∧
        (rewardProgram H e block).run h done = (.ok (), u') := by
  constructor
  · intro ran
    rw [blockProgram, run_andThen] at ran
    generalize (applyBlockContext lib H chain (e.blockContext block)).run h u = context at ran
    obtain ⟨prepared | prepared, opened⟩ := context
    · cases ran
    · dsimp only at ran
      rw [run_andThen] at ran
      generalize executed : (txsProgram lib chain calls 0 block.txs).run h opened = txs at ran
      obtain ⟨outcome | outcome, done⟩ := txs
      · cases ran
      · dsimp only at ran
        rw [run_mapOk] at ran
        generalize credited : (rewardProgram H e block).run h done = reward at ran
        obtain ⟨failed | credit, last⟩ := reward
        · cases ran
        · cases ran
          exact ⟨opened, done, rfl, executed, credited⟩
  · rintro ⟨opened, done, context, txs, reward⟩
    rw [blockProgram, run_andThen, context]
    dsimp only
    rw [run_andThen, txs]
    dsimp only
    rw [run_mapOk, reward]
    rfl

theorem executeBlock_iff :
    executeBlock (withVm base lib chain) e call block locallyProposed s = (.ok total, s') ↔
      ∃ results, (blockProgram lib base.H chain e block (e.txCall call block locallyProposed)).run (manager base.H) s =
        (.ok results, s') ∧ GasAccepted block locallyProposed results ∧ total = totalGas results := by
  constructor
  · intro executed
    obtain ⟨opened, done, used, context, txs, claim, reward⟩ := executeBlock_ok executed
    obtain ⟨results, ran, limited, rfl⟩ := executeTxs_iff.mp txs
    obtain ⟨credited, rfl⟩ := creditReward_iff.mp reward
    rw [zero_add] at claim ⊢
    exact ⟨results, blockProgram_ok.mpr ⟨opened, done, applyBlockContext_iff.mp context, ran, credited⟩,
      ⟨limited, claim⟩, rfl⟩
  · rintro ⟨results, ran, ⟨limited, claim⟩, rfl⟩
    obtain ⟨opened, done, context, txs, reward⟩ := blockProgram_ok.mp ran
    refine executeBlock_of_ok (applyBlockContext_iff.mpr context)
      (executeTxs_iff.mpr ⟨results, txs, limited, (zero_add _).symm⟩) claim (creditReward_iff.mpr ⟨reward, rfl⟩)

end Palimesh.Chain
