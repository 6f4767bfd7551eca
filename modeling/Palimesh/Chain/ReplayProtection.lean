import Palimesh.Vm.Records

set_option linter.unusedSectionVars false

namespace Palimesh.Chain

open Collections State Protocol Vm List Engine EvmChain AccountState

variable {ρ τ : Type} [DecidableEq ρ] [DecidableEq τ]

def upFrontCost (tx : Transaction) : Nat :=
  tx.gasLimit * (tx.gasPrice.getD (tx.maxFeePerGas.getD 0)) + tx.value

/-- `runTx`: the checks of balance and nonce, each unless it is skipped, and then the transaction itself,
    inside the checkpoint that was opened. -/
def checkedRunTx (execute : VmOpts → Transaction → Header → Program (requests ρ) (Except String RunTxResult) 1)
    (vm : VmOpts) (opts : RunTxOpts) : Run ρ RunTxResult :=
  .checkpoint (.ask (.getAccount opts.tx.sender) fun (account : Option (AccountState ρ)) =>
    if opts.skipBalance = false ∧ (account.map balance).getD 0 < upFrontCost opts.tx then
      .revert (.done (.error "sender doesn't have enough funds to send tx"))
    else if opts.skipNonce = false ∧ (account.map nonce).getD 0 ≠ opts.tx.nonce then
      .revert (.done (.error "the tx doesn't have the correct nonce"))
    else execute vm opts.tx opts.block)

def getNonce (H : Hashes ρ τ) (s : PersistentStateTrie ρ τ) (address : Hex) : Nat :=
  ((s.get H address).1.map nonce).getD 0

def getBalance (H : Hashes ρ τ) (s : PersistentStateTrie ρ τ) (address : Hex) : Nat :=
  ((s.get H address).1.map balance).getD 0

structure Inclusion (ρ τ : Type) where
  tx : Transaction
  before : PersistentStateTrie ρ τ

structure AcceptedChain (ρ τ : Type) where
  engine : Engine ρ τ
  included : List (Inclusion ρ τ)

section Model

variable (base : Platform ρ τ) (lib : Library ρ) (chain : EvmChain)

def inclusions (e : Engine ρ τ) (call : ApplyCall) (block : ChainBlock) (locallyProposed : Bool) :
    Nat → List Hex → PersistentStateTrie ρ τ → List (Inclusion ρ τ)
  | _, [], _ => []
  | i, raw :: rest, s =>
    let txCall := e.txCall call block locallyProposed i raw
    match Engine.perform (withVm base lib chain) s ((chain.evm lib base.H).executeRawTxInBlock txCall s) with
    | (.error _, _) => []
    | (.ok _, next) =>
      ((EvmChain.parseTx lib chain txCall.blockNumber raw).toOption.map fun tx => ⟨tx, s⟩).toList ++
        inclusions e call block locallyProposed (i + 1) rest next

def blockInclusions (e : Engine ρ τ) (call : ApplyCall) (block : ChainBlock) (locallyProposed : Bool) :
    List (Inclusion ρ τ) :=
  let s := e.stateTrie.checkpoint.checkpoint
  inclusions base lib chain e call block locallyProposed 0 block.txs
    (Engine.perform (withVm base lib chain) s ((chain.evm lib base.H).applyBlockContext (e.blockContext block) s)).2

variable (x : AcceptedChain ρ τ)

def AcceptedChain.step (event : ApplyCall × ChainBlock) : AcceptedChain ρ τ where
  engine := (Engine.applyBlock (withVm base lib chain) x.engine event.1 event.2 false).2
  included := match x.engine.storedBlock (withVm base lib chain) event.1 event.2 false with
    | none => x.included
    | some _ => x.included ++ blockInclusions base lib chain x.engine event.1 event.2 false

def asProposed (block : ChainBlock) : ChainBlock := { block with bftFinalized := some false }

/-- A stored block could have been proposed here: it also executes with the checks switched on. -/
def PassesChecks (event : ApplyCall × ChainBlock) : Prop :=
  (x.engine.storedBlock (withVm base lib chain) event.1 event.2 false).isSome = true →
    (Engine.executeBlock (withVm base lib chain) x.engine event.1 (asProposed event.2) true
      x.engine.stateTrie.checkpoint.checkpoint).1.isOk = true

def AcceptedChain.NoReplay : Prop := (x.included.map fun i => i.tx.hash).Nodup

def AcceptedChain.Checked (H : Hashes ρ τ) (x : AcceptedChain ρ τ) : Prop :=
  ∀ i ∈ x.included, i.tx.nonce = getNonce H i.before i.tx.sender ∧ upFrontCost i.tx ≤ getBalance H i.before i.tx.sender

end Model

def Parsed (lib : Library ρ) (tx : Transaction) : Prop := ∃ common raw, lib.createTxFromRLP common raw = .ok tx

/-- A hash names one sender and nonce, and a transaction that is executed uses up its nonce and gives
    no sender's nonce back. -/
structure NonceDiscipline (H : Hashes ρ τ) (lib : Library ρ) : Prop where
  named : ∀ tx tx', Parsed lib tx → Parsed lib tx' → tx.hash = tx'.hash → tx.sender = tx'.sender ∧ tx.nonce = tx'.nonce
  spends : ∀ vm opts s c rest result, HoldsRecords H s (c :: rest) →
    ((lib.runTx vm opts).run (manager H) s).1 = .ok result →
    ∃ c', HoldsRecords H ((lib.runTx vm opts).run (manager H) s).2 (c' :: rest) ∧
      nonceIn c opts.tx.sender < nonceIn c' opts.tx.sender ∧
      ∀ tx, Parsed lib tx → nonceIn c tx.sender ≤ nonceIn c' tx.sender

variable {base : Platform ρ τ} {lib : Library ρ} {chain : EvmChain} {s s' : PersistentStateTrie ρ τ} {c : Records ρ}
  {rest : List (Records ρ)}

variable {tx : Transaction}

theorem parseTx_parsed {blockNumber : Int} {raw : Hex}
    (parsed : parseTx lib chain blockNumber raw = .ok tx) : Parsed lib tx := by
  unfold parseTx at parsed
  split at parsed
  · cases parsed
  · rename_i found
    split at parsed
    · cases parsed
    · cases parsed
      exact ⟨_, _, found⟩

variable {execute : VmOpts → Transaction → Header → Program (requests ρ) (Except String RunTxResult) 1}

variable {H : Hashes ρ τ} {outcome : RunTxResult}

theorem checkedRunTx_passed {vm : VmOpts} {block : Header}
    (holds : HoldsRecords H s (c :: rest))
    (ran : (checkedRunTx execute vm ⟨tx, block, false, false⟩).run (manager H) s = (.ok outcome, s')) :
    tx.nonce = nonceIn c tx.sender ∧ upFrontCost tx ≤ balanceIn c tx.sender ∧
      (checkedRunTx execute vm ⟨tx, block, true, true⟩).run (manager H) s = (.ok outcome, s') := by
  have read := answer_getAccount holds.checkpoint tx.sender
  have nonce : ((c.lookup tx.sender).map (PersistentStateManager.loaded H)).map nonce =
      (c.lookup tx.sender).map nonce := by
    rw [Option.map_map]
    rfl
  have balance : ((c.lookup tx.sender).map (PersistentStateManager.loaded H)).map balance =
      (c.lookup tx.sender).map balance := by
    rw [Option.map_map]
    rfl
  change (ite _ _ _ : Program (requests ρ) (Except String RunTxResult) 1).run (manager H) _ = _ at ran
  change (manager H).answer (.getAccount tx.sender) ((manager H).step s .checkpoint) = _ at read
  rw [read, nonce, balance] at ran
  by_cases short : balanceIn c tx.sender < upFrontCost tx
  · rw [if_pos ⟨rfl, short⟩] at ran
    cases ran
  · rw [if_neg fun both => short both.2] at ran
    by_cases differs : nonceIn c tx.sender ≠ tx.nonce
    · rw [if_pos ⟨rfl, differs⟩] at ran
      cases ran
    · rw [if_neg fun both => differs both.2] at ran
      exact ⟨(not_not.mp differs).symm, not_lt.mp short, ran⟩

def RaisesSenders (lib : Library ρ) (c c' : Records ρ) : Prop :=
  ∀ tx, Parsed lib tx → nonceIn c tx.sender ≤ nonceIn c' tx.sender

variable {c' : Records ρ}

theorem RaisesSenders.trans {c'' : Records ρ} (one : RaisesSenders lib c c') (two : RaisesSenders lib c' c'') :
    RaisesSenders lib c c'' :=
  fun tx parsed => (one tx parsed).trans (two tx parsed)

theorem RaisesSenders.of_all (raises : RaisesNonces c c') : RaisesSenders lib c c' :=
  fun tx _ => raises tx.sender

/-- Transactions included while the records went from `c` to `c'`: each was checked, and used up a
    nonce that lies between. -/
structure Sequenced (H : Hashes ρ τ) (lib : Library ρ) (c c' : Records ρ) (included : List (Inclusion ρ τ)) : Prop where
  raises : RaisesSenders lib c c'
  parsed : ∀ i ∈ included, Parsed lib i.tx
  checked : ∀ i ∈ included, i.tx.nonce = getNonce H i.before i.tx.sender ∧
    upFrontCost i.tx ≤ getBalance H i.before i.tx.sender
  within : ∀ i ∈ included, nonceIn c i.tx.sender ≤ i.tx.nonce ∧ i.tx.nonce < nonceIn c' i.tx.sender
  distinct : (included.map fun i => i.tx.hash).Nodup

theorem Sequenced.nil (raises : RaisesSenders lib c c') : Sequenced H lib c c' [] where
  raises := raises
  parsed := fun _ => nofun
  checked := fun _ => nofun
  within := fun _ => nofun
  distinct := nodup_nil

theorem Sequenced.append {c'' : Records ρ} {included later : List (Inclusion ρ τ)}
    (discipline : NonceDiscipline H lib) (one : Sequenced H lib c c' included) (two : Sequenced H lib c' c'' later) :
    Sequenced H lib c c'' (included ++ later) where
  raises := one.raises.trans two.raises
  parsed := List.forall_mem_append.mpr ⟨one.parsed, two.parsed⟩
  checked := List.forall_mem_append.mpr ⟨one.checked, two.checked⟩
  within := by
    refine List.forall_mem_append.mpr ⟨?_, ?_⟩
    · intro i member
      obtain ⟨above, below⟩ := one.within i member
      exact ⟨above, below.trans_le (two.raises i.tx (one.parsed i member))⟩
    · intro i member
      obtain ⟨above, below⟩ := two.within i member
      exact ⟨(one.raises i.tx (two.parsed i member)).trans above, below⟩
  distinct := by
    rw [map_append]
    refine List.nodup_append.mpr ⟨one.distinct, two.distinct, ?_⟩
    intro hash first hash' second same
    obtain ⟨i, member, rfl⟩ := List.mem_map.mp first
    obtain ⟨j, member', rfl⟩ := List.mem_map.mp second
    -- The same hash would be of the same nonce, once below and once above what the sender had between.
    obtain ⟨sender, nonce⟩ := discipline.named _ _ (one.parsed i member) (two.parsed j member') same
    have used := (one.within i member).2
    have fresh := (two.within j member').1
    rw [sender, nonce] at used
    omega

theorem getNonce_eq (holds : HoldsRecords H s (c :: rest)) (address : Hex) :
    getNonce H s address = nonceIn c address := by
  unfold getNonce nonceIn
  rw [holds.lookup]

theorem getBalance_eq (holds : HoldsRecords H s (c :: rest)) (address : Hex) :
    getBalance H s address = balanceIn c address := by
  unfold getBalance balanceIn
  rw [holds.lookup]

section Execution

variable {e : Engine ρ τ} {call : ApplyCall} {block : ChainBlock} {locallyProposed : Bool}

theorem context_raises (lib : Library ρ) (chain : EvmChain) (holds : HoldsRecords base.H s (c :: rest)) (context : ExecutionContext) :
    ∃ c', HoldsRecords base.H (perform (withVm base lib chain) s
      ((chain.evm lib base.H).applyBlockContext context s)).2 (c' :: rest) ∧ RaisesNonces c c' := by
  change ∃ c', HoldsRecords base.H (perform (withVm base lib chain) s (execution base.H _ s)).2 _ ∧ _
  rw [perform_withVm]
  exact applyBlockContext_nonces lib chain context s c rest holds

theorem creditReward_raises (lib : Library ρ) (chain : EvmChain) (e : Engine ρ τ) (block : ChainBlock)
    (holds : HoldsRecords base.H s (c :: rest)) (used : Int) :
    ∃ c', HoldsRecords base.H (creditReward (withVm base lib chain) e block used s).2 (c' :: rest) ∧
      RaisesNonces c c' := by
  unfold creditReward
  split
  · change ∃ c', HoldsRecords base.H (perform (withVm base lib chain) s (execution base.H _ s)).2 _ ∧ _
    rw [perform_withVm]
    exact creditBalance_nonces _ _ s c rest holds
  · exact ⟨c, holds, .refl c⟩

section

variable (discipline : NonceDiscipline base.H lib)
include discipline

theorem executes_spends (holds : HoldsRecords base.H s (c :: rest)) {txCall : TxCall}
    {context : CallContext}
    (executes : Executes base lib chain txCall tx context s s' outcome) :
    ∃ c', HoldsRecords base.H s' (c' :: rest) ∧ nonceIn c tx.sender < nonceIn c' tx.sender ∧ RaisesSenders lib c c' := by
  obtain ⟨c', after, spent, raises⟩ := discipline.spends _ _ s c rest outcome holds (congrArg Prod.fst executes)
  rw [congrArg Prod.snd executes] at after
  exact ⟨c', after, spent, raises⟩

variable {total : Int}

theorem executeTxs_raises {txs : List Hex} {i : Nat} {used : Int} (holds : HoldsRecords base.H s (c :: rest))
    (executed : executeTxs (withVm base lib chain) e call block locallyProposed i txs used s = (.ok total, s')) :
    ∃ c', HoldsRecords base.H s' (c' :: rest) ∧ RaisesSenders lib c c' := by
  induction txs generalizing i used s c with
  | nil =>
    cases executed
    exact ⟨c, holds, fun _ _ => le_rfl⟩
  | cons raw txs ih =>
    obtain ⟨result, next, performed, -, later⟩ := executeTxs_cons_ok executed
    obtain ⟨tx, context, outcome, -, -, executes, -⟩ := performed_ok performed
    obtain ⟨c1, after, -, raises⟩ := executes_spends discipline holds executes
    obtain ⟨c2, done, raises'⟩ := ih after later
    exact ⟨c2, done, raises.trans raises'⟩

theorem executeTxs_sequenced (runTx : lib.runTx = checkedRunTx execute) {txs : List Hex} {i : Nat} {used : Int}
    (holds : HoldsRecords base.H s (c :: rest))
    (checked : executeTxs (withVm base lib chain) e call (asProposed block) true i txs used s = (.ok total, s')) :
    executeTxs (withVm base lib chain) e call block false i txs used s = (.ok total, s') ∧
      ∃ c', HoldsRecords base.H s' (c' :: rest) ∧
        Sequenced base.H lib c c' (inclusions base lib chain e call block false i txs s) := by
  induction txs generalizing i used s c with
  | nil =>
    cases checked
    exact ⟨rfl, c, holds, .nil fun _ _ => le_rfl⟩
  | cons raw txs ih =>
    obtain ⟨result, next, performed, within, later⟩ := executeTxs_cons_ok checked
    obtain ⟨tx, context, outcome, parsed, decoded, executes, rfl⟩ := performed_ok performed
    -- With the checks on the call differs in nothing else.
    have skips : (e.txCall call block false i raw).trustBlock = true := by simp [txCall]
    unfold Executes at executes
    rw [runTx] at executes
    obtain ⟨nonce, funded, trusted⟩ := checkedRunTx_passed holds executes
    have trusted' : Executes base lib chain (e.txCall call block false i raw) tx context s next outcome := by
      unfold Executes
      rw [runTx, skips]
      exact trusted
    have performed' := perform_of_executes (e.txCall call block false i raw) parsed decoded trusted'
    obtain ⟨c1, after, spent, raises⟩ := executes_spends discipline holds trusted'
    obtain ⟨same, c2, done, sequenced⟩ := ih after later
    constructor
    · change (match perform (withVm base lib chain) s ((chain.evm lib base.H).executeRawTxInBlock
        (e.txCall call block false i raw) s) with | (.error err, s) => _ | (.ok result, s) => _) = _
      rw [performed']
      dsimp only
      rw [if_neg within]
      exact same
    · refine ⟨c2, done, ?_⟩
      rw [inclusions, performed']
      have first : Sequenced base.H lib c c1 [⟨tx, s⟩] :=
        { raises := raises
          parsed := by simpa using parseTx_parsed parsed
          checked := by simpa [getNonce_eq holds, getBalance_eq holds] using ⟨nonce, funded⟩
          within := by simpa [nonce] using spent
          distinct := nodup_singleton _ }
      have parsed' : parseTx lib chain (e.txCall call block false i raw).blockNumber raw = .ok tx := parsed
      rw [parsed']
      exact first.append discipline sequenced

theorem executeBlock_raises (holds : HoldsRecords base.H s (c :: rest))
    (executed : executeBlock (withVm base lib chain) e call block locallyProposed s = (.ok total, s')) :
    ∃ c', HoldsRecords base.H s' (c' :: rest) ∧ RaisesSenders lib c c' := by
  obtain ⟨opened, done, used, context, txs, -, reward⟩ := executeBlock_ok executed
  obtain ⟨c1, afterContext, raises1⟩ := context_raises lib chain holds (e.blockContext block)
  change perform (withVm base lib chain) s ((chain.evm lib base.H).applyBlockContext _ s) = _ at context
  rw [context] at afterContext
  obtain ⟨c2, afterTxs, raises2⟩ := executeTxs_raises discipline afterContext txs
  obtain ⟨c3, afterReward, raises3⟩ := creditReward_raises lib chain e block afterTxs used
  rw [reward] at afterReward
  exact ⟨c3, afterReward, (RaisesSenders.of_all raises1).trans (raises2.trans (.of_all raises3))⟩

theorem executeBlock_sequenced (runTx : lib.runTx = checkedRunTx execute)
    (holds : HoldsRecords base.H e.stateTrie.checkpoint.checkpoint (c :: rest))
    (executed : executeBlock (withVm base lib chain) e call block false e.stateTrie.checkpoint.checkpoint =
      (.ok total, s')) (checked : (executeBlock (withVm base lib chain) e call (asProposed block) true
      e.stateTrie.checkpoint.checkpoint).1.isOk = true) :
    ∃ c', HoldsRecords base.H s' (c' :: rest) ∧
      Sequenced base.H lib c c' (blockInclusions base lib chain e call block false) := by
  obtain ⟨opened, done, used, context, txs, -, reward⟩ := executeBlock_ok executed
  change perform (withVm base lib chain) _ ((chain.evm lib base.H).applyBlockContext _ _) = _ at context
  obtain ⟨c1, afterContext, raises1⟩ := context_raises lib chain holds (e.blockContext block)
  rw [context] at afterContext
  cases passed : executeBlock (withVm base lib chain) e call (asProposed block) true
      e.stateTrie.checkpoint.checkpoint with
  | mk outcome final =>
    rw [passed] at checked
    cases outcome with
    | error err => cases checked
    | ok total' =>
      obtain ⟨opened', done', used', context', txs', -, -⟩ := executeBlock_ok passed
      change perform (withVm base lib chain) _ ((chain.evm lib base.H).applyBlockContext (e.blockContext block) _) =
        _ at context'
      rw [context] at context'
      cases context'
      obtain ⟨same, c2, afterTxs, sequenced⟩ := executeTxs_sequenced discipline runTx afterContext txs'
      have finished := same.symm.trans txs
      cases finished
      obtain ⟨c3, afterReward, raises3⟩ :=
        creditReward_raises lib chain e block afterTxs used
      rw [reward] at afterReward
      refine ⟨c3, afterReward, ?_⟩
      unfold blockInclusions
      dsimp only
      rw [context]
      have opening : Sequenced base.H lib c c1 [] := .nil (.of_all raises1)
      have whole := opening.append discipline (sequenced.append discipline (.nil (.of_all raises3)))
      rw [append_nil] at whole
      exact whole

end

theorem holds_commitBlock {outer outer' : Records ρ} (p : Platform ρ τ) (holds : HoldsRecords p.H s [c, outer, outer']) :
    ∃ c', HoldsRecords p.H (commitBlock p s).2 [c'] ∧ RaisesNonces c c' := by
  obtain ⟨c1, same1, first⟩ := holds.commit
  obtain ⟨c2, same2, second⟩ := first.commit
  obtain ⟨c3, same3, synced⟩ := second.computeStateRoot
  exact ⟨c3, synced, .of_same ((same1.trans same2).trans same3)⟩

theorem finishBlock_state (p : Platform ρ τ) (total : Int) {committed : Records ρ}
    (holds : HoldsRecords p.H (commitBlock p s).2 [committed]) :
    HoldsRecords p.H (finishBlock p e call block locallyProposed total s).2.stateTrie [committed] := by
  unfold finishBlock
  dsimp only
  split
  · exact holds.revert_closed.revert_closed
  · split
    · exact holds.revert_closed.revert_closed
    · unfold updateFinalityFlags
      split
      · exact holds
      · split <;> exact holds

end Execution

section Chain

variable (base lib chain)

def AcceptedChain.Ordered (start : Records ρ) (x : AcceptedChain ρ τ) : Prop :=
  ∃ records, HoldsRecords base.H x.engine.stateTrie [records] ∧ Sequenced base.H lib start records x.included

variable {base lib chain}

theorem ordered_step (discipline : NonceDiscipline base.H lib) (runTx : lib.runTx = checkedRunTx execute)
    {start : Records ρ} {x : AcceptedChain ρ τ} {event : ApplyCall × ChainBlock}
    (ordered : x.Ordered base lib start) (admitted : PassesChecks base lib chain x event) :
    (x.step base lib chain event).Ordered base lib start := by
  obtain ⟨records, holds, sequenced⟩ := ordered
  obtain ⟨call, block⟩ := event
  have opened : HoldsRecords base.H x.engine.stateTrie.checkpoint.checkpoint [records, records, records] :=
    holds.checkpoint.checkpoint
  have applied := applyBlock_applied (withVm base lib chain) x.engine call block false
  unfold AcceptedChain.step PassesChecks at *
  generalize applyBlock (withVm base lib chain) x.engine call block false = outcome at applied
  cases applied with
  | reentrant busy =>
    rw [storedBlock, if_pos (.inl busy)]
    exact ⟨records, holds, sequenced⟩
  | duplicate idle found =>
    rw [storedBlock, if_pos (.inr (by rw [found]; rfl))]
    exact ⟨records, holds, sequenced⟩
  | rejected idle fresh invalid =>
    rw [storedBlock, if_neg (by simp [idle, fresh]), invalid]
    exact ⟨records, holds, sequenced⟩
  | failed idle fresh valid executed =>
    rw [storedBlock, if_neg (by simp [idle, fresh]), valid, executed]
    have kept := executeBlock_keeps (p := withVm base lib chain)
      (P := fun s => ∃ c, HoldsRecords base.H s [c, records, records]) x.engine call block false
      (fun s ops ⟨c, holds⟩ balanced => holds.run_balanced balanced) ⟨records, opened⟩
    rw [executed] at kept
    obtain ⟨c, after⟩ := kept
    exact ⟨records, after.revert.revert, sequenced⟩
  | @finished total s idle fresh valid executed =>
    cases accepted : x.engine.storedBlock (withVm base lib chain) call block false with
    | none =>
      obtain ⟨c, after, raises⟩ := executeBlock_raises discipline opened executed
      obtain ⟨c', committed, raises'⟩ := holds_commitBlock (withVm base lib chain) after
      refine ⟨c', finishBlock_state _ total committed, ?_⟩
      have whole := sequenced.append discipline (.nil (raises.trans (.of_all raises')))
      rw [append_nil] at whole
      exact whole
    | some storedBlock =>
      rw [accepted] at admitted
      obtain ⟨c, after, block'⟩ := executeBlock_sequenced discipline runTx opened executed (admitted rfl)
      obtain ⟨c', committed, raises'⟩ := holds_commitBlock (withVm base lib chain) after
      refine ⟨c', finishBlock_state _ total committed, ?_⟩
      have whole := sequenced.append discipline (block'.append discipline (.nil (.of_all raises')))
      rw [append_nil] at whole
      exact whole

/-- If every stored block also executes with the checks on, no transaction is in the chain twice, and
    each one had the sender's nonce and was paid for. -/
theorem accepted_chain_checked (base : Platform ρ τ) (lib : Library ρ) (chain : EvmChain)
    (execute : VmOpts → Transaction → Header → Program (requests ρ) (Except String RunTxResult) 1)
    (runTx : lib.runTx = checkedRunTx execute) (discipline : NonceDiscipline base.H lib)
    (start : Engine ρ τ) (records : Records ρ) (valid : HoldsRecords base.H start.stateTrie [records])
    (x : AcceptedChain ρ τ)
    (built : Reaches (PassesChecks base lib chain) (AcceptedChain.step base lib chain) ⟨start, []⟩ x) :
    x.NoReplay ∧ x.Checked base.H := by
  have ordered : x.Ordered base lib records := by
    refine built.invariant (AcceptedChain.Ordered base lib records) ⟨records, valid, .nil fun _ _ => le_rfl⟩ ?_
    intro y event ordered admitted
    exact ordered_step discipline runTx ordered admitted
  obtain ⟨_, _, sequenced⟩ := ordered
  exact ⟨sequenced.distinct, sequenced.checked⟩

end Chain

section Sample

def bumped (existing : Option (AccountState (Option (FiniteMap Hex Bytes)))) :
    AccountState (Option (FiniteMap Hex Bytes)) :=
  let account := existing.getD ⟨0, 0, none, zeroHash⟩
  { account with nonce := account.nonce + 1 }

def sampleExecute (_ : VmOpts) (tx : Transaction) (_ : Header) :
    Program (requests (Option (FiniteMap Hex Bytes))) (Except String RunTxResult) 1 :=
  .ask (.getAccount tx.sender) fun existing =>
    .ask (.putAccount tx.sender (some (bumped existing))) fun _ => .commit (.done (.ok ⟨21000, none, [], none, none⟩))

def sampleLibrary : Library (Option (FiniteMap Hex Bytes)) where
  hexToBytes _ := .ok [1]
  createTxFromRLP _ raw := .ok (sampleTransaction raw)
  runTx := checkedRunTx sampleExecute
  runCall _ _ := .done (.error "")

theorem sampleExecute_nonce {s : PersistentStateTrie (Option (FiniteMap Hex Bytes)) (Records (Option (FiniteMap Hex Bytes)))}
    {c outer : Records (Option (FiniteMap Hex Bytes))} {rest : List (Records (Option (FiniteMap Hex Bytes)))}
    (holds : HoldsRecords plainHashes s (c :: outer :: rest)) (vm : VmOpts) (tx : Transaction) (block : Header) :
    ∃ c', HoldsRecords plainHashes ((sampleExecute vm tx block).run (manager plainHashes) s).2 (c' :: rest) ∧
      ∀ address, nonceIn c' address = if address = tx.sender then nonceIn c tx.sender + 1 else nonceIn c address := by
  have read := answer_getAccount holds tx.sender
  obtain ⟨c1, asked, kept⟩ := holds_ask holds (.getAccount tx.sender)
  rw [show c1 = c from kept] at asked
  obtain ⟨c2, put, written⟩ := holds_ask asked
    (.putAccount tx.sender (some (bumped ((manager plainHashes).answer (.getAccount tx.sender) s))))
  obtain ⟨c3, same, committed⟩ := put.commit
  refine ⟨c3, committed, ?_⟩
  intro address
  rw [nonceIn_same same, show c2 = c.insert tx.sender _ from written, nonceIn_insert, read]
  split
  · unfold nonceIn
    cases c.lookup tx.sender <;> rfl
  · rfl

theorem sampleLibrary_discipline : NonceDiscipline plainHashes sampleLibrary where
  named := by
    rintro tx tx' ⟨_, raw, parsed⟩ ⟨_, raw', parsed'⟩ same
    cases parsed
    cases parsed'
    cases (same : raw = raw')
    exact ⟨rfl, rfl⟩
  spends := by
    intro vm opts s c rest result holds ok
    obtain ⟨same, asked, rfl⟩ := holds_ask holds.checkpoint (.getAccount opts.tx.sender)
    change ((ite _ _ _ : Program (requests (Option (FiniteMap Hex Bytes))) (Except String RunTxResult) 1).run
      (manager plainHashes) _).1 = _ at ok
    change ∃ c', HoldsRecords plainHashes ((ite _ _ _ : Program (requests (Option (FiniteMap Hex Bytes)))
      (Except String RunTxResult) 1).run (manager plainHashes) _).2 _ ∧ _
    split at ok
    · cases ok
    · split at ok
      · cases ok
      · rename_i funded matching
        obtain ⟨c', after, nonces⟩ := sampleExecute_nonce asked vm opts.tx opts.block
        refine ⟨c', ?_, ?_, ?_⟩
        · rw [if_neg funded, if_neg matching]
          exact after
        · rw [nonces, if_pos rfl]
          exact Nat.lt_succ_self _
        · intro tx _
          rw [nonces]
          split
          · rename_i here
            rw [here]
            exact Nat.le_succ _
          · exact le_rfl

instance (x : AcceptedChain (Option (FiniteMap Hex Bytes)) (Records (Option (FiniteMap Hex Bytes))))
    (event : ApplyCall × ChainBlock) : Decidable (PassesChecks plainPlatform sampleLibrary sampleChain x event) :=
  inferInstanceAs (Decidable (_ → _))

def transfers : List (ApplyCall × ChainBlock) :=
  [(sampleCall, transferBlock ["0xaa"]), (sampleCall, nextTransferBlock ["0xaa"] ["0xbbb"])]

theorem transfers_checked :
    let x := transfers.foldl (AcceptedChain.step plainPlatform sampleLibrary sampleChain) ⟨sampleEngine, []⟩
    x.included.map (fun i => i.tx.hash) = ["0xaa", "0xbbb"] ∧ x.NoReplay ∧ x.Checked plainHashes :=
  ⟨by decide +kernel, accepted_chain_checked plainPlatform sampleLibrary sampleChain sampleExecute rfl
    sampleLibrary_discipline sampleEngine ∅ sampleEngine_holds _
    (Reaches.start.run (by decide +kernel : Admitted _ _ _ transfers))⟩

/-- Another node's blocks: the first transaction comes again in the second block, with one that has
    neither the sender's nonce nor the money. -/
def replays : List (ApplyCall × ChainBlock) :=
  [(sampleCall, transferBlock ["0xaa"]), (sampleCall, nextTransferBlock ["0xaa"] ["0xaa", "0xddddddd"])]

theorem replays_accepted :
    let first := applyBlock (withVm plainPlatform sampleLibrary sampleChain) sampleEngine sampleCall
      (transferBlock ["0xaa"]) false
    let second := applyBlock (withVm plainPlatform sampleLibrary sampleChain) first.2 sampleCall
      (nextTransferBlock ["0xaa"] ["0xaa", "0xddddddd"]) false
    let x := replays.foldl (AcceptedChain.step plainPlatform sampleLibrary sampleChain) ⟨sampleEngine, []⟩
    first.1.isOk = true ∧ second.1.isOk = true ∧ second.2.getHeight = 2 ∧
      x.included.map (fun i => (i.tx.hash, i.tx.nonce, getNonce plainHashes i.before i.tx.sender)) =
        [("0xaa", 0, 0), ("0xaa", 0, 1), ("0xddddddd", 5, 2)] ∧
      x.included.map (fun i => (upFrontCost i.tx, getBalance plainHashes i.before i.tx.sender)) =
        [(0, 0), (0, 0), (1, 0)] := by
  decide +kernel

end Sample

end Palimesh.Chain
