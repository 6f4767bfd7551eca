import Palimesh.Chain.MemoryEngine

set_option linter.unusedSectionVars false

namespace Palimesh

def ChainBlock.withFlags (block : ChainBlock) (finalized : Bool) (bftFinalized : Option Bool) : ChainBlock :=
  { block with finalized := finalized, bftFinalized := bftFinalized }

end Palimesh

namespace Palimesh.Chain

open Collections State ApplyError

/-- Both calls fail with the same error, or both succeed and store the same block. -/
def SameOutcome {ε : Type} (getBlockByHash : ε → Hex → Option ChainBlock) (hash : Hex)
    (left right : Except ApplyError Unit × ε) : Prop :=
  left.1 = right.1 ∧ (left.1 = .ok () → getBlockByHash left.2 hash = getBlockByHash right.2 hash)

def ApplyError.aboutProposer : ApplyError → Bool
  | .invalidProposer | .undefinedProperty _ => true
  | _ => false

def Quiet {α : Type} (outcome : Except ApplyError α) : Prop :=
  ∀ err, outcome = .error err → err.aboutProposer = false

section Quiet

variable {α β : Type} {outcome : Except ApplyError α} {next : α → Except ApplyError β}

@[simp] theorem Quiet.ok (value : α) : Quiet (.ok value : Except ApplyError α) := fun _ => nofun

variable {err : ApplyError}

@[simp] theorem quiet_error : Quiet (.error err : Except ApplyError α) ↔ err.aboutProposer = false := by
  constructor
  · intro quiet
    exact quiet err rfl
  · intro quiet other failed
    cases failed
    exact quiet

@[simp] theorem quiet_ite {condition : Prop} [Decidable condition] {left right : Except ApplyError α} :
    Quiet (if condition then left else right) ↔ (condition → Quiet left) ∧ (¬ condition → Quiet right) := by
  split <;> simp [*]

theorem Quiet.error (quiet : err.aboutProposer = false) : Quiet (.error err : Except ApplyError α) := quiet_error.mpr quiet

theorem Quiet.bind (first : Quiet outcome) (rest : ∀ value, Quiet (next value)) : Quiet (outcome >>= next) := by
  cases outcome with
  | error err => exact Quiet.error (first err rfl)
  | ok value => exact rest value

theorem Quiet.map {f : α → β} (quiet : Quiet outcome) : Quiet (outcome.map f) := by
  cases outcome with
  | error err => exact Quiet.error (quiet err rfl)
  | ok value => exact Quiet.ok (f value)

theorem Quiet.checkIf {check : Except ApplyError Unit} (quiet : Quiet check) (condition : Bool) :
    Quiet (checkIf condition check) := by
  cases condition with
  | true => exact quiet
  | false => exact Quiet.ok ()

theorem Quiet.thrown (result : Except String α) : Quiet (result.mapError thrown) := by
  cases result with
  | error message => exact Quiet.error rfl
  | ok value => exact Quiet.ok value

theorem Quiet.passed_on {γ : Type} {result : Except ApplyError α × γ} {rest : γ} (quiet : Quiet result.1)
    (failed : result = (.error err, rest)) : Quiet (.error err : Except ApplyError β) :=
  Quiet.error (quiet err (congrArg Prod.fst failed))

theorem checkTimestamps_quiet (now : Int) (prev : Option ChainBlock) (block : ChainBlock) :
    Quiet (checkTimestamps now prev block) := by
  simp [checkTimestamps, aboutProposer]

theorem checkWeight_quiet (expected : Int) (prev : Option ChainBlock) (block : ChainBlock) :
    Quiet (checkWeight expected prev block) := by
  unfold checkWeight
  split <;> simp [aboutProposer]

theorem checkSignature_quiet (mode : SignatureMode) (verifier : Option Verifier) (proposerAddr : String)
    (block : ChainBlock) : Quiet (checkSignature mode verifier proposerAddr block) := by
  unfold checkSignature
  cases verifier with
  | none => simp
  | some verifyNodeSig => cases truthy block.signature <;> simp [aboutProposer]

theorem checkHash_quiet (host : Host) (block : ChainBlock) : Quiet (checkHash host block) := by
  simp [checkHash, aboutProposer]

theorem stateRootSigFor_quiet (mode : SignatureMode) (signer : Option NodeSigner) (verifier : Option Verifier)
    (proposerAddr : String) (block : ChainBlock) (locallyProposed : Bool) (stateRoot : Option Hex) :
    Quiet (stateRootSigFor mode signer verifier proposerAddr block locallyProposed stateRoot) := by
  unfold stateRootSigFor
  cases stateRoot with
  | none => simp
  | some root =>
    cases signsAs signer block.proposer <;> cases truthy block.stateRootSig <;> cases verifier <;>
      simp [aboutProposer]

theorem stakeWeightedProposer_error {host : Host} {validators : List ValidatorInfo} {height : Int}
    (some' : validators ≠ []) (failed : stakeWeightedProposer host validators height = .error err) :
    err.aboutProposer = true := by
  unfold stakeWeightedProposer at failed
  dsimp only at failed
  split at failed
  · split at failed
    · cases failed
    · cases failed
      rfl
  · split at failed
    · cases failed
    · cases failed
    · rename_i empty
      have none' := congrArg List.length empty
      rw [List.length_insertionSort] at none'
      exact absurd (List.length_eq_zero_iff.mp none') some'

/-- How both engines take a remote block: its flag decides whether the proposer is checked, and nothing else. -/
def admitted {ε : Type} (m : ε) (busy : Bool) (stored : Option ChainBlock) (linked : Bool)
    (proposer contents : Except ApplyError Unit) (rest : Except ApplyError Unit × ε) (bftFinalized : Option Bool) :
    Except ApplyError Unit × ε :=
  if busy then (.error .reentrant, m)
  else match stored with
    | some _ => (.ok (), m)
    | none =>
      match (do
        checkIf (!linked) (.error .invalidLink)
        checkIf (!bftFinalized.getD false) proposer
        contents) with
      | .error err => (.error err, m)
      | .ok _ => rest

theorem admitted_iff {ε : Type} {getBlockByHash : ε → Hex → Option ChainBlock} {hash : Hex} {m : ε} {busy : Bool}
    {stored : Option ChainBlock} {linked : Bool} {proposer contents : Except ApplyError Unit}
    {rest : Except ApplyError Unit × ε} (about : ∀ {err}, proposer = .error err → err.aboutProposer = true)
    (quiet : Quiet contents) (quietRest : Quiet rest.1) :
    (∀ bftFinalized bftFinalized', SameOutcome getBlockByHash hash
      (admitted m busy stored linked proposer contents rest bftFinalized)
      (admitted m busy stored linked proposer contents rest bftFinalized')) ↔
      busy = true ∨ stored.isSome = true ∨ linked = false ∨ proposer = .ok () := by
  constructor
  · intro alike
    by_contra read
    simp only [not_or, Bool.not_eq_true, Bool.not_eq_false, Option.isSome_eq_false_iff, Option.isNone_iff_eq_none] at read
    obtain ⟨rfl, rfl, rfl, refused⟩ := read
    cases checked : proposer with
    | ok _ => exact refused checked
    | error err =>
      have lifted : Quiet (admitted m false none true proposer contents rest (some true)).1 := by
        cases failed : contents with
        | error err => exact Quiet.error (quiet err failed)
        | ok _ => exact quietRest
      have failed : (admitted m false none true proposer contents rest none).1 = .error err := by
        rw [checked]
        rfl
      have missed := lifted err ((alike none (some true)).1.symm.trans failed)
      rw [about checked] at missed
      cases missed
  · intro unread bftFinalized bftFinalized'
    have unchecked (flag : Bool) : checkIf (!flag) (.ok ()) = .ok () := by cases flag <;> rfl
    have same : admitted m busy stored linked proposer contents rest bftFinalized =
        admitted m busy stored linked proposer contents rest bftFinalized' := by
      rcases unread with rfl | held | rfl | rfl
      · rfl
      · obtain ⟨existing, rfl⟩ := Option.isSome_iff_exists.mp held
        rfl
      · rfl
      · simp only [admitted, unchecked]
    rw [same]
    exact ⟨rfl, fun _ => rfl⟩

end Quiet

variable {block : ChainBlock} {finalized : Bool} {bftFinalized : Option Bool} {now : Int} {host : Host}

namespace Engine

variable {ρ τ : Type} [DecidableEq ρ] [DecidableEq τ] {p : Platform ρ τ} {e : Engine ρ τ} {call : ApplyCall}

theorem txCall_withFlags (i : Nat) (raw : Hex) :
    e.txCall call (block.withFlags finalized bftFinalized) false i raw = e.txCall call block false i raw := by
  simp only [txCall, ChainBlock.withFlags, Bool.not_false, Bool.or_true]
  rfl

theorem executeTxs_withFlags (txs : List Hex) (i : Nat) (totalGasUsed : Int) (s : PersistentStateTrie ρ τ) :
    executeTxs p e call (block.withFlags finalized bftFinalized) false i txs totalGasUsed s =
      executeTxs p e call block false i txs totalGasUsed s := by
  induction txs generalizing i totalGasUsed s with
  | nil => rfl
  | cons raw rest ih =>
    unfold executeTxs
    rw [txCall_withFlags]
    split
    · rfl
    · split
      · rfl
      · exact ih _ _ _

variable (locallyProposed : Bool) (s : PersistentStateTrie ρ τ)

theorem executeBlock_withFlags :
    executeBlock p e call (block.withFlags finalized bftFinalized) false s = executeBlock p e call block false s := by
  unfold executeBlock
  simp only [executeTxs_withFlags]
  rfl

theorem checkContents_quiet (prev : Option ChainBlock) (locallyProposed : Bool) :
    Quiet (e.checkContents host now prev block locallyProposed) := by
  apply ((checkTimestamps_quiet now prev block).checkIf _).bind
  intro _
  apply (checkWeight_quiet _ prev block).bind
  intro _
  apply ((checkSignature_quiet _ _ _ block).checkIf _).bind
  intro _
  exact checkHash_quiet host block

theorem executeTxs_quiet (txs : List Hex) (i : Nat) (totalGasUsed : Int)
    (s : PersistentStateTrie ρ τ) : Quiet (executeTxs p e call block locallyProposed i txs totalGasUsed s).1 := by
  induction txs generalizing i totalGasUsed s with
  | nil => exact Quiet.ok _
  | cons raw rest ih =>
    unfold executeTxs
    split
    · rename_i err s' performed
      apply Quiet.passed_on _ performed
      exact Quiet.thrown _
    · split
      · exact Quiet.error rfl
      · exact ih _ _ _

theorem creditReward_quiet (totalGasUsed : Int) (s : PersistentStateTrie ρ τ) :
    Quiet (creditReward p e block totalGasUsed s).1 := by
  unfold creditReward
  split
  · exact (Quiet.thrown _).map
  · exact Quiet.ok _

theorem executeBlock_quiet : Quiet (executeBlock p e call block locallyProposed s).1 := by
  unfold executeBlock
  split
  · rename_i err s' performed
    apply Quiet.passed_on _ performed
    exact Quiet.thrown _
  · split
    · rename_i err s' executed
      exact (executeTxs_quiet _ _ _ _ _).passed_on executed
    · split
      · split
        · exact Quiet.error rfl
        · exact creditReward_quiet _ _
      · exact creditReward_quiet _ _

theorem sealBlock_quiet (stateRoot : Hex) (totalGasUsed : Int) :
    Quiet (e.sealBlock block locallyProposed stateRoot totalGasUsed) := by
  have rootQuiet : Quiet (e.checkStateRoot block stateRoot) := by
    unfold checkStateRoot
    split <;> simp [aboutProposer]
  apply rootQuiet.bind
  intro _
  apply (stateRootSigFor_quiet _ _ _ _ block locallyProposed _).bind
  intro _
  exact Quiet.ok _

theorem finishBlock_quiet (totalGasUsed : Int) (s : PersistentStateTrie ρ τ) :
    Quiet (finishBlock p e call block locallyProposed totalGasUsed s).1 := by
  unfold finishBlock
  dsimp only
  split
  · rename_i err sealed
    exact Quiet.error (sealBlock_quiet _ _ _ err sealed)
  · split
    · exact Quiet.error rfl
    · unfold updateFinalityFlags
      split
      · exact Quiet.ok ()
      · split
        · exact Quiet.error rfl
        · exact Quiet.ok ()

def processed (p : Platform ρ τ) (e : Engine ρ τ) (call : ApplyCall) (block : ChainBlock) :
    Except ApplyError Unit × Engine ρ τ :=
  match executeBlock p e call block false e.stateTrie.checkpoint.checkpoint with
  | (.error err, s) => (.error err, e.rollback s)
  | (.ok totalGasUsed, s) => finishBlock p e call block false totalGasUsed s

theorem applyBlock_admitted : ∃ rest, Quiet rest.1 ∧ ∀ finalized bftFinalized,
    applyBlock p e call (block.withFlags finalized bftFinalized) false =
      admitted e e.applyingBlock (e.blockIndex.getBlockByHash block.hash) (validateBlockLink e.getTip block)
        (e.checkProposer p.host block) (e.checkContents p.host call.now e.getTip block false) rest bftFinalized := by
  refine ⟨processed p e call block, ?_, fun finalized bftFinalized => ?_⟩
  · unfold processed
    split
    · rename_i err s executed
      exact (executeBlock_quiet _ _).passed_on executed
    · exact finishBlock_quiet _ _ _
  · unfold applyBlock
    simp only [executeBlock_withFlags]
    rfl

theorem expectedProposer_error {height : Int} (failed : e.expectedProposer host height = .error err) :
    err.aboutProposer = true := by
  unfold expectedProposer at failed
  split at failed
  · rename_i active
    exact stakeWeightedProposer_error active failed
  · split at failed
    · cases failed
    · split at failed
      · cases failed
      · cases failed
        rfl

theorem checkProposer_error (failed : e.checkProposer host block = .error err) :
    err.aboutProposer = true := by
  unfold checkProposer at failed
  split at failed
  · rename_i wrong unexpected
    cases failed
    exact expectedProposer_error unexpected
  · split at failed
    · cases failed
    · split at failed
      · cases failed
        rfl
      · cases failed
      · split at failed
        · cases failed
        · cases failed
          rfl

/-- Where the flags of a remote block make no difference: before the proposer is checked, or when the
    proposer passes anyway. -/
def FlagsUnread (p : Platform ρ τ) (e : Engine ρ τ) (block : ChainBlock) : Prop :=
  e.applyingBlock = true ∨ (e.blockIndex.getBlockByHash block.hash).isSome = true ∨
    validateBlockLink e.getTip block = false ∨ e.checkProposer p.host block = .ok ()

end Engine

namespace MemoryEngine

variable {σ : Type} {evm : MemoryEvm σ} {m : MemoryEngine σ}

theorem executeTxs_withFlags (txs : List Hex) (i : Nat) (gathered : Gathered) (s : σ) :
    executeTxs evm (block.withFlags finalized bftFinalized) i txs gathered s = executeTxs evm block i txs gathered s := by
  induction txs generalizing i gathered s with
  | nil => rfl
  | cons raw rest ih =>
    unfold executeTxs
    rw [show txCall (block.withFlags finalized bftFinalized) i raw = txCall block i raw from rfl]
    split
    · rfl
    · exact ih _ _ _

variable (txHashSet : BoundedSet Hex txHashCapacity)

theorem executeBlock_withFlags (s : σ) :
    executeBlock evm (block.withFlags finalized bftFinalized) false txHashSet s =
      executeBlock evm block false txHashSet s := by
  unfold executeBlock runBlock
  simp only [executeTxs_withFlags]
  rfl

theorem checkContents_quiet (prev : Option ChainBlock) (locallyProposed : Bool) :
    Quiet (m.checkContents host now prev block locallyProposed) := by
  apply ((checkSignature_quiet _ _ _ block).checkIf _).bind
  intro _
  apply ((checkTimestamps_quiet now prev block).checkIf _).bind
  intro _
  apply (checkWeight_quiet _ prev block).bind
  intro _
  exact checkHash_quiet host block

theorem executeTxs_quiet (txs : List Hex) (i : Nat) (gathered : Gathered) (s : σ) :
    Quiet (executeTxs evm block i txs gathered s).1 := by
  induction txs generalizing i gathered s with
  | nil => exact Quiet.ok _
  | cons raw rest ih =>
    unfold executeTxs
    split
    · exact Quiet.error rfl
    · exact ih _ _ _

variable (locallyProposed : Bool)

theorem checkGas_quiet (totalGasUsed : Int) :
    Quiet (checkGas block locallyProposed totalGasUsed) := by
  unfold checkGas
  cases block.gasUsed <;> simp [aboutProposer]

theorem checkStateRoot_quiet (s : σ) : Quiet (checkStateRoot evm block locallyProposed s).1 := by
  unfold checkStateRoot
  split
  · split
    · split
      · exact Quiet.ok ()
      · exact Quiet.error rfl
    · split
      · exact Quiet.error rfl
      · exact Quiet.ok ()
  · exact Quiet.ok ()

theorem runBlock_quiet (s : σ) :
    Quiet (runBlock evm block locallyProposed txHashSet s).1 := by
  unfold runBlock
  split
  · exact Quiet.error rfl
  · split
    · rename_i err gathered s' executed
      exact (executeTxs_quiet _ _ _ _).passed_on executed
    · exact checkGas_quiet _ _

theorem executeBlock_quiet (s : σ) :
    Quiet (executeBlock evm block locallyProposed txHashSet s).1 := by
  unfold executeBlock
  split
  · rename_i err gathered s' ran
    exact (runBlock_quiet _ _ _).passed_on ran
  · exact checkStateRoot_quiet _ _

theorem finishBlock_quiet (gathered : Gathered) (s : σ) :
    Quiet (finishBlock evm m block locallyProposed gathered s).1 := by
  unfold finishBlock
  dsimp only
  split
  · rename_i err refused
    exact Quiet.error (stateRootSigFor_quiet _ _ _ _ _ _ _ err refused)
  · exact Quiet.ok ()

def processed (evm : MemoryEvm σ) (m : MemoryEngine σ) (block : ChainBlock) :
    Except ApplyError Unit × MemoryEngine σ :=
  match executeBlock evm block false m.txHashSet (evm.checkpointState m.state) with
  | (.error err, gathered, s) => (.error err, { m with state := evm.revertState s, txHashSet := gathered.txHashSet })
  | (.ok _, gathered, s) => finishBlock evm m block false gathered s

theorem applyBlock_admitted : ∃ rest, Quiet rest.1 ∧ ∀ finalized bftFinalized,
    applyBlock evm host m now (block.withFlags finalized bftFinalized) false =
      admitted m m.applyingBlock (m.getBlockByHash block.hash) (validateBlockLink m.getTip block)
        (m.checkProposer block) (m.checkContents host now m.getTip block false) rest bftFinalized := by
  refine ⟨processed evm m block, ?_, fun finalized bftFinalized => ?_⟩
  · unfold processed
    split
    · rename_i err gathered s executed
      exact (executeBlock_quiet _ _ _).passed_on executed
    · exact finishBlock_quiet _ _ _
  · unfold applyBlock
    simp only [executeBlock_withFlags]
    rfl

theorem checkProposer_error (failed : m.checkProposer block = .error err) :
    err.aboutProposer = true := by
  unfold checkProposer at failed
  split at failed
  · rename_i wrong unexpected
    cases failed
    unfold expectedProposer at unexpected
    split at unexpected
    · cases unexpected
    · split at unexpected
      · cases unexpected
      · split at unexpected
        · cases unexpected
        · cases unexpected
          rfl
  · split at failed
    · cases failed
    · cases failed
      rfl

def FlagsUnread (m : MemoryEngine σ) (block : ChainBlock) : Prop :=
  m.applyingBlock = true ∨ (m.getBlockByHash block.hash).isSome = true ∨
    validateBlockLink m.getTip block = false ∨ m.checkProposer block = .ok ()

end MemoryEngine

/-- In both engines the unhashed finality flags of a remote block decide nothing exactly where the
    proposer check is not reached or is passed. -/
theorem finality_flags_ignored_iff {ρ τ σ : Type} [DecidableEq ρ] [DecidableEq τ] (p : Platform ρ τ) (e : Engine ρ τ)
    (call : ApplyCall) (evm : MemoryEvm σ) (m : MemoryEngine σ) (block : ChainBlock) :
    ((∀ finalized bftFinalized finalized' bftFinalized',
      SameOutcome (fun e : Engine ρ τ => e.blockIndex.getBlockByHash) block.hash
        (Engine.applyBlock p e call (block.withFlags finalized bftFinalized) false)
        (Engine.applyBlock p e call (block.withFlags finalized' bftFinalized') false)) ↔ e.FlagsUnread p block) ∧
    ((∀ finalized bftFinalized finalized' bftFinalized',
      SameOutcome (MemoryEngine.getBlockByHash (σ := σ)) block.hash
        (MemoryEngine.applyBlock evm p.host m call.now (block.withFlags finalized bftFinalized) false)
        (MemoryEngine.applyBlock evm p.host m call.now (block.withFlags finalized' bftFinalized') false)) ↔
      m.FlagsUnread block) := by
  constructor
  · obtain ⟨rest, quiet, applied⟩ := @Engine.applyBlock_admitted block ρ τ _ _ p e call
    simp only [applied, forall_const]
    exact admitted_iff Engine.checkProposer_error (Engine.checkContents_quiet _ _) quiet
  · obtain ⟨rest, quiet, applied⟩ := @MemoryEngine.applyBlock_admitted block call.now p.host σ evm m
    simp only [applied, forall_const]
    exact admitted_iff MemoryEngine.checkProposer_error (MemoryEngine.checkContents_quiet _ _) quiet

section Sample

def outOfTurnBlock : ChainBlock := sampleBlock 1 zeroHash "node-2" 1000

def sampleMemoryEngine : MemoryEngine Unit where
  cfg := sampleEngine.cfg
  blocks := []
  blockByNumber := .empty
  blockByHash := .empty
  receiptsByBlock := .empty
  txHashSet := .empty
  state := ()
  validatorAddressMap := .empty
  nodeSigner := none
  signatureVerifier := none
  applyingBlock := false

def idleMemoryEvm : MemoryEvm Unit :=
  ⟨fun _ s => (.ok (), s), fun call s => (.ok ⟨call.raw, some ⟨call.raw, 21000⟩⟩, s), id, id, id, none,
    fun s => (.ok (), s)⟩

theorem claimed_finality_admits_out_of_turn_block :
    (Engine.applyBlock plainPlatform sampleEngine sampleCall (outOfTurnBlock.withFlags false none) false).1 =
        .error .invalidProposer ∧
      (Engine.applyBlock plainPlatform sampleEngine sampleCall (outOfTurnBlock.withFlags false (some true)) false).1 =
        .ok () ∧
      (MemoryEngine.applyBlock idleMemoryEvm plainPlatform.host sampleMemoryEngine 1000000
        (outOfTurnBlock.withFlags false none) false).1 = .error .invalidProposer ∧
      (MemoryEngine.applyBlock idleMemoryEvm plainPlatform.host sampleMemoryEngine 1000000
        (outOfTurnBlock.withFlags false (some true)) false).1 = .ok () := by
  decide

end Sample

end Palimesh.Chain
