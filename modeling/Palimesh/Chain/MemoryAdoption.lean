import Palimesh.Chain.BlockImport
import Palimesh.Chain.MemoryAtomicity

namespace Palimesh.Chain

open Collections List ChainBlock MemoryEngine

variable {σ : Type}

namespace MemoryEngine

/-- Unlike `applyBlock`, this takes a proposer's id for its address and never asks whose turn it is. -/
def verifyBlock (host : Host) (m : MemoryEngine σ) (prev : Option ChainBlock) (block : ChainBlock) : Bool :=
  hashBlockPayload host block == block.hash && Engine.continues ⟨false, false⟩ prev block &&
    (checkWeight block.number prev block).isOk &&
    (m.cfg.validators.isEmpty || m.cfg.validators.contains block.proposer) &&
    (checkSignature m.cfg.sigMode m.signatureVerifier block.proposer block).isOk

def verifyBlockChain (host : Host) (m : MemoryEngine σ) : Option ChainBlock → List ChainBlock → Bool
  | _, [] => true
  | prev, block :: blocks => m.verifyBlock host prev block && m.verifyBlockChain host (some block) blocks

def adoptable (host : Host) (m : MemoryEngine σ) (blocks : List ChainBlock) : Bool :=
  match blocks.getLast? with
  | none => false
  | some incomingTip => decide (m.getHeight < incomingTip.number) && m.verifyBlockChain host none blocks

def emptied (m : MemoryEngine σ) (s : σ) : MemoryEngine σ :=
  { m with
    blocks := []
    blockByNumber := .empty
    blockByHash := .empty
    receiptsByBlock := .empty
    txHashSet := .empty
    state := s }

section Adopt

variable (evm : MemoryEvm σ) (host : Host) (clock : Nat → Int)

def replay : Nat → List ChainBlock → MemoryEngine σ → Except ApplyError Unit × MemoryEngine σ
  | _, [], m => (.ok (), m)
  | i, block :: rest, m =>
    match applyBlock evm host m (clock i) block false with
    | (.error err, m) => (.error err, m)
    | (.ok _, m) => replay (i + 1) rest m

variable (saveFails : Option String) (m : MemoryEngine σ) (blocks : List ChainBlock)

def rebuildFromBlocks : Except ApplyError Unit × MemoryEngine σ :=
  match evm.resetExecution m.state with
  | (.error message, s) => (.error (.thrown message), m.emptied s)
  | (.ok _, s) => replay evm host clock 0 blocks (m.emptied s)

def maybeAdoptSnapshot : Except ApplyError Bool × MemoryEngine σ :=
  if m.adoptable host blocks then
    match rebuildFromBlocks evm host clock m blocks with
    | (.error err, after) => (.error err, after)
    | (.ok _, after) =>
      match saveFails with
      | some message => (.error (.thrown message), after)
      | none => (.ok true, after)
  else (.ok false, m)

inductive Replays : Nat → MemoryEngine σ → List ChainBlock → MemoryEngine σ → Prop
  | nil {i : Nat} {m : MemoryEngine σ} : Replays i m [] m
  | cons {i : Nat} {m next rebuilt : MemoryEngine σ} {block : ChainBlock} {rest : List ChainBlock}
      (applied : applyBlock evm host m (clock i) block false = (.ok (), next)) (later : Replays (i + 1) next rest rebuilt) :
      Replays i m (block :: rest) rebuilt

/-- A snapshot that passes the first checks is rebuilt to its end and saved, or what the failure leaves behind
    is the engine as it was. -/
def AdoptsOrKeeps : Prop :=
  m.adoptable host blocks = true →
    match evm.resetExecution m.state with
    | (.error _, s) => m.emptied s = m
    | (.ok _, s) =>
      (∃ rebuilt, Replays evm host clock 0 (m.emptied s) blocks rebuilt ∧ (saveFails = none ∨ rebuilt = m)) ∨
        ∃ front block rest rebuilt err, blocks = front ++ block :: rest ∧
          Replays evm host clock 0 (m.emptied s) front rebuilt ∧
          applyBlock evm host rebuilt (clock front.length) block false = (.error err, m)

end Adopt

variable {evm : MemoryEvm σ} {host : Host} {clock : Nat → Int} {m after : MemoryEngine σ} {blocks : List ChainBlock}
  {err : ApplyError} {i : Nat}

theorem replay_ok_iff : replay evm host clock i blocks m = (.ok (), after) ↔ Replays evm host clock i m blocks after := by
  constructor
  · intro replayed
    induction blocks generalizing i m with
    | nil =>
      cases replayed
      exact .nil
    | cons block rest ih =>
      rcases applied : applyBlock evm host m (clock i) block false with ⟨err | _, next⟩
      · rw [replay, applied] at replayed
        cases replayed
      · rw [replay, applied] at replayed
        exact .cons applied (ih replayed)
  · intro replays
    induction replays with
    | nil => rfl
    | cons applied _ ih =>
      rw [replay, applied]
      exact ih

theorem replay_error_iff : replay evm host clock i blocks m = (.error err, after) ↔
    ∃ front block rest rebuilt, blocks = front ++ block :: rest ∧ Replays evm host clock i m front rebuilt ∧
      applyBlock evm host rebuilt (clock (i + front.length)) block false = (.error err, after) := by
  constructor
  · intro replayed
    induction blocks generalizing i m with
    | nil => cases replayed
    | cons block rest ih =>
      rcases applied : applyBlock evm host m (clock i) block false with ⟨err | _, next⟩
      · rw [replay, applied] at replayed
        cases replayed
        exact ⟨[], block, rest, m, rfl, .nil, applied⟩
      · rw [replay, applied] at replayed
        obtain ⟨front, failing, later, rebuilt, rfl, replays, failed⟩ := ih replayed
        refine ⟨block :: front, failing, later, rebuilt, rfl, .cons applied replays, ?_⟩
        rw [length_cons, show i + (front.length + 1) = i + 1 + front.length by omega]
        exact failed
  · rintro ⟨front, block, rest, rebuilt, rfl, replays, failed⟩
    induction replays with
    | nil =>
      rw [nil_append, replay]
      rw [length_nil, Nat.add_zero] at failed
      rw [failed]
    | @cons i m next rebuilt first front applied _ ih =>
      rw [cons_append, replay, applied]
      apply ih
      rw [length_cons, show i + (front.length + 1) = i + 1 + front.length by omega] at failed
      exact failed

theorem map_hash_replace {old new : ChainBlock} (same : new.hash = old.hash) (blocks : List ChainBlock) :
    (blocks.replace old new).map hash = blocks.map hash := by
  induction blocks with
  | nil => rfl
  | cons block rest ih =>
    rw [replace_cons]
    split
    · rename_i here
      rw [map_cons, map_cons, same, ← beq_iff_eq.mp here]
    · rw [map_cons, map_cons, ih]

theorem updateFinalityFlags_hashes (m : MemoryEngine σ) :
    m.updateFinalityFlags.blocks.map hash = m.blocks.map hash := by
  unfold updateFinalityFlags
  dsimp only
  split
  · rfl
  · split
    · rfl
    · split
      · rfl
      · apply map_hash_replace
        rfl

variable (evm host) in
theorem applyBlock_hashes (m : MemoryEngine σ) (now : Int) (block : ChainBlock) (locallyProposed : Bool) :
    ((applyBlock evm host m now block locallyProposed).2.blocks.map hash).Sublist
      (m.blocks.map hash ++ [block.hash]) := by
  have kept : (m.blocks.map hash).Sublist (m.blocks.map hash ++ [block.hash]) :=
    sublist_append_left _ _
  unfold applyBlock
  split
  · exact kept
  · split
    · unfold applyDuplicate
      split
      · rename_i existing _ _
        have same : (m.blocks.replace existing { existing with bftFinalized := some true }).map hash =
            m.blocks.map hash := by
          apply map_hash_replace
          rfl
        exact same.symm ▸ kept
      · exact kept
    · split
      · exact kept
      · dsimp only
        split
        · exact kept
        · unfold finishBlock
          dsimp only
          split
          · exact kept
          · rw [updateFinalityFlags_hashes]
            show ((m.blocks ++ [_]).map hash).Sublist _
            rw [map_append]
            exact List.Sublist.refl _

theorem replay_hashes (blocks : List ChainBlock) (i : Nat) (m : MemoryEngine σ) :
    ((replay evm host clock i blocks m).2.blocks.map hash).Sublist
      (m.blocks.map hash ++ blocks.map hash) := by
  induction blocks generalizing i m with
  | nil =>
    rw [map_nil, append_nil]
    exact List.Sublist.refl _
  | cons block rest ih =>
    have step := applyBlock_hashes evm host m (clock i) block false
    rw [map_cons, append_cons]
    unfold replay
    split
    · rename_i applied
      rw [applied] at step
      exact step.trans (sublist_append_left _ _)
    · rename_i next applied
      rw [applied] at step
      exact (ih (i + 1) next).trans (step.append_right _)

variable (evm host clock) in
theorem replay_cases (blocks : List ChainBlock) (m : MemoryEngine σ) (saved : Prop) (kept : MemoryEngine σ) :
    ((replay evm host clock 0 blocks m).1 = .ok () ∧ saved ∨ (replay evm host clock 0 blocks m).2 = kept) ↔
      (∃ rebuilt, Replays evm host clock 0 m blocks rebuilt ∧ (saved ∨ rebuilt = kept)) ∨
        ∃ front block rest rebuilt err, blocks = front ++ block :: rest ∧ Replays evm host clock 0 m front rebuilt ∧
          applyBlock evm host rebuilt (clock front.length) block false = (.error err, kept) := by
  have failing : (∃ err, replay evm host clock 0 blocks m = (.error err, kept)) ↔
      ∃ front block rest rebuilt err, blocks = front ++ block :: rest ∧ Replays evm host clock 0 m front rebuilt ∧
        applyBlock evm host rebuilt (clock front.length) block false = (.error err, kept) := by
    simp only [replay_error_iff, Nat.zero_add]
    constructor
    · rintro ⟨err, front, block, rest, rebuilt, failed⟩
      exact ⟨front, block, rest, rebuilt, err, failed⟩
    · rintro ⟨front, block, rest, rebuilt, err, failed⟩
      exact ⟨err, front, block, rest, rebuilt, failed⟩
  rw [← failing]
  simp only [← replay_ok_iff]
  rcases replay evm host clock 0 blocks m with ⟨err | _, after⟩
  · simp
  · simp

variable {saveFails : Option String}

theorem maybeAdoptSnapshot_adoptable (adoptable : m.adoptable host blocks = true) :
    ((maybeAdoptSnapshot evm host clock saveFails m blocks).1 ≠ .ok true →
        (maybeAdoptSnapshot evm host clock saveFails m blocks).2 = m) ↔
      ((rebuildFromBlocks evm host clock m blocks).1 = .ok () ∧ saveFails = none) ∨
        (rebuildFromBlocks evm host clock m blocks).2 = m := by
  unfold maybeAdoptSnapshot
  rw [if_pos adoptable]
  rcases rebuildFromBlocks evm host clock m blocks with ⟨err | _, after⟩
  · simp
  · cases saveFails with
    | none => simp
    | some message => simp

theorem maybeAdoptSnapshot_iff :
    ((maybeAdoptSnapshot evm host clock saveFails m blocks).1 ≠ .ok true →
        (maybeAdoptSnapshot evm host clock saveFails m blocks).2 = m) ↔
      AdoptsOrKeeps evm host clock saveFails m blocks := by
  cases adoptable : m.adoptable host blocks with
  | false =>
    unfold maybeAdoptSnapshot AdoptsOrKeeps
    rw [adoptable]
    exact ⟨fun _ passed => (nomatch passed), fun _ _ => rfl⟩
  | true =>
    have unguarded : AdoptsOrKeeps evm host clock saveFails m blocks ↔ _ :=
      ⟨fun held => held adoptable, fun held _ => held⟩
    rw [maybeAdoptSnapshot_adoptable adoptable, unguarded, rebuildFromBlocks]
    rcases evm.resetExecution m.state with ⟨message | _, s⟩
    · simp
    · exact replay_cases evm host clock blocks (m.emptied s) (saveFails = none) m

theorem maybeAdoptSnapshot_failed (failed : (maybeAdoptSnapshot evm host clock saveFails m blocks).1 = .error err) :
    (maybeAdoptSnapshot evm host clock saveFails m blocks).2 = (rebuildFromBlocks evm host clock m blocks).2 := by
  unfold maybeAdoptSnapshot at failed ⊢
  by_cases adoptable : m.adoptable host blocks = true
  · rw [if_pos adoptable] at failed ⊢
    rcases rebuilt : rebuildFromBlocks evm host clock m blocks with ⟨_ | _, after⟩
    · rfl
    · rw [rebuilt] at failed
      cases saveFails with
      | none => cases failed
      | some _ => rfl
  · rw [if_neg adoptable] at failed
    cases failed

end MemoryEngine

section Sample

def oneBlockEngine : MemoryEngine (Nat × List Nat) :=
  (MemoryEngine.applyBlock countingEvm plainPlatform.host countingEngine 1000000 (blockOf ["0xa1"]) false).2

def windowBlock : ChainBlock :=
  { sampleBlock 2 (blockOf ["0xa1"]).hash "node-2" 2000 with signature := some "0xgood" }

end Sample

end Palimesh.Chain
